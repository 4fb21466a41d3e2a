import LuaLiterals.Dialect
import LuaLiterals.Fault

/-!
How Lua writes comments and string literals, said by the texts themselves and without an
automaton: where a token begins, how far a long bracket reaches, and which characters stand
between quotes. `Grammar.split` puts these together into the sequence of parts that a source
falls into, with the cause that ends it early if a literal is not finished. It comes to an end
because the pieces taken from a text make it up again (`gap_append`, `suffix_of_parts`).

Which closing bracket belongs to an opening one is left open: `mate` tells its number of equals
signs from theirs. For Lua the two are the same, which is `mate = id`. A reader that keeps levels
in 32 bits takes no more signs into account than it can count, which is `mate = capped`; on
sources whose brackets have no more signs than that the two agree.
-/

set_option autoImplicit false
set_option relaxedAutoImplicit false

namespace LuaLiterals

def openingBracket (count : Nat) : List Char := '[' :: List.replicate count '=' ++ ['[']

def closingBracket (count : Nat) : List Char := ']' :: List.replicate count '=' ++ [']']

/-- The text that closes an open literal. -/
def Literal.closer : Literal → List Char
  | .short quote => [quote.char]
  | .long level => closingBracket level.toNat

namespace Grammar

/-- The number of equals signs in the opening bracket at the front of a text, and the text behind
it. -/
def bracket? : List Char → Option (Nat × List Char)
  | '[' :: text =>
    match text.dropWhile (· = '=') with
    | '[' :: rest => some ((text.takeWhile (· = '=')).length, rest)
    | _ => none
  | _ => none

/-- The text in front of the first place where `word` occurs, and the text behind that
occurrence. -/
def breakOn? (word : List Char) : List Char → Option (List Char × List Char)
  | [] => if word = [] then some ([], []) else none
  | c :: text =>
    if word.isPrefixOf (c :: text) then some ([], (c :: text).drop word.length)
    else (breakOn? word text).map fun (before, rest) ↦ (c :: before, rest)

/-- The characters between quotes, up to the closing quote or the end of the line, and the text
behind them. A backslash takes the next character with it, unless that is a line feed. -/
def quotedBody (quote : Quote) : List Char → List Char × List Char
  | [] => ([], [])
  | ['\\'] => (['\\'], [])
  | '\\' :: c :: text =>
    if c = '\n' then (['\\'], c :: text)
    else
      let (body, rest) := quotedBody quote text
      ('\\' :: c :: body, rest)
  | c :: text =>
    if c = quote.char ∨ c = '\n' then ([], c :: text)
    else
      let (body, rest) := quotedBody quote text
      (c :: body, rest)

/-- The number of equals signs that a level can count. -/
def capped (count : Nat) : Nat := min count (UInt32.size - 1)

/-- The rest of a comment behind its dashes, and the text behind the comment. -/
def commentBody (mate : Nat → Nat) (dialect : Dialect) (text : List Char) :
    List Char × List Char :=
  match bracket? (text.dropWhile dialect.isCommentBlank) with
  | some (count, inside) =>
    match breakOn? (closingBracket (mate count)) inside with
    | some (body, rest) =>
      (text.takeWhile dialect.isCommentBlank ++ openingBracket count ++ body ++
        closingBracket (mate count), rest)
    | none => (text, [])
  | none => (text.takeWhile (· ≠ '\n'), text.dropWhile (· ≠ '\n'))

/-- A piece of a source: a token of some kind, or text outside comments and literals. -/
structure Part where
  kind : Option Kind
  chars : List Char
deriving DecidableEq, Repr

/-- A part, unless it is empty. -/
def part (kind : Option Kind) (chars : List Char) : List Part :=
  if chars = [] then [] else [⟨kind, chars⟩]

/-- The parts of a short literal behind its opening quote, and the text behind the literal, or
the cause that it is not finished. -/
def shortLiteral (quote : Quote) (text : List Char) : List Part × Except Cause (List Char) :=
  let (body, rest) := quotedBody quote text
  if rest.head? = some quote.char then
    (part (some .content) body ++ [⟨some .closing, [quote.char]⟩], .ok rest.tail)
  else
    (part (some .content) body,
      .error (.unfinishedString (if body = [] then .content else .closing)))

/-- The parts of a long literal behind its opening bracket, and the text behind the literal, or
the cause that it is not finished. -/
def longLiteral (mate : Nat → Nat) (count : Nat) (text : List Char) :
    List Part × Except Cause (List Char) :=
  match breakOn? (closingBracket (mate count)) text with
  | some (body, rest) =>
    (part (some .content) body ++ [⟨some .closing, closingBracket (mate count)⟩], .ok rest)
  | none => ([], .error .unfinishedLongString)

/-- How a token begins, with the text behind that. -/
inductive Beginning
  | comment (rest : List Char)
  | short (quote : Quote) (rest : List Char)
  | long (count : Nat) (rest : List Char)
deriving DecidableEq, Repr

def beginning? : List Char → Option Beginning
  | '-' :: '-' :: rest => some (.comment rest)
  | c :: rest =>
    match Quote.ofChar? c with
    | some quote => some (.short quote rest)
    | none => (bracket? (c :: rest)).map fun (count, rest) ↦ .long count rest
  | [] => none

/-- The text in front of the first token, and how that token begins. -/
def gap : List Char → List Char × Option Beginning
  | [] => ([], none)
  | c :: text =>
    match beginning? (c :: text) with
    | some beginning => ([], some beginning)
    | none =>
      let (before, beginning) := gap text
      (c :: before, beginning)

/-- The parts of a token, and the text behind it, or the cause that it is not finished. -/
def Beginning.parts (mate : Nat → Nat) (dialect : Dialect) :
    Beginning → List Part × Except Cause (List Char)
  | comment rest =>
    let (body, rest) := commentBody mate dialect rest
    ([⟨some .comment, '-' :: '-' :: body⟩], .ok rest)
  | short quote rest =>
    let (parts, rest) := shortLiteral quote rest
    (⟨some .opening, [quote.char]⟩ :: parts, rest)
  | long count rest =>
    let (parts, rest) := longLiteral mate count rest
    (⟨some .opening, openingBracket count⟩ :: parts, rest)

def Beginning.rest : Beginning → List Char
  | comment rest | short _ rest | long _ rest => rest

variable {mate : Nat → Nat} {dialect : Dialect} {word text before rest : List Char} {c : Char}
variable {beginning : Beginning} {parts : List Part}

/-! ### Opening brackets -/

theorem openingBracket_append (count : Nat) (rest : List Char) :
    openingBracket count ++ rest = '[' :: (List.replicate count '=' ++ '[' :: rest) := by
  simp [openingBracket]

theorem length_openingBracket (count : Nat) : (openingBracket count).length = count + 2 := by
  simp [openingBracket]

theorem length_closingBracket (count : Nat) : (closingBracket count).length = count + 2 := by
  simp [closingBracket]

theorem bracket?_sign (text : List Char) :
    bracket? ('[' :: '=' :: text) =
      (bracket? ('[' :: text)).map fun found ↦ (found.1 + 1, found.2) := by
  simp only [bracket?, List.dropWhile_cons, List.takeWhile_cons, decide_true, if_true]
  split <;> rfl

theorem bracket?_second (text : List Char) : bracket? ('[' :: '[' :: text) = some (0, text) := rfl

theorem bracket?_of_ne (h : c ≠ '[') : bracket? (c :: text) = none := by
  unfold bracket?
  split
  next heq => exact absurd (List.cons.inj heq).1 h
  next => rfl

/-- What is found is an opening bracket at the front of the text. -/
theorem bracket?_eq_some_iff {count : Nat} :
    bracket? text = some (count, rest) ↔ text = openingBracket count ++ rest := by
  constructor
  · intro h
    unfold bracket? at h
    split at h
    next text =>
      split at h
      next tail hdrop =>
        cases h
        have hsigns : text.takeWhile (· = '=') =
            List.replicate (text.takeWhile (· = '=')).length '=' := by
          refine List.eq_replicate_iff.mpr ⟨rfl, fun c hc ↦ ?_⟩
          exact of_decide_eq_true (List.all_eq_true.mp List.all_takeWhile c hc)
        rw [openingBracket_append, ← hsigns, ← hdrop, List.takeWhile_append_dropWhile]
      next => cases h
    next => cases h
  · rintro rfl
    induction count with
    | zero => exact bracket?_second rest
    | succ count ih =>
      rw [openingBracket, List.replicate_succ]
      exact (bracket?_sign _).trans (congrArg _ ih)

/-! ### Pieces that make up what they were taken from -/

/-- Where a word is found it stands between the two parts. -/
theorem eq_append_of_breakOn? (h : breakOn? word text = some (before, rest)) :
    text = before ++ word ++ rest := by
  induction text generalizing before with
  | nil =>
    rw [breakOn?] at h
    by_cases hnil : word = []
    · rw [if_pos hnil] at h
      cases h
      rw [hnil]
      rfl
    · rw [if_neg hnil] at h
      cases h
  | cons c text ih =>
    rw [breakOn?] at h
    by_cases hbegins : word.isPrefixOf (c :: text) = true
    · rw [if_pos hbegins] at h
      cases h
      exact (List.prefix_iff_eq_append.mp (List.isPrefixOf_iff_prefix.mp hbegins)).symm
    · rw [if_neg hbegins] at h
      obtain ⟨found, hfound, heq⟩ := Option.map_eq_some_iff.mp h
      cases heq
      exact congrArg (c :: ·) (ih hfound)

theorem quotedBody_append (quote : Quote) (text : List Char) :
    (quotedBody quote text).1 ++ (quotedBody quote text).2 = text := by
  fun_induction quotedBody quote text with
  | case1 => rfl
  | case2 => rfl
  | case3 text => rfl
  | case4 c text hline body rest heq ih =>
    rw [heq] at ih
    exact congrArg ('\\' :: c :: ·) ih
  | case5 c text hlone hpair hstop => rfl
  | case6 c text hlone hpair hpass body rest heq ih =>
    rw [heq] at ih
    exact congrArg (c :: ·) ih

theorem commentBody_append (mate : Nat → Nat) (dialect : Dialect) (text : List Char) :
    (commentBody mate dialect text).1 ++ (commentBody mate dialect text).2 = text := by
  unfold commentBody
  split
  next count inside hbracket =>
    split
    next body rest hbreak =>
      have hinside := eq_append_of_breakOn? hbreak
      have hdrop := bracket?_eq_some_iff.mp hbracket
      have hsplit := List.takeWhile_append_dropWhile (p := dialect.isCommentBlank) (l := text)
      rw [hdrop, hinside] at hsplit
      simpa only [List.append_assoc] using hsplit
    next => exact List.append_nil text
  next => exact List.takeWhile_append_dropWhile

/-! ### The text in front of a token -/

/-- The characters that a token begins with. -/
def Beginning.opener : Beginning → List Char
  | comment _ => ['-', '-']
  | short quote _ => [quote.char]
  | long count _ => openingBracket count

theorem beginning?_bracket (text : List Char) :
    beginning? ('[' :: text) = (bracket? ('[' :: text)).map fun found ↦ .long found.1 found.2 := rfl

/-- A token begins at the front of a text exactly if the text begins like that token. -/
theorem beginning?_eq_some_iff :
    beginning? text = some beginning ↔ text = beginning.opener ++ beginning.rest := by
  constructor
  · intro h
    unfold beginning? at h
    split at h
    next rest =>
      cases h
      rfl
    next c rest _ =>
      split at h
      next quote hquote =>
        cases h
        rw [Quote.ofChar?_eq_some_iff.mp hquote]
        rfl
      next =>
        obtain ⟨found, hfound, rfl⟩ := Option.map_eq_some_iff.mp h
        exact bracket?_eq_some_iff.mp hfound
    next => cases h
  · rintro rfl
    rcases beginning with rest | ⟨quote, rest⟩ | ⟨count, rest⟩
    · rfl
    · rcases quote with _ | _ <;> rfl
    · have hbracket := bracket?_eq_some_iff.mpr (rfl : openingBracket count ++ rest = _)
      rw [openingBracket_append] at hbracket
      show beginning? (openingBracket count ++ rest) = _
      rw [openingBracket_append, beginning?_bracket, hbracket]
      rfl

theorem gap_cons (h : beginning? (c :: text) = none) :
    gap (c :: text) = (c :: (gap text).1, (gap text).2) := by
  rw [gap, h]

theorem gap_append (h : gap text = (before, some beginning)) :
    text = before ++ (beginning.opener ++ beginning.rest) := by
  induction text generalizing before with
  | nil => cases h
  | cons c text ih =>
    rcases hfound : beginning? (c :: text) with _ | found
    · rw [gap_cons hfound] at h
      obtain ⟨rfl, hrest⟩ := Prod.mk.inj h
      exact congrArg (c :: ·) (ih (Prod.ext rfl hrest))
    · rw [gap, hfound] at h
      cases h
      exact beginning?_eq_some_iff.mp hfound

theorem gap_eq_self (h : (gap text).2 = none) : (gap text).1 = text := by
  induction text with
  | nil => rfl
  | cons c text ih =>
    rcases hfound : beginning? (c :: text) with _ | found
    · rw [gap_cons hfound] at h ⊢
      exact congrArg (c :: ·) (ih h)
    · rw [gap, hfound] at h
      cases h

theorem length_rest_lt_of_gap (h : gap text = (before, some beginning)) :
    beginning.rest.length < text.length := by
  have hopener : 0 < beginning.opener.length := by
    rcases beginning with _ | _ | _ <;> exact Nat.succ_pos _
  rw [gap_append h, List.length_append, List.length_append]
  omega

/-- What lies behind a token lies behind its beginning. -/
theorem suffix_of_parts (hparts : beginning.parts mate dialect = (parts, .ok rest)) :
    rest <:+ beginning.rest := by
  rcases beginning with text | ⟨quote, text⟩ | ⟨count, text⟩
  · cases hparts
    exact ⟨_, commentBody_append mate dialect text⟩
  · have hbehind : (quotedBody quote text).2 <:+ text := ⟨_, quotedBody_append quote text⟩
    simp only [Beginning.parts, shortLiteral, Prod.mk.injEq] at hparts
    split at hparts
    next =>
      cases hparts.2
      exact (List.tail_suffix _).trans hbehind
    next => cases hparts.2
  · simp only [Beginning.parts, longLiteral, Prod.mk.injEq] at hparts
    split at hparts
    next body found hfound =>
      cases hparts.2
      exact ⟨_, (eq_append_of_breakOn? hfound).symm⟩
    next => cases hparts.2

/-! ### Splitting a source -/

/-- The parts a source falls into, and the cause that ends it early, if there is one. -/
def split (mate : Nat → Nat) (dialect : Dialect) (text : List Char) :
    List Part × Option Cause :=
  match _hgap : gap text with
  | (before, none) => (part none before, none)
  | (before, some beginning) =>
    match _hparts : beginning.parts mate dialect with
    | (parts, .ok rest) =>
      let later := split mate dialect rest
      (part none before ++ parts ++ later.1, later.2)
    | (parts, .error cause) => (part none before ++ parts, some cause)
termination_by text.length
decreasing_by
  exact Nat.lt_of_le_of_lt (suffix_of_parts _hparts).length_le (length_rest_lt_of_gap _hgap)

theorem split_none (hgap : gap text = (before, none)) :
    split mate dialect text = (part none before, none) := by
  rw [split]
  split
  next found hfound =>
    rw [hgap] at hfound
    cases hfound
    rfl
  next found other hfound =>
    rw [hgap] at hfound
    cases hfound

theorem split_ok (hgap : gap text = (before, some beginning))
    (hparts : beginning.parts mate dialect = (parts, .ok rest)) :
    split mate dialect text =
      (part none before ++ parts ++ (split mate dialect rest).1, (split mate dialect rest).2) := by
  rw [split]
  split
  next found hfound =>
    rw [hgap] at hfound
    cases hfound
  next found other hfound =>
    rw [hgap] at hfound
    cases hfound
    split
    next heq =>
      rw [hparts] at heq
      cases heq
      rfl
    next heq =>
      rw [hparts] at heq
      cases heq

theorem split_error {cause : Cause} (hgap : gap text = (before, some beginning))
    (hparts : beginning.parts mate dialect = (parts, .error cause)) :
    split mate dialect text = (part none before ++ parts, some cause) := by
  rw [split]
  split
  next found hfound =>
    rw [hgap] at hfound
    cases hfound
  next found other hfound =>
    rw [hgap] at hfound
    cases hfound
    split
    next heq =>
      rw [hparts] at heq
      cases heq
    next heq =>
      rw [hparts] at heq
      cases heq
      rfl

end Grammar

end LuaLiterals
