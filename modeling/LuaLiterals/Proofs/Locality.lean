import LuaLiterals.Proofs.Openings
import LuaLiterals.Proofs.Quotes

/-!
What stands behind a token has no say in it. If the text behind the token is exchanged for another,
the token stays the same, and so does the text in front of it (`gap_withRest`,
`Beginning.parts_withRest`). The one exception is a comment, which ends with its line or with the
source: there the other text has to begin with the same character, or be empty.
-/

set_option autoImplicit false
set_option relaxedAutoImplicit false

namespace LuaLiterals

namespace Grammar

variable {mate : Nat → Nat} {dialect : Dialect} {word text before rest other : List Char}
variable {beginning : Beginning} {parts : List Part} {c : Char}

/-! ### Beginnings -/

/-- The same beginning in front of another text. -/
def Beginning.withRest (beginning : Beginning) (rest : List Char) : Beginning :=
  match beginning with
  | comment _ => comment rest
  | short quote _ => short quote rest
  | long count _ => long count rest

theorem Beginning.opener_withRest (beginning : Beginning) (rest : List Char) :
    (beginning.withRest rest).opener = beginning.opener := by
  cases beginning <;> rfl

theorem Beginning.rest_withRest (beginning : Beginning) (rest : List Char) :
    (beginning.withRest rest).rest = rest := by
  cases beginning <;> rfl

theorem beginning?_opener_append (beginning : Beginning) (rest : List Char) :
    beginning? (beginning.opener ++ rest) = some (beginning.withRest rest) := by
  rw [beginning?_eq_some_iff, Beginning.opener_withRest, Beginning.rest_withRest]

/-- No token begins with an equals sign. -/
theorem Beginning.exists_opener_eq_cons (beginning : Beginning) :
    ∃ first signs, beginning.opener = first :: signs ∧ first ≠ '=' := by
  rcases beginning with rest | ⟨quote, rest⟩ | ⟨count, rest⟩
  · exact ⟨_, _, rfl, by decide⟩
  · exact ⟨_, _, rfl, by cases quote <;> decide⟩
  · exact ⟨_, _, rfl, by decide⟩

/-- No token begins a text if whatever could begin it would also begin one that no token begins. -/
theorem beginning?_eq_none_of_openers (hnone : beginning? text = none)
    (h : ∀ early, beginning? other = some early → early.opener <+: text) :
    beginning? other = none := by
  rw [Option.eq_none_iff_forall_ne_some]
  intro early hearly
  obtain ⟨rest, rfl⟩ := h early hearly
  rw [beginning?_opener_append] at hnone
  cases hnone

/-- Signs and a bracket do not reach past a character that is no equals sign. -/
theorem signs_prefix_concat {front : List Char} {count : Nat} (hc : c ≠ '=')
    (h : List.replicate count '=' ++ ['['] <+: front ++ c :: rest) :
    List.replicate count '=' ++ ['['] <+: front ++ [c] := by
  induction front generalizing count with
  | nil =>
    cases count with
    | zero =>
      obtain ⟨heq, -⟩ := List.cons_prefix_cons.mp h
      exact List.cons_prefix_cons.mpr ⟨heq, List.nil_prefix⟩
    | succ count => exact absurd (List.cons_prefix_cons.mp h).1.symm hc
  | cons d front ih =>
    cases count with
    | zero =>
      obtain ⟨heq, -⟩ := List.cons_prefix_cons.mp h
      exact List.cons_prefix_cons.mpr ⟨heq, List.nil_prefix⟩
    | succ count =>
      obtain ⟨heq, hsigns⟩ := List.cons_prefix_cons.mp h
      exact List.cons_prefix_cons.mpr ⟨heq, ih hsigns⟩

/-- The beginning of a token does not reach past a later character that is no equals sign. -/
theorem Beginning.opener_prefix_concat {front : List Char} (hfront : front ≠ []) (hc : c ≠ '=')
    (h : beginning.opener <+: front ++ c :: rest) : beginning.opener <+: front ++ [c] := by
  have hpos : 0 < front.length := List.length_pos_iff.mpr hfront
  have hshort : front ++ [c] <+: front ++ c :: rest := ⟨rest, by simp⟩
  have hlength : (front ++ [c]).length = front.length + 1 := List.length_append
  rcases beginning with behind | ⟨quote, behind⟩ | ⟨count, behind⟩
  · refine List.prefix_of_prefix_length_le h hshort ?_
    rw [hlength]
    exact Nat.succ_le_succ hpos
  · refine List.prefix_of_prefix_length_le h hshort ?_
    rw [hlength]
    exact Nat.succ_le_succ (Nat.zero_le _)
  · obtain ⟨d, front, rfl⟩ := List.exists_cons_of_ne_nil hfront
    obtain ⟨heq, hsigns⟩ := List.cons_prefix_cons.mp h
    exact List.cons_prefix_cons.mpr ⟨heq, signs_prefix_concat hc hsigns⟩

/-! ### The text in front of a token -/

theorem gap_opener_append (beginning : Beginning) (rest : List Char) :
    gap (beginning.opener ++ rest) = ([], some (beginning.withRest rest)) := by
  obtain ⟨first, signs, hopener, -⟩ := beginning.exists_opener_eq_cons
  have hfound := beginning?_opener_append beginning rest
  rw [hopener, List.cons_append] at hfound ⊢
  rw [gap, hfound]

/-- The text in front of a token, and how the token begins, do not depend on what stands behind. -/
theorem gap_withRest (h : gap text = (before, some beginning)) (other : List Char) :
    gap (before ++ (beginning.opener ++ other)) = (before, some (beginning.withRest other)) := by
  induction text generalizing before with
  | nil => cases h
  | cons c text ih =>
    rcases hfound : beginning? (c :: text) with _ | found
    · rw [gap_cons hfound] at h
      obtain ⟨rfl, hbeginning⟩ := Prod.mk.inj h
      have hgap : gap text = ((gap text).1, some beginning) := Prod.ext rfl hbeginning
      have hnone : beginning? (c :: ((gap text).1 ++ (beginning.opener ++ other))) = none := by
        refine beginning?_eq_none_of_openers hfound fun early hearly ↦ ?_
        obtain ⟨first, signs, hopener, hsign⟩ := beginning.exists_opener_eq_cons
        have hbegins : early.opener <+: (c :: (gap text).1) ++ first :: (signs ++ other) := by
          refine ⟨early.rest, ?_⟩
          rw [← beginning?_eq_some_iff.mp hearly, hopener]
          rfl
        have hshort : early.opener <+: (c :: (gap text).1) ++ [first] :=
          early.opener_prefix_concat (List.cons_ne_nil _ _) hsign hbegins
        have htext : text = (gap text).1 ++ ([first] ++ (signs ++ beginning.rest)) := by
          have happend := gap_append hgap
          rwa [hopener] at happend
        have hwhole : (c :: (gap text).1) ++ [first] <+: c :: text := by
          refine List.cons_prefix_cons.mpr ⟨rfl, signs ++ beginning.rest, ?_⟩
          exact (List.append_assoc _ _ _).trans htext.symm
        exact hshort.trans hwhole
      rw [List.cons_append, gap_cons hnone, ih hgap]
    · rw [gap, hfound] at h
      cases h
      exact gap_opener_append beginning other

theorem gap_prefix (text : List Char) : (gap text).1 <+: text := by
  rcases hgap : gap text with ⟨before, _ | beginning⟩
  · have hself := gap_eq_self (congrArg Prod.snd hgap)
    rw [hgap] at hself
    exact ⟨[], by rw [← hself, List.append_nil]⟩
  · exact ⟨_, (gap_append hgap).symm⟩

/-- No token begins in the text in front of a token. -/
theorem gap_gap (text : List Char) : gap (gap text).1 = ((gap text).1, none) := by
  induction text with
  | nil => rfl
  | cons c text ih =>
    rcases hfound : beginning? (c :: text) with _ | found
    · rw [gap_cons hfound]
      have hnone : beginning? (c :: (gap text).1) = none := by
        refine beginning?_eq_none_of_openers hfound fun early hearly ↦ ?_
        have hbegins : early.opener <+: c :: (gap text).1 :=
          ⟨early.rest, (beginning?_eq_some_iff.mp hearly).symm⟩
        have hwhole : c :: (gap text).1 <+: c :: text :=
          List.cons_prefix_cons.mpr ⟨rfl, gap_prefix text⟩
        exact hbegins.trans hwhole
      rw [gap_cons hnone, ih]
    · rw [gap, hfound]
      rfl

/-! ### Inside a token -/

/-- The first occurrence of a word does not depend on what stands behind it. -/
theorem breakOn?_withRest (hword : word ≠ []) (h : breakOn? word text = some (before, rest))
    (other : List Char) : breakOn? word (before ++ word ++ other) = some (before, other) := by
  induction text generalizing before with
  | nil =>
    rw [breakOn?, if_neg hword] at h
    cases h
  | cons c text ih =>
    rw [breakOn?] at h
    by_cases hbegins : word.isPrefixOf (c :: text) = true
    · rw [if_pos hbegins] at h
      cases h
      exact breakOn?_append_self word other hword
    · rw [if_neg hbegins] at h
      obtain ⟨found, hfound, heq⟩ := Option.map_eq_some_iff.mp h
      obtain ⟨rfl, rfl⟩ := Prod.mk.inj heq
      have hnot : ¬ word <+: c :: (found.1 ++ word ++ other) := by
        intro hearly
        have hlength : word.length ≤ (c :: (found.1 ++ word)).length := by
          rw [List.length_cons, List.length_append]
          omega
        have hshort : word <+: c :: (found.1 ++ word) :=
          List.prefix_of_prefix_length_le hearly ⟨other, rfl⟩ hlength
        apply hbegins
        rw [List.isPrefixOf_iff_prefix, eq_append_of_breakOn? hfound]
        exact hshort.trans ⟨found.2, rfl⟩
      rw [List.cons_append, List.cons_append, breakOn?_cons_of_not_prefix hnot, ih hfound]
      rfl

variable {quote : Quote} {body : List Char}

theorem quotedBody_stop (hstop : c = quote.char ∨ c = '\n') (text : List Char) :
    quotedBody quote (c :: text) = ([], c :: text) := by
  have hescape : c ≠ '\\' := by
    rintro rfl
    rcases hstop with h | h
    · exact Phase.char_ne_backslash quote h
    · exact absurd h (by decide)
  unfold quotedBody
  split
  next heq => cases heq
  next heq => exact absurd (List.cons.inj heq).1 hescape
  next heq => exact absurd (List.cons.inj heq).1 hescape
  next heq =>
    cases heq
    rw [if_pos hstop]

theorem quotedBody_pass (hpass : ¬ (c = quote.char ∨ c = '\n')) (hescape : c ≠ '\\')
    (text : List Char) :
    quotedBody quote (c :: text) =
      (c :: (quotedBody quote text).1, (quotedBody quote text).2) := by
  rw [quotedBody.eq_def]
  split
  next heq => cases heq
  next heq => exact absurd (List.cons.inj heq).1 hescape
  next heq => exact absurd (List.cons.inj heq).1 hescape
  next heq =>
    cases heq
    rw [if_neg hpass]

theorem quotedBody_escape (hline : c ≠ '\n') (text : List Char) :
    quotedBody quote ('\\' :: c :: text) =
      ('\\' :: c :: (quotedBody quote text).1, (quotedBody quote text).2) := by
  rw [quotedBody, if_neg hline]

/-- The text between quotes depends only on the character that stops it, not on what follows. -/
theorem quotedBody_withRest (h : quotedBody quote text = (body, c :: rest)) (other : List Char) :
    quotedBody quote (body ++ c :: other) = (body, c :: other) := by
  fun_induction quotedBody quote text generalizing body with
  | case1 => cases h
  | case2 => cases h
  | case3 text =>
    cases h
    rfl
  | case4 d text hline inner behind heq ih =>
    cases h
    rw [List.cons_append, List.cons_append, quotedBody_escape hline, ih heq]
  | case5 d text hlone hpair hstop =>
    cases h
    exact quotedBody_stop hstop other
  | case6 d text hlone hpair hpass inner behind heq ih =>
    cases h
    have hescape := ne_backslash_of_cases hlone hpair
    rw [List.cons_append, quotedBody_pass hpass hescape, ih heq]

/-! ### Inside a comment -/

theorem bracket?_behind_blanks {blanks inside : List Char} {count : Nat}
    (hblanks : ∀ c ∈ blanks, dialect.isCommentBlank c = true) :
    bracket? ((blanks ++ (openingBracket count ++ inside)).dropWhile dialect.isCommentBlank) =
      some (count, inside) := by
  have hbracket : ¬ dialect.isCommentBlank '[' = true := by
    simp [Dialect.isCommentBlank_bracket]
  rw [List.dropWhile_append_of_pos hblanks, openingBracket_append,
    List.dropWhile_cons_of_neg hbracket, ← openingBracket_append, bracket?_eq_some_iff.mpr rfl]

/-- A long bracket behind blank space makes the comment end where its closing one does. -/
theorem commentBody_blanks_bracket {blanks inside : List Char} {count : Nat}
    (hblanks : ∀ c ∈ blanks, dialect.isCommentBlank c = true) :
    commentBody mate dialect (blanks ++ (openingBracket count ++ inside)) =
      match breakOn? (closingBracket (mate count)) inside with
      | some (body, rest) =>
        (blanks ++ openingBracket count ++ body ++ closingBracket (mate count), rest)
      | none => (blanks ++ (openingBracket count ++ inside), []) := by
  have hnot : ¬ dialect.isCommentBlank '[' = true := by
    simp [Dialect.isCommentBlank_bracket]
  have hfront : (blanks ++ (openingBracket count ++ inside)).takeWhile dialect.isCommentBlank =
      blanks := by
    rw [List.takeWhile_append_of_pos hblanks, openingBracket_append,
      List.takeWhile_cons_of_neg hnot, List.append_nil]
  cases hbreak : breakOn? (closingBracket (mate count)) inside with
  | none => simp only [commentBody, bracket?_behind_blanks hblanks, hbreak]
  | some found =>
    obtain ⟨body, rest⟩ := found
    simp only [commentBody, bracket?_behind_blanks hblanks, hbreak, hfront]

theorem commentBody_of_no_bracket
    (h : bracket? (text.dropWhile dialect.isCommentBlank) = none) :
    commentBody mate dialect text = (text.takeWhile (· ≠ '\n'), text.dropWhile (· ≠ '\n')) := by
  unfold commentBody
  rw [h]

/-- A line is followed by a line feed, or by nothing. -/
theorem line_append (hother : ∀ c ∈ other.head?, c = '\n') (text : List Char) :
    (text.takeWhile (· ≠ '\n') ++ other).takeWhile (· ≠ '\n') = text.takeWhile (· ≠ '\n') ∧
      (text.takeWhile (· ≠ '\n') ++ other).dropWhile (· ≠ '\n') = other := by
  have hline : ∀ c ∈ text.takeWhile (· ≠ '\n'), decide (c ≠ '\n') = true :=
    List.all_eq_true.mp List.all_takeWhile
  rw [List.takeWhile_append_of_pos hline, List.dropWhile_append_of_pos hline]
  cases other with
  | nil => exact ⟨List.append_nil _, rfl⟩
  | cons c other =>
    obtain rfl : c = '\n' := hother c rfl
    exact ⟨List.append_nil _, rfl⟩

/-- Blank space and a bracket stand in one line. -/
theorem ne_line_of_mem_bracket {blanks : List Char} {count : Nat}
    (hblanks : ∀ c ∈ blanks, dialect.isCommentBlank c = true)
    (h : c ∈ blanks ++ openingBracket count) : c ≠ '\n' := by
  rintro rfl
  rcases List.mem_append.mp h with hmem | hmem
  · simpa [Dialect.isCommentBlank] using hblanks _ hmem
  · simp [openingBracket] at hmem

/-- A long bracket of a comment stands in its first line, so what follows that line is of no
account. -/
theorem no_bracket_line (h : bracket? (text.dropWhile dialect.isCommentBlank) = none)
    (hother : ∀ c ∈ other.head?, c = '\n') :
    bracket? ((text.takeWhile (· ≠ '\n') ++ other).dropWhile dialect.isCommentBlank) = none := by
  rw [Option.eq_none_iff_forall_ne_some]
  rintro ⟨count, inside⟩ hfound
  have hline := (line_append hother text).1
  have hwhole := List.takeWhile_append_dropWhile (p := dialect.isCommentBlank)
    (l := text.takeWhile (· ≠ '\n') ++ other)
  rw [bracket?_eq_some_iff.mp hfound, ← List.append_assoc] at hwhole
  generalize hblanks : (text.takeWhile (· ≠ '\n') ++ other).takeWhile dialect.isCommentBlank =
    blanks at hwhole
  have hblank : ∀ c ∈ blanks, dialect.isCommentBlank c = true := by
    rw [← hblanks]
    exact List.all_eq_true.mp List.all_takeWhile
  have hfront : ∀ c ∈ blanks ++ openingBracket count, decide (c ≠ '\n') = true :=
    fun c hc ↦ decide_eq_true (ne_line_of_mem_bracket hblank hc)
  rw [← hwhole, List.takeWhile_append_of_pos hfront] at hline
  have htext : text = blanks ++ (openingBracket count ++
      (inside.takeWhile (· ≠ '\n') ++ text.dropWhile (· ≠ '\n'))) := by
    rw [← List.append_assoc, ← List.append_assoc, hline, List.takeWhile_append_dropWhile]
  rw [htext, bracket?_behind_blanks hblank] at h
  cases h

/-- A comment does not depend on what follows it, as long as that begins with the same character or
is empty. -/
theorem commentBody_withRest (h : commentBody mate dialect text = (before, rest))
    (hother : other = [] ∨ other.head? = rest.head?) :
    commentBody mate dialect (before ++ other) = (before, other) := by
  cases hbracket : bracket? (text.dropWhile dialect.isCommentBlank) with
  | none =>
    rw [commentBody_of_no_bracket hbracket] at h
    obtain ⟨rfl, rfl⟩ := Prod.mk.inj h
    have hfeed : ∀ c ∈ other.head?, c = '\n' := by
      intro c hc
      rcases hother with rfl | hhead
      · cases hc
      · have hfront := List.head?_dropWhile_not (· ≠ '\n') text
        rw [← hhead, Option.mem_def.mp hc] at hfront
        simpa using hfront
    rw [commentBody_of_no_bracket (no_bracket_line hbracket hfeed)]
    exact Prod.ext (line_append hfeed text).1 (line_append hfeed text).2
  | some found =>
    obtain ⟨count, inside⟩ := found
    have htext := List.takeWhile_append_dropWhile (p := dialect.isCommentBlank) (l := text)
    have hblanks : ∀ c ∈ text.takeWhile dialect.isCommentBlank, dialect.isCommentBlank c = true :=
      List.all_eq_true.mp List.all_takeWhile
    rw [bracket?_eq_some_iff.mp hbracket] at htext
    generalize text.takeWhile dialect.isCommentBlank = blanks at htext hblanks
    subst htext
    rw [commentBody_blanks_bracket hblanks] at h
    cases hbreak : breakOn? (closingBracket (mate count)) inside with
    | none =>
      rw [hbreak] at h
      obtain ⟨rfl, rfl⟩ := Prod.mk.inj h
      obtain rfl : other = [] := hother.elim id List.head?_eq_none_iff.mp
      rw [List.append_nil, commentBody_blanks_bracket hblanks, hbreak]
    | some found =>
      obtain ⟨body, behind⟩ := found
      rw [hbreak] at h
      obtain ⟨rfl, rfl⟩ := Prod.mk.inj h
      have hclosed := breakOn?_withRest (closingBracket_ne_nil _) hbreak other
      have hwhole : blanks ++ openingBracket count ++ body ++ closingBracket (mate count) ++ other =
          blanks ++ (openingBracket count ++
            (body ++ closingBracket (mate count) ++ other)) := by
        simp only [List.append_assoc]
      rw [hwhole, commentBody_blanks_bracket hblanks, hclosed]

/-! ### Whole tokens -/

/-- The text that parts make up. -/
def charsOf (parts : List Part) : List Char := parts.flatMap Part.chars

theorem charsOf_append (first second : List Part) :
    charsOf (first ++ second) = charsOf first ++ charsOf second := List.flatMap_append

theorem charsOf_part (kind : Option Kind) (chars : List Char) :
    charsOf (part kind chars) = chars := by
  rw [part]
  split
  next hnil =>
    rw [hnil]
    rfl
  next => exact List.append_nil chars

theorem shortLiteral_of_closed (h : quotedBody quote text = (body, quote.char :: rest)) :
    shortLiteral quote text =
      (part (some .content) body ++ [⟨some .closing, [quote.char]⟩], .ok rest) := by
  simp [shortLiteral, h]

/-- A finished short literal does not depend on what follows it. -/
theorem shortLiteral_withRest (h : shortLiteral quote text = (parts, .ok rest)) :
    text = charsOf parts ++ rest ∧
      ∀ other, shortLiteral quote (charsOf parts ++ other) = (parts, .ok other) := by
  rcases hbody : quotedBody quote text with ⟨body, behind⟩
  by_cases hquote : behind.head? = some quote.char
  · obtain ⟨behind, rfl⟩ := List.head?_eq_some_iff.mp hquote
    rw [shortLiteral_of_closed hbody] at h
    cases h
    have happend := quotedBody_append quote text
    rw [hbody] at happend
    have hchars : charsOf (part (some .content) body ++ [⟨some .closing, [quote.char]⟩]) =
        body ++ [quote.char] := by
      rw [charsOf_append, charsOf_part]
      rfl
    rw [hchars]
    refine ⟨?_, fun other ↦ ?_⟩
    · rw [← happend, List.append_assoc]
      rfl
    · rw [List.append_assoc]
      exact shortLiteral_of_closed (quotedBody_withRest hbody other)
  · simp only [shortLiteral, hbody, if_neg hquote] at h
    cases h

/-- Of a literal that breaks off there is content, or nothing. -/
theorem shortLiteral_broken {cause : Cause} (h : shortLiteral quote text = (parts, .error cause)) :
    ∃ body, parts = part (some .content) body := by
  simp only [shortLiteral] at h
  split at h
  next => cases h
  next =>
    cases h
    exact ⟨_, rfl⟩

theorem longLiteral_of_closed {count : Nat}
    (h : breakOn? (closingBracket (mate count)) text = some (body, rest)) :
    longLiteral mate count text =
      (part (some .content) body ++ [⟨some .closing, closingBracket (mate count)⟩], .ok rest) := by
  rw [longLiteral, h]

/-- A finished long literal does not depend on what follows it. -/
theorem longLiteral_withRest {count : Nat} (h : longLiteral mate count text = (parts, .ok rest)) :
    text = charsOf parts ++ rest ∧
      ∀ other, longLiteral mate count (charsOf parts ++ other) = (parts, .ok other) := by
  cases hbreak : breakOn? (closingBracket (mate count)) text with
  | none =>
    rw [longLiteral, hbreak] at h
    cases h
  | some found =>
    obtain ⟨body, behind⟩ := found
    rw [longLiteral_of_closed hbreak] at h
    cases h
    have hchars : charsOf (part (some .content) body ++
        [⟨some .closing, closingBracket (mate count)⟩]) = body ++ closingBracket (mate count) := by
      rw [charsOf_append, charsOf_part]
      exact congrArg (body ++ ·) (List.append_nil _)
    rw [hchars]
    refine ⟨eq_append_of_breakOn? hbreak, fun other ↦ ?_⟩
    exact longLiteral_of_closed (breakOn?_withRest (closingBracket_ne_nil _) hbreak other)

theorem longLiteral_broken {count : Nat} {cause : Cause}
    (h : longLiteral mate count text = (parts, .error cause)) :
    ∃ body, parts = part (some .content) body := by
  rw [longLiteral] at h
  split at h
  next => cases h
  next =>
    cases h
    exact ⟨[], rfl⟩

/-- A token does not depend on what follows it, as long as that begins with the same character or
is empty. -/
theorem Beginning.parts_withRest (h : beginning.parts mate dialect = (parts, .ok rest)) :
    ∃ inside, charsOf parts = beginning.opener ++ inside ∧ beginning.rest = inside ++ rest ∧
      ∀ other, other = [] ∨ other.head? = rest.head? →
        (beginning.withRest (inside ++ other)).parts mate dialect = (parts, .ok other) := by
  rcases beginning with text | ⟨quote, text⟩ | ⟨count, text⟩
  · rcases hbody : commentBody mate dialect text with ⟨body, behind⟩
    have happend := commentBody_append mate dialect text
    rw [hbody] at happend
    simp only [Beginning.parts, hbody] at h
    cases h
    refine ⟨body, List.append_nil _, happend.symm, fun other hother ↦ ?_⟩
    simp only [Beginning.withRest, Beginning.parts, commentBody_withRest hbody hother]
  · rcases hliteral : shortLiteral quote text with ⟨inner, outcome⟩
    simp only [Beginning.parts, hliteral] at h
    cases h
    obtain ⟨htext, hother⟩ := shortLiteral_withRest hliteral
    refine ⟨charsOf inner, rfl, htext, fun other _ ↦ ?_⟩
    simp only [Beginning.withRest, Beginning.parts, hother]
  · rcases hliteral : longLiteral mate count text with ⟨inner, outcome⟩
    simp only [Beginning.parts, hliteral] at h
    cases h
    obtain ⟨htext, hother⟩ := longLiteral_withRest hliteral
    refine ⟨charsOf inner, rfl, htext, fun other _ ↦ ?_⟩
    simp only [Beginning.withRest, Beginning.parts, hother]

end Grammar

end LuaLiterals
