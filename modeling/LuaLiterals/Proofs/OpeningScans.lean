import LuaLiterals.Proofs.LongBodies

/-!
Scans that go on with no literal. `Grammar.Begins` says which token begins at the front of a text,
and how many characters belong to it: a quote, an opening long bracket, or two dashes with the
comment behind them, whose end `Grammar.Reaches` tells by its brackets or by its line. A comment
always has an end (`exists_reaches`), and no two tokens begin at one place
(`Begins.exists_beginning`).
The main statement `opening_scan_iff` says that a scan skips the space ahead and finds what begins
there, if that is offered, and nothing in any other case.
-/

set_option autoImplicit false
set_option relaxedAutoImplicit false

namespace LuaLiterals

namespace Grammar

/-- So many characters of the text behind its dashes belong to a comment. -/
inductive Reaches (dialect : Dialect) (text : List Char) : Nat → Prop
  /-- The comment has a long bracket, and ends with the first one that closes it. -/
  | closed {count index : Nat} {inside : List Char}
      (hopener : text.dropWhile dialect.isCommentBlank = openingBracket count ++ inside)
      (hcloser : FirstOccurrence (closingBracket (capped count)) inside index) :
      Reaches dialect text ((text.takeWhile dialect.isCommentBlank).length +
        (openingBracket count).length + index + (closingBracket (capped count)).length)
  /-- It has a long bracket that nothing closes. -/
  | unclosed {count : Nat} {inside : List Char}
      (hopener : text.dropWhile dialect.isCommentBlank = openingBracket count ++ inside)
      (hcloser : ¬ closingBracket (capped count) <:+: inside) : Reaches dialect text text.length
  /-- It has none, and ends where its line does. -/
  | line (hopener : ∀ count, ¬ openingBracket count <+: text.dropWhile dialect.isCommentBlank) :
      Reaches dialect text (text.takeWhile (· ≠ '\n')).length

/-- At the front of a text this token begins, and so many characters belong to it. -/
inductive Begins (dialect : Dialect) : List Char → Found → Nat → Prop
  | short (quote : Quote) (rest : List Char) :
      Begins dialect (quote.char :: rest) (.opening (.short quote)) 1
  | long (count : Nat) (rest : List Char) :
      Begins dialect (openingBracket count ++ rest) (.opening (.long (.ofCount count)))
        (openingBracket count).length
  | comment {rest : List Char} {count : Nat} (hreaches : Reaches dialect rest count) :
      Begins dialect ('-' :: '-' :: rest) .comment (count + 2)

variable {dialect : Dialect} {text : List Char} {found : Found} {count : Nat}

/-! ### How far a comment reaches -/

theorem exists_reaches (dialect : Dialect) (text : List Char) :
    ∃ count, Reaches dialect text count := by
  by_cases hopens : ∃ count, openingBracket count <+: text.dropWhile dialect.isCommentBlank
  · obtain ⟨count, inside, hopener⟩ := hopens
    by_cases hcloses : closingBracket (capped count) <:+: inside
    · obtain ⟨index, hcloser⟩ := exists_firstOccurrence hcloses
      exact ⟨_, .closed hopener.symm hcloser⟩
    · exact ⟨_, .unclosed hopener.symm hcloses⟩
  · exact ⟨_, .line (not_exists.mp hopens)⟩

theorem Reaches.length_commentBody (h : Reaches dialect text count) :
    (commentBody capped dialect text).1.length = count := by
  cases h with
  | @closed signs index inside hopener hcloser =>
    have hindex : index ≤ inside.length := by
      have hlength := hcloser.1.length_le
      rw [length_closingBracket, List.length_drop] at hlength
      omega
    simp only [commentBody, bracket?_eq_some_iff.mpr hopener, breakOn?_of_firstOccurrence hcloser,
      List.length_append, List.length_take, Nat.min_eq_left hindex]
  | unclosed hopener hcloser =>
    simp only [commentBody, bracket?_eq_some_iff.mpr hopener, breakOn?_eq_none hcloser]
  | line hopener =>
    have hnone : bracket? (text.dropWhile dialect.isCommentBlank) = none := by
      rw [Option.eq_none_iff_forall_ne_some]
      rintro ⟨signs, rest⟩ hbracket
      exact hopener signs ⟨rest, (bracket?_eq_some_iff.mp hbracket).symm⟩
    simp only [commentBody, hnone]

/-! ### What begins -/

theorem begins_of_beginning? {beginning : Beginning} (h : beginning? text = some beginning) :
    Begins dialect text beginning.found (beginning.token dialect).1.length := by
  rw [beginning?_eq_some_iff.mp h]
  rcases beginning with rest | ⟨quote, rest⟩ | ⟨count, rest⟩
  · obtain ⟨reached, hreaches⟩ := exists_reaches dialect rest
    rw [← hreaches.length_commentBody] at hreaches
    exact .comment hreaches
  · exact .short quote rest
  · exact .long count rest

/-- What begins is the one beginning that stands there. -/
theorem Begins.exists_beginning (h : Begins dialect text found count) :
    ∃ beginning, beginning? text = some beginning ∧ beginning.found = found ∧
      (beginning.token dialect).1.length = count := by
  cases h with
  | short quote rest => exact ⟨.short quote rest, beginning?_eq_some_iff.mpr rfl, rfl, rfl⟩
  | long signs rest => exact ⟨.long signs rest, beginning?_eq_some_iff.mpr rfl, rfl, rfl⟩
  | @comment rest reached hreaches =>
    exact ⟨.comment rest, rfl, rfl, congrArg (· + 2) hreaches.length_commentBody⟩

theorem begins_opening_iff :
    (∃ found count, Begins dialect text found count ∧ found.kind = .opening) ↔
      (∃ quote : Quote, [quote.char] <+: text) ∨ ∃ count, openingBracket count <+: text := by
  constructor
  · rintro ⟨found, count, hbegins, hkind⟩
    cases hbegins with
    | short quote rest => exact Or.inl ⟨quote, rest, rfl⟩
    | long signs rest => exact Or.inr ⟨signs, rest, rfl⟩
    | comment _ => cases hkind
  · rintro (⟨quote, rest, rfl⟩ | ⟨signs, rest, rfl⟩)
    · exact ⟨_, _, .short quote rest, rfl⟩
    · exact ⟨_, _, .long signs rest, rfl⟩

theorem begins_comment_iff :
    (∃ found count, Begins dialect text found count ∧ found.kind = .comment) ↔
      ['-', '-'] <+: text := by
  constructor
  · rintro ⟨found, count, hbegins, hkind⟩
    cases hbegins with
    | short quote rest => cases hkind
    | long signs rest => cases hkind
    | @comment rest reached hreaches => exact ⟨rest, rfl⟩
  · rintro ⟨rest, rfl⟩
    obtain ⟨reached, hreaches⟩ := exists_reaches dialect rest
    exact ⟨_, _, .comment hreaches, rfl⟩

end Grammar

namespace Reader

open Grammar Recognizer

variable {reader : Reader} {recognizer : Recognizer} {offer : Offer}

section

variable {found : Found} {count : Nat}

/-- Nothing that begins where it stands is missed if it is offered. -/
theorem scan_of_begins (hresumed : recognizer.resumed offer = none)
    (hbegins : Begins recognizer.dialect (reader.ahead.dropWhile recognizer.dialect.isSpace)
      found count) (haccepts : offer.accepts found.kind = true) :
    reader.scan recognizer offer = reader.pastToken recognizer
      (reader.ahead.takeWhile recognizer.dialect.isSpace).length found count := by
  obtain ⟨beginning, hbeginning, rfl, rfl⟩ := hbegins.exists_beginning
  have hreports : recognizer.Reports offer reader.ahead
      (offered offer (recognizer.dialect.sight? reader.ahead)) := reports_opening hresumed
  rw [Dialect.sight?, hbeginning, Option.map_some, offered_of_accepts haccepts] at hreports
  exact pastToken_of_yields hreports

theorem scan_of_not_begins (hresumed : recognizer.resumed offer = none)
    (h : ∀ found count, Begins recognizer.dialect
      (reader.ahead.dropWhile recognizer.dialect.isSpace) found count →
        offer.accepts found.kind = false) :
    reader.scan recognizer offer = ⟨none, reader, recognizer⟩ :=
  scan_of_found_none (declines_opening hresumed fun _ hbeginning ↦
    h _ _ (begins_of_beginning? hbeginning))

end

theorem scan_eq_iff (hresumed : recognizer.resumed offer = none) (outcome : Outcome) :
    reader.scan recognizer offer = outcome ↔
      (∃ found count, Begins recognizer.dialect
          (reader.ahead.dropWhile recognizer.dialect.isSpace) found count ∧
        offer.accepts found.kind = true ∧
        outcome = reader.pastToken recognizer
          (reader.ahead.takeWhile recognizer.dialect.isSpace).length found count) ∨
      (∀ found count, Begins recognizer.dialect
          (reader.ahead.dropWhile recognizer.dialect.isSpace) found count →
        offer.accepts found.kind = false) ∧
        outcome = ⟨none, reader, recognizer⟩ := by
  constructor
  · rintro rfl
    by_cases hoffered : ∃ found count, Begins recognizer.dialect
        (reader.ahead.dropWhile recognizer.dialect.isSpace) found count ∧
          offer.accepts found.kind = true
    · obtain ⟨found, count, hbegins, haccepts⟩ := hoffered
      exact Or.inl ⟨found, count, hbegins, haccepts, scan_of_begins hresumed hbegins haccepts⟩
    · have hnone : ∀ found count, Begins recognizer.dialect
          (reader.ahead.dropWhile recognizer.dialect.isSpace) found count →
            offer.accepts found.kind = false := by
        intro found count hbegins
        exact Bool.eq_false_iff.mpr fun haccepts ↦ hoffered ⟨found, count, hbegins, haccepts⟩
      exact Or.inr ⟨hnone, scan_of_not_begins hresumed hnone⟩
  · rintro (⟨found, count, hbegins, haccepts, rfl⟩ | ⟨hnone, rfl⟩)
    · exact scan_of_begins hresumed hbegins haccepts
    · exact scan_of_not_begins hresumed hnone

/-- A scan reports a kind exactly if a token of that kind is offered and begins behind the space. -/
theorem kind_scan_eq_iff (hresumed : recognizer.resumed offer = none) (kind : Kind) :
    (reader.scan recognizer offer).token.map Token.kind = some kind ↔
      offer.accepts kind = true ∧ ∃ found count, Begins recognizer.dialect
        (reader.ahead.dropWhile recognizer.dialect.isSpace) found count ∧ found.kind = kind := by
  constructor
  · intro hkind
    obtain ⟨found, count, hbegins, haccepts, houtcome⟩ | ⟨-, houtcome⟩ :=
      (scan_eq_iff hresumed _).mp rfl
    · rw [houtcome] at hkind
      obtain rfl : found.kind = kind := Option.some.inj hkind
      exact ⟨haccepts, found, count, hbegins, rfl⟩
    · rw [houtcome] at hkind
      cases hkind
  · rintro ⟨haccepts, found, count, hbegins, rfl⟩
    rw [scan_of_begins hresumed hbegins haccepts]
    rfl

/-- Where no literal is gone on with, a scan skips the space ahead. It finds an opening delimiter or
a comment exactly if such a token begins behind the space and is offered, and in the extent that its
text gives it; in all other cases it finds nothing and changes nothing. -/
theorem opening_scan_iff
    (hmode : recognizer.opened = none ∨ offer.continues = false ∨ offer.isRecovery = true) :
    let gap := reader.ahead.takeWhile recognizer.dialect.isSpace
    let text := reader.ahead.dropWhile recognizer.dialect.isSpace
    ((reader.scan recognizer offer).token.map Token.kind = some .opening ↔
      offer.opening = true ∧
        ((∃ quote : Quote, [quote.char] <+: text) ∨ ∃ count, openingBracket count <+: text)) ∧
    ((reader.scan recognizer offer).token.map Token.kind = some .comment ↔
      offer.comment = true ∧ ['-', '-'] <+: text) ∧
    ∀ outcome, reader.scan recognizer offer = outcome ↔
      (∃ found count, Begins recognizer.dialect text found count ∧
        offer.accepts found.kind = true ∧
        outcome = reader.pastToken recognizer gap.length found count) ∨
      (∀ found count, Begins recognizer.dialect text found count →
        offer.accepts found.kind = false) ∧
        outcome = ⟨none, reader, recognizer⟩ := by
  have hresumed := resumed_eq_none_iff.mpr hmode
  refine ⟨?_, ?_, scan_eq_iff hresumed⟩
  · rw [kind_scan_eq_iff hresumed, begins_opening_iff]
    rfl
  · rw [kind_scan_eq_iff hresumed, begins_comment_iff]
    rfl

/-- A host that recovers finds a comment over the literal that it left open. Space stands in front
of its dashes and of its bracket, and two brackets in front of the one that closes it. -/
theorem opening_scan_of_spaced_comment :
    let reader := Reader.ofSource ['\u00a0', '\n', '-', '-', ' ', '\t', '[', '=', '[', ']', ']',
      ']', '=', ']', '\n']
    let recognizer : Recognizer := ⟨⟨true, true⟩, some (.short .single)⟩
    let offer : Offer := ⟨true, true, true, true⟩
    Begins recognizer.dialect (reader.ahead.drop 2) .comment 12 ∧
      reader.scan recognizer offer = reader.pastToken recognizer 2 .comment 12 := by
  intro reader recognizer offer
  have hcloser : FirstOccurrence (closingBracket (capped 1)) (reader.ahead.drop 9) 2 := by decide
  have hreaches : Reaches recognizer.dialect (reader.ahead.drop 4) 10 := .closed rfl hcloser
  have hbegins : Begins recognizer.dialect (reader.ahead.drop 2) .comment 12 := .comment hreaches
  refine ⟨hbegins, ((opening_scan_iff (Or.inr (Or.inr rfl))).2.2 _).mpr ?_⟩
  exact Or.inl ⟨.comment, 12, hbegins, rfl, rfl⟩

end Reader

end LuaLiterals
