import LuaLiterals.Proofs.Openings
import LuaLiterals.Proofs.Quotes
import LuaLiterals.Reader

/-!
What a scan finds, told by the texts ahead of it. `Recognizer.Yields` says how the characters
ahead fall into the space that is skipped, the token, and the rest. A scan that may begin a token
yields the one that `Grammar.beginning?` finds behind the space (`yields_beginning`); inside a
literal it yields the text up to the closing delimiter or, directly in front of that, the
delimiter itself. In all other cases it finds nothing.
-/

set_option autoImplicit false
set_option relaxedAutoImplicit false

namespace LuaLiterals

namespace Grammar

theorem Beginning.token_append (dialect : Dialect) (beginning : Beginning) :
    (beginning.token dialect).1 ++ (beginning.token dialect).2 =
      beginning.opener ++ beginning.rest := by
  rcases beginning with rest | ⟨quote, rest⟩ | ⟨count, rest⟩
  · exact congrArg ('-' :: '-' :: ·) (commentBody_append capped dialect rest)
  · rfl
  · rfl

end Grammar

namespace Recognizer

open Grammar Phase

variable {recognizer : Recognizer} {offer : Offer} {ahead : List Char}

/-- A scan skips `gap`, finds the token with this text, and leaves `rest` behind it. -/
structure Yields (recognizer : Recognizer) (offer : Offer) (ahead gap : List Char) (found : Found)
    (text rest : List Char) : Prop where
  whole : ahead = gap ++ text ++ rest
  delimits : Delimits ((recognizer.scan offer ahead).found, (recognizer.scan offer ahead).extent)
    found gap.length text.length

/-! ### Where no literal is open -/

theorem yields_beginning {beginning : Beginning} (hentry : recognizer.entry offer = .gap)
    (h : beginning? (ahead.dropWhile recognizer.dialect.isSpace) = some beginning)
    (haccepts : offer.accepts beginning.found.kind = true) :
    recognizer.Yields offer ahead (ahead.takeWhile recognizer.dialect.isSpace) beginning.found
      (beginning.token recognizer.dialect).1 (beginning.token recognizer.dialect).2 := by
  refine ⟨?_, ?_⟩
  · rw [List.append_assoc, Beginning.token_append, ← beginning?_eq_some_iff.mp h,
      List.takeWhile_append_dropWhile]
  · have hskipped := finish_gap_space ⟨recognizer.dialect, offer⟩ 0 ahead
    rw [Nat.zero_add] at hskipped
    rw [scan_eq_finish, hentry, show Extent.initial = .skipped 0 from rfl, hskipped]
    exact delimits_gap _ h haccepts

theorem declines_gap (hentry : recognizer.entry offer = .gap)
    (h : ∀ beginning, beginning? (ahead.dropWhile recognizer.dialect.isSpace) = some beginning →
      offer.accepts beginning.found.kind = false) :
    (recognizer.scan offer ahead).found = none := by
  have hskipped := finish_gap_space ⟨recognizer.dialect, offer⟩ 0 ahead
  have hspace := recognizer.dialect.isSpace_head_dropWhile ahead
  have hscan := congrArg Prod.fst (scan_eq_finish recognizer offer ahead)
  rw [hentry, show Extent.initial = .skipped 0 from rfl, hskipped] at hscan
  exact hscan.trans (finish_gap_declined hspace h)

/-! ### Inside a short literal -/

variable {quote : Quote}

theorem yields_short_content (hentry : recognizer.entry offer = .quoted quote false)
    (hcontent : offer.content = true) (hne : (quotedBody quote ahead).1 ≠ []) :
    recognizer.Yields offer ahead [] .content (quotedBody quote ahead).1
      (quotedBody quote ahead).2 := by
  have hbody : (quotedBody quote ahead).1.isEmpty = false := by
    simpa using hne
  refine ⟨(quotedBody_append quote ahead).symm, ?_⟩
  rw [scan_eq_finish, hentry, finish_quoted, hbody]
  simp only [Bool.not_false, Bool.or_true]
  rw [finish_quoted_content hcontent (head_quotedBody quote ahead)]
  exact ⟨rfl, rfl, rfl⟩

theorem yields_short_closing {rest : List Char}
    (hentry : recognizer.entry offer = .quoted quote false) (hclosing : offer.closing = true) :
    recognizer.Yields offer (quote.char :: rest) [] .closing [quote.char] rest := by
  refine ⟨rfl, ?_⟩
  rw [scan_eq_finish, hentry, finish_quoted_quote, if_neg Bool.false_ne_true, if_pos hclosing]
  exact ⟨rfl, rfl, rfl⟩

theorem declines_short (hentry : recognizer.entry offer = .quoted quote false)
    (hline : ∀ c ∈ ahead.head?, c = '\n') : (recognizer.scan offer ahead).found = none := by
  have hscan := congrArg Prod.fst (scan_eq_finish recognizer offer ahead)
  rw [hentry, finish_quoted_broken hline] at hscan
  exact hscan

/-! ### Inside a long literal -/

variable {level : Level} {rest : List Char}

theorem yields_long_content {body : List Char}
    (hentry : recognizer.entry offer = .body .string level false) (hcontent : offer.content = true)
    (hbreak : breakOn? (closingBracket level.toNat) ahead = some (body, rest)) (hne : body ≠ []) :
    recognizer.Yields offer ahead [] .content body (closingBracket level.toNat ++ rest) := by
  have hcloses := closes_body ⟨recognizer.dialect, offer⟩ .string level false ahead .initial
  have hbody : body.isEmpty = false := by
    simpa using hne
  unfold Closes at hcloses
  rw [hbreak] at hcloses
  simp only [hbody, closedEnding, contentEnding, hcontent, Bool.not_false, Bool.or_true,
    if_true] at hcloses
  refine ⟨?_, ?_⟩
  · rw [eq_append_of_breakOn? hbreak, List.nil_append, List.append_assoc]
  · rw [scan_eq_finish, hentry, hcloses]
    exact ⟨rfl, rfl, rfl⟩

theorem yields_long_closing (hentry : recognizer.entry offer = .body .string level false)
    (hclosing : offer.closing = true) :
    recognizer.Yields offer (closingBracket level.toNat ++ rest) [] .closing
      (closingBracket level.toNat) rest := by
  have hcloses := closes_body ⟨recognizer.dialect, offer⟩ .string level false
    (closingBracket level.toNat ++ rest) .initial
  unfold Closes at hcloses
  rw [breakOn?_append_self _ _ (closingBracket_ne_nil _)] at hcloses
  simp only [List.isEmpty_nil, closedEnding, hclosing, Bool.not_true, Bool.or_false,
    if_true] at hcloses
  refine ⟨rfl, ?_⟩
  rw [scan_eq_finish, hentry, hcloses]
  refine ⟨rfl, rfl, ?_⟩
  rw [length_closingBracket, List.length_nil, Nat.zero_add, Nat.zero_add]
  exact Nat.zero_add _

/-- Without a closing bracket a scan reads everything, and finds nothing. -/
theorem exhausts_long (hentry : recognizer.entry offer = .body .string level false)
    (hbreak : breakOn? (closingBracket level.toNat) ahead = none) :
    (recognizer.scan offer ahead).found = none ∧
      (recognizer.scan offer ahead).extent.read = ahead.length := by
  have hcloses := closes_body ⟨recognizer.dialect, offer⟩ .string level false ahead .initial
  unfold Closes at hcloses
  rw [hbreak] at hcloses
  obtain ⟨mark, houtcome⟩ := hcloses
  have hscan := scan_eq_finish recognizer offer ahead
  rw [hentry, houtcome] at hscan
  obtain ⟨hfound, hextent⟩ := Prod.mk.inj hscan
  exact ⟨hfound, (congrArg Extent.read hextent).trans (Nat.zero_add _)⟩

end Recognizer

namespace Reader

open Recognizer

/-! ### The reader behind a token -/

/-- What a reader finds and where it goes, if the scan yields a token. -/
theorem scan_of_yields {reader : Reader} {recognizer : Recognizer} {offer : Offer}
    {gap text rest : List Char} {found : Found}
    (h : recognizer.Yields offer reader.ahead gap found text rest) :
    reader.scan recognizer offer =
      { token := some
          { kind := found.kind
            start := reader.position.after gap
            stop := (reader.position.after gap).after text
            text := text }
        reader := ⟨reader.position.after (gap ++ text), rest⟩
        recognizer := { recognizer with opened := found.openedAfter recognizer.opened } } := by
  have hfound : (recognizer.scan offer reader.ahead).found = some found := h.delimits.found
  have hstart : (recognizer.scan offer reader.ahead).extent.start = gap.length := h.delimits.start
  have hstop : (recognizer.scan offer reader.ahead).extent.stop = (gap ++ text).length := by
    rw [List.length_append]
    exact h.delimits.stop
  have hgap : reader.ahead.take gap.length = gap := by
    rw [h.whole, List.append_assoc, List.take_left]
  have htext : reader.ahead.take (gap ++ text).length = gap ++ text := by
    rw [h.whole, List.take_left]
  have hrest : reader.ahead.drop (gap ++ text).length = rest := by
    rw [h.whole, List.drop_left]
  simp only [scan, token, advance, hfound, hstart, hstop, hgap, htext, hrest, List.drop_left,
    Option.map_some, Option.isSome_some, if_true, after]

/-- What a scan leaves behind that skips so many characters and finds a token of `count` more. -/
def pastToken (reader : Reader) (recognizer : Recognizer) (skipped : Nat) (found : Found)
    (count : Nat) : Outcome :=
  let place := reader.advance skipped
  { token := some
      ⟨found.kind, place.position, (place.advance count).position, place.ahead.take count⟩
    reader := place.advance count
    recognizer := { recognizer with opened := found.openedAfter recognizer.opened } }

/-- The same, told by the places that the token ends at. -/
theorem pastToken_of_yields {reader : Reader} {recognizer : Recognizer} {offer : Offer}
    {gap text rest : List Char} {found : Found}
    (h : recognizer.Yields offer reader.ahead gap found text rest) :
    reader.scan recognizer offer = reader.pastToken recognizer gap.length found text.length := by
  have hgap : reader.ahead.take gap.length = gap := by
    rw [h.whole, List.append_assoc, List.take_left]
  have hbehind : reader.ahead.drop gap.length = text ++ rest := by
    rw [h.whole, List.append_assoc, List.drop_left]
  simp only [scan_of_yields h, pastToken, advance, hgap, hbehind, List.take_left, List.drop_left,
    Position.after_append]

end Reader

end LuaLiterals
