import LuaLiterals.Proofs.Runs
import LuaLiterals.Reader

/-!
Places told by the text in front of them. `Position.endOf` counts them out: the bytes and the
characters of that text, its line feeds, and the characters behind the last of these. The place
that is reached character by character is that place (`after_endOf`), and taking its bytes off
the front of a source leaves what lies behind it (`dropBytes_endOf`).

A reader that comes to a token passes over some text first. `Reader.Passes` says how that text,
the token and what lies behind it share the characters ahead; it holds of every token that a scan
finds (`passes_of_scan`), and text that was passed over before can be put in front of it
(`Passes.behind`).
-/

set_option autoImplicit false
set_option relaxedAutoImplicit false

namespace LuaLiterals

namespace Position

/-! ### Counting a place out -/

/-- The place at the end of a text that begins at the start of a source. -/
def endOf (text : List Char) : Position where
  byte := (text.flatMap String.utf8EncodeChar).length
  char := text.length
  line := text.count '\n' + 1
  column := (text.reverse.takeWhile (· ≠ '\n')).length + 1

theorem next_endOf (text : List Char) (c : Char) : (endOf text).next c = endOf (text ++ [c]) := by
  by_cases hline : c = '\n'
  · subst hline
    simp [endOf, next]
  · simp [endOf, next, hline]

/-- Stepping over a text leads to the place counted out at its end. -/
theorem after_endOf (before text : List Char) :
    (endOf before).after text = endOf (before ++ text) := by
  induction text generalizing before with
  | nil => rw [after_nil, List.append_nil]
  | cons c text ih => rw [after_cons, next_endOf, ih, List.append_assoc, List.singleton_append]

end Position

theorem dropBytes_zero (text : List Char) : dropBytes 0 text = text := by
  cases text with
  | nil => rfl
  | cons c text =>
    have hsize : 0 < c.utf8Size := c.utf8Size_pos
    rw [dropBytes, if_neg (by omega)]

/-- The bytes in front of a place, taken off the source, leave what lies behind the place. -/
theorem dropBytes_endOf (before text : List Char) :
    dropBytes (Position.endOf before).byte (before ++ text) = text := by
  induction before with
  | nil => exact dropBytes_zero text
  | cons c before ih =>
    simp only [Position.endOf, List.flatMap_cons, List.length_append, String.length_utf8EncodeChar,
      List.cons_append] at ih ⊢
    rw [dropBytes, if_pos (Nat.le_add_right _ _), Nat.add_sub_cancel_left]
    exact ih

namespace Reader

/-! ### Coming to a token -/

/-- The reader passes over `gap` and comes to the token, and goes on behind it as `rest`. -/
structure Passes (reader : Reader) (gap : List Char) (token : Token) (rest : Reader) : Prop where
  ahead : reader.ahead = gap ++ token.text ++ rest.ahead
  start : token.start = reader.position.after gap
  stop : token.stop = token.start.after token.text
  position : rest.position = token.stop
  text_ne_nil : token.text ≠ []

/-- A reader passes over the space that a run skips, to the token that it delimits. -/
theorem passes_of_scan {reader : Reader} {recognizer : Recognizer} {offer : Offer}
    {token : Token} (h : (reader.scan recognizer offer).token = some token) :
    reader.Passes (reader.ahead.take (recognizer.scan offer reader.ahead).extent.start) token
      (reader.scan recognizer offer).reader := by
  simp only [scan] at h ⊢
  obtain ⟨found, hfound, rfl⟩ := Option.map_eq_some_iff.mp h
  have hsome : (recognizer.scan offer reader.ahead).found.isSome = true := by rw [hfound]; rfl
  have hlt := Recognizer.start_lt_stop_scan hsome
  have hle := recognizer.stop_scan_le offer reader.ahead
  simp only [hsome, if_true]
  generalize (recognizer.scan offer reader.ahead).extent = extent at hlt hle
  have htake : reader.ahead.take extent.start ++
      (reader.ahead.take extent.stop).drop extent.start = reader.ahead.take extent.stop := by
    have hmin : (reader.ahead.take extent.stop).take extent.start =
        reader.ahead.take extent.start := by
      rw [List.take_take, Nat.min_eq_left (Nat.le_of_lt hlt)]
    rw [← hmin, List.take_append_drop]
  refine ⟨?_, rfl, rfl, ?_, ?_⟩
  · simp only [Reader.token, advance]
    rw [htake, List.take_append_drop]
  · simp only [Reader.token, advance]
    rw [← Position.after_append, htake]
  · simp only [Reader.token]
    intro hnil
    have hlength := congrArg List.length hnil
    simp only [List.length_drop, List.length_take, List.length_nil] at hlength
    omega

/-- Where nothing may begin there is nothing to pass over. -/
theorem passes_nil_of_scan {reader : Reader} {recognizer : Recognizer} {offer : Offer}
    {token : Token} (hopens : offer.opens = false)
    (h : (reader.scan recognizer offer).token = some token) :
    reader.Passes [] token (reader.scan recognizer offer).reader := by
  have hpasses := passes_of_scan h
  rwa [Recognizer.start_scan_of_not_opens hopens, List.take_zero] at hpasses

theorem reader_scan_of_none {reader : Reader} {recognizer : Recognizer} {offer : Offer}
    (h : (reader.scan recognizer offer).token = none) :
    (reader.scan recognizer offer).reader = reader :=
  congrArg Outcome.reader (scan_of_found_none (Option.map_eq_none_iff.mp h))

theorem char_advance {reader : Reader} {count : Nat} (h : count ≤ reader.ahead.length) :
    (reader.advance count).position.char = reader.position.char + count := by
  simp only [advance, Position.char_after, List.length_take, Nat.min_eq_left h]

/-- The ends of a token that an extent delimits, in characters. -/
theorem char_token {reader : Reader} {extent : Extent} (kind : Kind)
    (hstart : extent.start ≤ extent.stop) (hstop : extent.stop ≤ reader.ahead.length) :
    (reader.token kind extent).start.char = reader.position.char + extent.start ∧
      (reader.token kind extent).stop.char = reader.position.char + extent.stop := by
  simp only [Reader.token, Position.char_after, List.length_take, List.length_drop]
  omega

/-- A character stepped over in front of the text that is passed belongs to it. -/
theorem Passes.behind {position : Position} {c : Char} {ahead gap : List Char} {token : Token}
    {rest : Reader} (h : (Reader.mk (position.next c) ahead).Passes gap token rest) :
    (Reader.mk position (c :: ahead)).Passes (c :: gap) token rest where
  ahead := congrArg (c :: ·) h.ahead
  start := h.start
  stop := h.stop
  position := h.position
  text_ne_nil := h.text_ne_nil

end Reader

end LuaLiterals
