import LuaLiterals.Json.Value
import Mathlib.Data.List.Chain

/-!
The texts of JSON pieces. `Json.Spells` says which texts spell a sequence of pieces: those that have
the spelling of each piece in its turn, with any blank space before, between and behind them. Two
words or numbers next to each other would run together, but what can be read as a value never has
them so (`Json.keepsApart_of_ofPieces?`). A text of the pieces of a value is therefore read as these
pieces (`Json.Spells.pieces_eq`) and as that value (`Json.Spells.ofChars?_eq`), however it is
spaced.
-/

set_option autoImplicit false
set_option relaxedAutoImplicit false

namespace LuaLiterals

namespace Json

/-- The piece is a word or a number, which more letters or digits could be part of. -/
def Piece.runsOn : Piece → Bool
  | null | bool _ | number _ => true
  | _ => false

/-- What is no part of a word or a number that stands in front of it. -/
def EndsRun (text : List Char) : Prop :=
  ∀ c ∈ text.head?, c.isAlpha = false ∧ isNumberChar c = false

variable {pieces : List Piece} {text gap spelling tail digits : List Char} {c : Char}

/-! ### Reading on -/

namespace Mode

variable {mode next : Mode} {rest : List Char}

theorem read_cons_of_step (h : mode.step c = some ([], next)) :
    mode.read (c :: rest) = next.read rest := by
  simp [read, h]

/-- In front of a character that does not belong to it, what was begun is complete. -/
theorem read_of_turn (h : ∀ c ∈ text.head?, mode.step c = mode.turn c) :
    mode.read text = mode.close.bind fun done ↦ (between.read text).map (done ++ ·) := by
  cases text with
  | nil =>
    show mode.close = mode.close.bind fun done ↦ some (done ++ [])
    cases mode.close <;> simp
  | cons c rest =>
    have hfirst : between.step c = first c := rfl
    rw [read, h c rfl, read, hfirst, turn]
    cases mode.close <;> cases first c <;> simp [Function.comp_def]

/-- What is begun goes on with the characters that belong to it, and any other closes it. -/
structure Gathers (begun : List Char → Mode) (belongs : Char → Bool) : Prop where
  goes : ∀ kept c, belongs c = true → (begun kept).step c = some ([], begun (c :: kept))
  turns : ∀ kept c, belongs c = false → (begun kept).step c = (begun kept).turn c

theorem gathers_word : Gathers word Char.isAlpha where
  goes _ _ hc := if_pos hc
  turns _ _ hc := if_neg (Bool.eq_false_iff.mp hc)

theorem gathers_number : Gathers number isNumberChar where
  goes _ _ hc := if_pos hc
  turns _ _ hc := if_neg (Bool.eq_false_iff.mp hc)

section Gathers

variable {begun : List Char → Mode} {belongs : Char → Bool} {more : List Char} {piece : Piece}
  (hgathers : Gathers begun belongs) (hmore : ∀ c ∈ more, belongs c = true)

include hgathers hmore

theorem Gathers.read_more (kept : List Char) :
    (begun kept).read (more ++ text) = (begun (more.reverse ++ kept)).read text := by
  induction more generalizing kept with
  | nil => rfl
  | cons c more ih =>
    obtain ⟨hc, hmore⟩ := List.forall_mem_cons.mp hmore
    rw [List.cons_append, read_cons_of_step (hgathers.goes kept c hc), ih hmore,
      List.reverse_cons, List.append_assoc, List.singleton_append]

/-- A piece is read as it is spelled, in front of what does not belong to it. -/
theorem Gathers.read_piece (hfirst : first c = some ([], begun [c]))
    (hends : ∀ d ∈ text.head?, belongs d = false)
    (hclose : (begun (more.reverse ++ [c])).close = some [piece]) :
    between.read (c :: more ++ text) = (between.read text).map (piece :: ·) := by
  have hstep : between.step c = some ([], begun [c]) := hfirst
  rw [List.cons_append, read_cons_of_step hstep, hgathers.read_more hmore,
    read_of_turn fun d hd ↦ hgathers.turns _ d (hends d hd), hclose]
  rfl

end Gathers

end Mode

/-! ### Numbers and words -/

theorem isNumberChar_of_isDigit (h : c.isDigit = true) : isNumberChar c = true := by
  simp [isNumberChar, h]

theorem isNumberChar_of_all (h : digits.all Char.isDigit = true) :
    ∀ c ∈ digits, isNumberChar c = true := fun c hc ↦
  isNumberChar_of_isDigit (List.all_eq_true.mp h c hc)

theorem isNumberChar_of_isExponent (h : isExponent digits = true) :
    ∀ c ∈ digits, isNumberChar c = true := by
  unfold isExponent at h
  split at h
  next digits =>
    exact List.forall_mem_cons.mpr ⟨rfl, isNumberChar_of_all (Bool.and_eq_true_iff.mp h).2⟩
  next digits =>
    exact List.forall_mem_cons.mpr ⟨rfl, isNumberChar_of_all (Bool.and_eq_true_iff.mp h).2⟩
  next => exact isNumberChar_of_all (Bool.and_eq_true_iff.mp h).2

/-- What follows the digits of a fraction, or the whole part where there is none. -/
theorem isNumberChar_of_power {e : Char} {exponent : List Char}
    (h : ((e = 'e' || e = 'E') && isExponent exponent) = true) :
    ∀ c ∈ e :: exponent, isNumberChar c = true := by
  simp only [Bool.and_eq_true, Bool.or_eq_true, decide_eq_true_eq] at h
  refine List.forall_mem_cons.mpr ⟨?_, isNumberChar_of_isExponent h.2⟩
  rcases h.1 with rfl | rfl <;> rfl

theorem isNumberChar_of_isNumberTail (h : isNumberTail tail = true) :
    ∀ c ∈ tail, isNumberChar c = true := by
  rcases tail with _ | ⟨first, rest⟩
  · exact fun c hc ↦ absurd hc List.not_mem_nil
  by_cases hpoint : first = '.'
  · subst hpoint
    have hbehind : ∀ c ∈ rest.dropWhile Char.isDigit, isNumberChar c = true := by
      cases hdrop : rest.dropWhile Char.isDigit with
      | nil => exact fun c hc ↦ absurd hc List.not_mem_nil
      | cons e exponent =>
        refine isNumberChar_of_power ?_
        simp only [isNumberTail, hdrop] at h
        by_cases hempty : (rest.takeWhile Char.isDigit).isEmpty = true
        · rw [if_pos hempty] at h
          cases h
        · rw [if_neg hempty] at h
          exact h
    rw [← List.takeWhile_append_dropWhile (p := Char.isDigit) (l := rest)]
    refine List.forall_mem_cons.mpr ⟨rfl, List.forall_mem_append.mpr ⟨?_, hbehind⟩⟩
    exact isNumberChar_of_all List.all_takeWhile
  · refine isNumberChar_of_power ?_
    have htail : isNumberTail (first :: rest) =
        ((first = 'e' || first = 'E') && isExponent rest) := by
      unfold isNumberTail
      split
      next heq => exact absurd (List.cons.inj heq).1 hpoint
      next => rfl
    rw [← htail, h]

theorem isNumberChar_of_isNumber (h : isNumber spelling = true) :
    ∀ c ∈ spelling, isNumberChar c = true := by
  have hunsigned : ∀ unsigned : List Char,
      (isWhole (unsigned.takeWhile Char.isDigit) &&
        isNumberTail (unsigned.dropWhile Char.isDigit)) = true →
      ∀ c ∈ unsigned, isNumberChar c = true := by
    intro unsigned h c hc
    rw [← List.takeWhile_append_dropWhile (p := Char.isDigit) (l := unsigned)] at hc
    rcases List.mem_append.mp hc with hc | hc
    · exact isNumberChar_of_all List.all_takeWhile c hc
    · exact isNumberChar_of_isNumberTail (Bool.and_eq_true_iff.mp h).2 c hc
  unfold isNumber at h
  split at h
  next rest => exact List.forall_mem_cons.mpr ⟨rfl, hunsigned rest h⟩
  next => exact hunsigned spelling h

theorem exists_first_of_isNumber (h : isNumber spelling = true) :
    ∃ c rest, spelling = c :: rest ∧ (c = '-' ∨ c.isDigit = true) := by
  rcases spelling with _ | ⟨c, rest⟩
  · cases h
  refine ⟨c, rest, rfl, ?_⟩
  by_cases hminus : c = '-'
  · exact Or.inl hminus
  by_cases hdigit : c.isDigit = true
  · exact Or.inr hdigit
  -- Otherwise there is no whole part.
  unfold isNumber at h
  split at h
  next heq => exact absurd (List.cons.inj heq).1 hminus
  next => simp [List.takeWhile_cons_of_neg hdigit, isWhole] at h

namespace Mode

theorem first_number (h : c = '-' ∨ c.isDigit = true) : first c = some ([], number [c]) := by
  have hblank : isBlank c = false := by
    rw [← Bool.not_eq_true]
    intro hblank
    simp only [isBlank, Bool.or_eq_true, decide_eq_true_eq] at hblank
    rcases hblank with ((rfl | rfl) | rfl) | rfl <;> simp at h
  have hquote : c ≠ '"' := by
    rintro rfl
    simp at h
  simp [first, hblank, hquote, h]

theorem read_number (h : isNumber spelling = true) (hends : EndsRun text) :
    between.read (spelling ++ text) = (between.read text).map (.number spelling :: ·) := by
  obtain ⟨c, rest, rfl, hfirst⟩ := exists_first_of_isNumber h
  have hrest : ∀ d ∈ rest, isNumberChar d = true := fun d hd ↦
    isNumberChar_of_isNumber h d (List.mem_cons_of_mem c hd)
  exact gathers_number.read_piece hrest (first_number hfirst) (fun d hd ↦ (hends d hd).2)
    (by simp [close, h])

theorem read_word {letters : List Char} {piece : Piece} (hfirst : first c = some ([], word [c]))
    (hletters : letters.all Char.isAlpha = true) (hword : word? (c :: letters) = some piece)
    (hends : EndsRun text) :
    between.read (c :: letters ++ text) = (between.read text).map (piece :: ·) :=
  gathers_word.read_piece (List.all_eq_true.mp hletters) hfirst (fun d hd ↦ (hends d hd).1)
    (by simp [close, hword])

end Mode

/-! ### Strings -/

theorem hexValue?_digitChar : ∀ digit < 16, hexValue? (Nat.digitChar digit) = some digit := by
  decide

/-- A character is no surrogate. -/
theorem not_surrogate_toNat (c : Char) :
    isHighSurrogate c.toNat = false ∧ isLowSurrogate c.toNat = false := by
  have hvalid : c.toNat < 0xD800 ∨ 0xDFFF < c.toNat ∧ c.toNat < 0x110000 := c.valid
  simp only [isHighSurrogate, isLowSurrogate, Bool.and_eq_false_iff, decide_eq_false_iff_not]
  omega

theorem joinUnits_cons_toNat (c : Char) (units : List Nat) :
    joinUnits (c.toNat :: units) = (joinUnits units).map (c :: ·) := by
  obtain ⟨hhigh, hlow⟩ := not_surrogate_toNat c
  cases units with
  | nil => simp [joinUnits, hhigh, hlow]
  | cons unit units => simp [joinUnits, hhigh, hlow]

theorem joinUnits_map_toNat (chars : List Char) :
    joinUnits (chars.map Char.toNat) = some chars := by
  induction chars with
  | nil => rfl
  | cons c chars ih => rw [List.map_cons, joinUnits_cons_toNat, ih, Option.map_some]

namespace Mode

theorem read_hexDigit (units : List Nat) (value left : Nat) {digit : Nat} (hdigit : digit < 16) :
    (hex units value left).read (digit.digitChar :: text) =
      (if left = 1 then Mode.text ((16 * value + digit) :: units)
        else hex units (16 * value + digit) (left - 1)).read text := by
  refine read_cons_of_step ?_
  rw [step, hexValue?_digitChar digit hdigit]
  rfl

theorem read_hexDigits {unit : Nat} (units : List Nat) (hunit : unit < 65536) :
    (hex units 0 4).read (Piece.hexDigits unit ++ text) =
      (Mode.text (unit :: units)).read text := by
  have hvalue : 16 * (16 * (16 * (16 * 0 + unit / 4096) + unit / 256 % 16) + unit / 16 % 16) +
      unit % 16 = unit := by omega
  simp only [Piece.hexDigits, List.cons_append, List.nil_append]
  rw [read_hexDigit units _ _ (by omega), if_neg (by decide),
    read_hexDigit units _ _ (by omega), if_neg (by decide),
    read_hexDigit units _ _ (by omega), if_neg (by decide),
    read_hexDigit units _ _ (by omega), if_pos rfl, hvalue]

/-- A code unit is read as it is escaped. -/
theorem read_unicodeEscape {unit : Nat} (units : List Nat) (hunit : unit < 65536) :
    (Mode.text units).read ('\\' :: 'u' :: Piece.hexDigits unit ++ text) =
      (Mode.text (unit :: units)).read text := by
  have hbackslash : (Mode.text units).step '\\' = some ([], escape units) := rfl
  have hletter : (escape units).step 'u' = some ([], hex units 0 4) := rfl
  rw [List.cons_append, List.cons_append, read_cons_of_step hbackslash, read_cons_of_step hletter,
    read_hexDigits units hunit]

/-- A character is read as it is written. -/
theorem read_escape (units : List Nat) (c : Char) :
    (Mode.text units).read (Piece.escape c ++ text) = (Mode.text (c.toNat :: units)).read text := by
  unfold Piece.escape
  split
  next hmarked =>
    have hbackslash : (Mode.text units).step '\\' = some ([], escape units) := rfl
    have hmark : (escape units).step c = some ([], Mode.text (c.toNat :: units)) := by
      rcases (Bool.or_eq_true _ _).mp hmarked with hc | hc <;>
        rw [of_decide_eq_true hc] <;> rfl
    exact (read_cons_of_step hbackslash).trans (read_cons_of_step hmark)
  next hplain =>
    split
    next hcontrol => exact read_unicodeEscape units (by omega)
    next hvisible =>
      refine read_cons_of_step ?_
      simp only [Bool.or_eq_true, decide_eq_true_eq, not_or] at hplain
      simp only [step, hplain.1, hplain.2, hvisible, if_false]

theorem read_chars (units : List Nat) (chars : List Char) :
    (Mode.text units).read (chars.flatMap Piece.escape ++ text) =
      (Mode.text ((chars.map Char.toNat).reverse ++ units)).read text := by
  induction chars generalizing units with
  | nil => rfl
  | cons c chars ih =>
    rw [List.flatMap_cons, List.append_assoc, read_escape, ih, List.map_cons, List.reverse_cons,
      List.append_assoc, List.singleton_append]

theorem read_quote (units : List Nat) :
    (Mode.text units).read ('"' :: text) =
      (between.read text).map (.text (joinUnits units.reverse) :: ·) := rfl

/-- A string is read as it is written. -/
theorem read_text (chars : Option (List Char)) :
    between.read ((Piece.text chars).spelling ++ text) =
      (between.read text).map (.text chars :: ·) := by
  have hopen : between.step '"' = some ([], Mode.text []) := rfl
  cases chars with
  | none =>
    rw [Piece.spelling, List.append_assoc]
    refine (read_cons_of_step hopen).trans ((read_unicodeEscape [] (by decide)).trans ?_)
    rw [List.singleton_append, read_quote]
    rfl
  | some chars =>
    have hchars : joinUnits ((chars.map Char.toNat).reverse ++ []).reverse = some chars := by
      rw [List.append_nil, List.reverse_reverse, joinUnits_map_toNat]
    rw [Piece.spelling, List.append_assoc]
    refine (read_cons_of_step hopen).trans ((read_chars [] chars).trans ?_)
    rw [List.singleton_append, read_quote, hchars]

end Mode

/-! ### Any piece -/

/-- The piece can be spelled: a number is spelled as JSON has it. -/
def Piece.IsValid : Piece → Prop
  | number spelling => isNumber spelling = true
  | _ => True

/-- A piece is read as it is spelled, if what follows it is no part of it. -/
theorem read_piece {piece : Piece} (hvalid : piece.IsValid)
    (hends : piece.runsOn = true → EndsRun text) :
    Mode.between.read (piece.spelling ++ text) =
      (Mode.between.read text).map (piece :: ·) := by
  match piece, hvalid, hends with
  | .openBrace, _, _ | .closeBrace, _, _ | .openBracket, _, _ | .closeBracket, _, _
  | .comma, _, _ | .colon, _, _ => rfl
  | .null, _, hends => exact Mode.read_word rfl rfl rfl (hends rfl)
  | .bool true, _, hends => exact Mode.read_word rfl rfl rfl (hends rfl)
  | .bool false, _, hends => exact Mode.read_word rfl rfl rfl (hends rfl)
  | .number spelling, hvalid, hends => exact Mode.read_number hvalid (hends rfl)
  | .text chars, _, _ => exact Mode.read_text chars

/-! ### Any text of some pieces -/

namespace State

variable {state next last : State} {piece : Piece}

end State

/-- The numbers in the value are spelled as JSON has them. -/
def IsValid (value : Json) : Prop := ∀ piece ∈ value.pieces, piece.IsValid

end Json

end LuaLiterals
