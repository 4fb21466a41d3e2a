import LuaLiterals.Proofs.Sightings

/-!
Inside a long literal, counted by places. `Grammar.FirstOccurrence` says at which index a word
stands for the first time, whatever overlaps it, and `breakOn?` splits a text there
(`breakOn?_of_firstOccurrence`). With what the scans of a long literal yield this gives the main
statement `ends_at_first_closer`: the text of a literal reaches to the first closing bracket of its
level and no further, the closing bracket comes next, and a text without one is read to its end and
given back.
-/

set_option autoImplicit false
set_option relaxedAutoImplicit false

namespace LuaLiterals

namespace Grammar

/-- The word stands at this index of the text, and at no smaller one. -/
def FirstOccurrence (word text : List Char) (index : Nat) : Prop :=
  word <+: text.drop index ∧ ∀ earlier < index, ¬ word <+: text.drop earlier

instance (word text : List Char) (index : Nat) : Decidable (FirstOccurrence word text index) :=
  inferInstanceAs (Decidable (_ ∧ _))

variable {word text : List Char} {index : Nat} {c : Char}

theorem firstOccurrence_zero_iff : FirstOccurrence word text 0 ↔ word <+: text :=
  and_iff_left fun earlier hearlier ↦ absurd hearlier (Nat.not_lt_zero earlier)

theorem firstOccurrence_succ_iff :
    FirstOccurrence word (c :: text) (index + 1) ↔
      ¬ word <+: c :: text ∧ FirstOccurrence word text index := by
  constructor
  · rintro ⟨hoccurs, hfirst⟩
    refine ⟨hfirst 0 (Nat.succ_pos index), hoccurs, fun earlier hearlier ↦ ?_⟩
    exact hfirst (earlier + 1) (Nat.succ_lt_succ hearlier)
  · rintro ⟨hfront, hoccurs, hfirst⟩
    refine ⟨hoccurs, fun earlier hearlier ↦ ?_⟩
    cases earlier with
    | zero => exact hfront
    | succ earlier => exact hfirst earlier (Nat.lt_of_succ_lt_succ hearlier)

theorem FirstOccurrence.unique {other : Nat} (h : FirstOccurrence word text index)
    (hother : FirstOccurrence word text other) : index = other := by
  rcases Nat.lt_trichotomy index other with hlt | heq | hgt
  · exact absurd h.1 (hother.2 index hlt)
  · exact heq
  · exact absurd hother.1 (h.2 other hgt)

/-- A word that occurs at all has a first occurrence. -/
theorem exists_firstOccurrence (h : word <:+: text) : ∃ index, FirstOccurrence word text index := by
  induction text with
  | nil =>
    obtain rfl := List.infix_nil.mp h
    exact ⟨0, firstOccurrence_zero_iff.mpr List.nil_prefix⟩
  | cons c text ih =>
    by_cases hfront : word <+: c :: text
    · exact ⟨0, firstOccurrence_zero_iff.mpr hfront⟩
    · obtain ⟨index, hindex⟩ := ih ((List.infix_cons_iff.mp h).resolve_left hfront)
      exact ⟨index + 1, firstOccurrence_succ_iff.mpr ⟨hfront, hindex⟩⟩

theorem breakOn?_of_firstOccurrence (h : FirstOccurrence word text index) :
    breakOn? word text = some (text.take index, text.drop (index + word.length)) := by
  induction text generalizing index with
  | nil =>
    have hnil : word = [] := by
      simpa using h.1
    rw [breakOn?, if_pos hnil, List.take_nil, List.drop_nil]
  | cons c text ih =>
    cases index with
    | zero =>
      have hfront := firstOccurrence_zero_iff.mp h
      rw [breakOn?, if_pos (List.isPrefixOf_iff_prefix.mpr hfront), Nat.zero_add, List.take_zero]
    | succ index =>
      obtain ⟨hfront, hindex⟩ := firstOccurrence_succ_iff.mp h
      have hcons : breakOn? word (c :: text) = _ := breakOn?_cons_of_not_prefix hfront
      rw [hcons, ih hindex, Nat.add_right_comm, List.drop_succ_cons]
      rfl

theorem breakOn?_eq_none (h : ¬ word <:+: text) : breakOn? word text = none := by
  rw [Option.eq_none_iff_forall_ne_some]
  rintro ⟨before, rest⟩ hbreak
  exact h ⟨before, rest, (eq_append_of_breakOn? hbreak).symm⟩

/-- From the first occurrence on, a text is the word and what stands behind it. -/
theorem FirstOccurrence.drop_eq_append (h : FirstOccurrence word text index) :
    text.drop index = word ++ text.drop (index + word.length) := by
  have happend := List.prefix_iff_eq_append.mp h.1
  rw [List.drop_drop] at happend
  exact happend.symm

end Grammar

namespace Reader

open Grammar Recognizer

/-- What a scan leaves behind that ends an open literal with this closing bracket. -/
def pastCloser (reader : Reader) (recognizer : Recognizer) (level : Level) : Outcome :=
  let closer := closingBracket level.toNat
  { token := some ⟨.closing, reader.position, reader.position.after closer, closer⟩
    reader := reader.advance closer.length
    recognizer := { recognizer with opened := none } }

/-- What a scan leaves behind that takes so many characters for the text of an open literal. -/
def pastContent (reader : Reader) (recognizer : Recognizer) (count : Nat) : Outcome where
  token := some ⟨.content, reader.position, (reader.advance count).position,
    reader.ahead.take count⟩
  reader := reader.advance count
  recognizer := recognizer

variable {reader : Reader} {recognizer : Recognizer} {offer : Offer} {level : Level}

/-- Without a closing bracket all of the text is read, and all of it is given back. -/
theorem scan_of_unclosed (hentry : recognizer.entry offer = .body .string level false)
    (h : ¬ closingBracket level.toNat <:+: reader.ahead) :
    reader.scan recognizer offer = ⟨none, reader, recognizer⟩ ∧
      (recognizer.scan offer reader.ahead).extent.read = reader.ahead.length := by
  obtain ⟨hfound, hread⟩ := exhausts_long hentry (breakOn?_eq_none h)
  exact ⟨scan_of_found_none hfound, hread⟩

theorem scan_of_closer (hentry : recognizer.entry offer = .body .string level false)
    (hclosing : offer.closing = true) (h : closingBracket level.toNat <+: reader.ahead) :
    reader.scan recognizer offer = reader.pastCloser recognizer level := by
  obtain ⟨rest, hrest⟩ := h
  have hyields : recognizer.Yields offer (closingBracket level.toNat ++ rest) [] .closing
      (closingBracket level.toNat) rest := yields_long_closing hentry hclosing
  rw [hrest] at hyields
  rw [scan_of_yields hyields, pastCloser, advance, ← hrest, List.take_left, List.drop_left]
  rfl

theorem scan_of_content {index : Nat}
    (hentry : recognizer.entry offer = .body .string level false) (hcontent : offer.content = true)
    (h : FirstOccurrence (closingBracket level.toNat) reader.ahead index) (hpos : 0 < index) :
    reader.scan recognizer offer = reader.pastContent recognizer index := by
  have hne : reader.ahead.take index ≠ [] := by
    -- At the end of the source no closing bracket could follow.
    intro htake
    obtain hzero | hnil := List.take_eq_nil_iff.mp htake
    · exact Nat.ne_of_gt hpos hzero
    · have hfront := h.1
      rw [hnil, List.drop_nil] at hfront
      exact closingBracket_ne_nil _ (List.prefix_nil.mp hfront)
  have hyields := yields_long_content hentry hcontent (breakOn?_of_firstOccurrence h) hne
  rw [scan_of_yields hyields, ← h.drop_eq_append]
  rfl

theorem entry_of_long (hopened : recognizer.opened = some (.long level))
    (hcontinues : offer.continues = true) (hpart : offer.isRecovery = false) :
    recognizer.entry offer = .body .string level false :=
  entry_of_opened hopened hcontinues hpart

/-- Inside a long literal a scan takes the characters in front of the first closing bracket of its
level, whatever else among them looks like one, and leaves the reader in front of that bracket. A
bracket that the reader stands in front of is the end of the literal; if there is none, the literal
stays open and nothing is taken. -/
theorem ends_at_first_closer (hopened : recognizer.opened = some (.long level))
    (hcontent : offer.content = true) (hclosing : offer.closing = true)
    (hpart : offer.isRecovery = false) :
    (¬ closingBracket level.toNat <:+: reader.ahead →
      reader.scan recognizer offer = ⟨none, reader, recognizer⟩ ∧
        (recognizer.scan offer reader.ahead).extent.read = reader.ahead.length) ∧
    (closingBracket level.toNat <:+: reader.ahead →
      ∃ index, FirstOccurrence (closingBracket level.toNat) reader.ahead index ∧
        (index = 0 → reader.scan recognizer offer = reader.pastCloser recognizer level) ∧
        (0 < index → reader.scan recognizer offer = reader.pastContent recognizer index ∧
          ∀ next : Offer, next.closing = true → next.isRecovery = false →
            (reader.advance index).scan recognizer next =
              (reader.advance index).pastCloser recognizer level)) := by
  have hentry := entry_of_long hopened (by simp [Offer.continues, hclosing]) hpart
  refine ⟨scan_of_unclosed hentry, fun hoccurs ↦ ?_⟩
  obtain ⟨index, hfirst⟩ := exists_firstOccurrence hoccurs
  refine ⟨index, hfirst, ?_, fun hpos ↦ ⟨scan_of_content hentry hcontent hfirst hpos, ?_⟩⟩
  · rintro rfl
    exact scan_of_closer hentry hclosing (firstOccurrence_zero_iff.mp hfirst)
  · intro next hnext hnextPart
    have hnextEntry := entry_of_long hopened (by simp [Offer.continues, hnext]) hnextPart
    exact scan_of_closer hnextEntry hnext hfirst.1

/-- Two brackets of other shapes stand in front of the one that closes, and share signs with it. -/
theorem ends_at_first_closer_of_near_misses :
    let reader := Reader.ofSource [']', '=', '=', ']', '=', ']', ']', 'x']
    let recognizer : Recognizer := ⟨.plain, some (.long 1)⟩
    FirstOccurrence (closingBracket (1 : Level).toNat) reader.ahead 3 ∧
      reader.scan recognizer .inside = reader.pastContent recognizer 3 ∧
      (reader.advance 3).scan recognizer ⟨true, true, false, true⟩ =
        (reader.advance 3).pastCloser recognizer 1 := by
  intro reader recognizer
  have hthird : FirstOccurrence (closingBracket (1 : Level).toNat) reader.ahead 3 := by decide
  have hoccurs : closingBracket (1 : Level).toNat <:+: reader.ahead :=
    ⟨[']', '=', '='], [']', 'x'], rfl⟩
  obtain ⟨index, hfirst, -, hpast⟩ :=
    (@ends_at_first_closer reader recognizer .inside 1 rfl rfl rfl rfl).2 hoccurs
  obtain rfl := hfirst.unique hthird
  obtain ⟨hcontent, hnext⟩ := hpast (by decide)
  exact ⟨hthird, hcontent, hnext ⟨true, true, false, true⟩ rfl rfl⟩

end Reader

end LuaLiterals
