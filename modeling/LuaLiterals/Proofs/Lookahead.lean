import LuaLiterals.Recognizer
import LuaLiterals.Scan.Progress

/-!
How far a scan looks. A step is decided by the phase and by the one character in front of it, so a
run depends on the characters it passes and on the one it stops in front of, and on nothing further
on. This holds whether or not a token is found, and also where a run has read past the end of its
token to see whether a bracket closes. The main statement `scan_eq_of_agree` says it of two texts
that agree up to the place where the scan of the first stops.
-/

set_option autoImplicit false
set_option relaxedAutoImplicit false

namespace LuaLiterals

/-- No call goes back. -/
theorem Extent.read_le_foldl (extent : Extent) (calls : List Call) :
    extent.read ≤ (calls.foldl call extent).read := by
  induction calls generalizing extent with
  | nil => exact Nat.le_refl _
  | cons c calls ih =>
    have hcall : extent.read ≤ (extent.call c).read := by
      cases c with
      | skip => exact Nat.le_succ _
      | consume => exact Nat.le_succ _
      | mark => exact Nat.le_refl _
    exact Nat.le_trans hcall (ih _)

/-- A run over another text is the same if the texts agree on all that was read and on what stands
behind it, be it a character or the end. The extent only says where the run begins. -/
theorem Phase.run_eq_of_agree (demand : Demand) (phase : Phase) (extent : Extent)
    {first second : List Char}
    (h : ∀ i, extent.read + i ≤ ((phase.run demand first).calls.foldl Extent.call extent).read →
      second[i]? = first[i]?) :
    phase.run demand second = phase.run demand first := by
  induction first generalizing phase extent second with
  | nil =>
    have hfront : second[0]? = none := h 0 (Extent.read_le_foldl _ _)
    obtain rfl : second = [] := List.eq_nil_of_length_eq_zero
      (Nat.le_zero.mp (List.getElem?_eq_none_iff.mp hfront))
    rfl
  | cons c first ih =>
    have hfront : second[0]? = some c := h 0 (Extent.read_le_foldl _ _)
    obtain ⟨behind, rfl⟩ : ∃ behind, second = c :: behind := by
      rw [← List.head?_eq_getElem?] at hfront
      exact List.head?_eq_some_iff.mp hfront
    rw [run] at h
    rw [run, run]
    cases hstep : phase.step demand c with
    | skip next =>
      simp only [hstep, List.foldl_cons] at h ⊢
      have hnext : next.run demand behind = next.run demand first := by
        refine ih next (extent.call .skip) fun i hi ↦ h (i + 1) ?_
        simp only [Extent.call] at hi ⊢
        omega
      rw [hnext]
    | consume marked next =>
      simp only [hstep, List.foldl_append] at h ⊢
      have hnext : next.run demand behind = next.run demand first := by
        refine ih next ((Call.consuming marked).foldl Extent.call extent) fun i hi ↦ h (i + 1) ?_
        rw [Extent.read_foldl_consuming] at hi
        omega
      rw [hnext]
    | halt ending => rfl

namespace Recognizer

/-- A scan of another text, from the same place, makes the same calls, stops at the same place,
finds the same and leaves the same recognizer, if the texts agree from there up to and including
the place where the scan of the first stops. -/
theorem scan_eq_of_agree (recognizer : Recognizer) (offer : Offer) (place : Nat)
    {first second : List Char}
    (h : ∀ i, place ≤ i → i ≤ place + (recognizer.scan offer (first.drop place)).extent.read →
      second[i]? = first[i]?) :
    let one := recognizer.scan offer (first.drop place)
    let other := recognizer.scan offer (second.drop place)
    other.calls = one.calls ∧
      place + other.extent.read = place + one.extent.read ∧
      other.found.map Found.kind = one.found.map Found.kind ∧
      recognizer.after other.found = recognizer.after one.found := by
  have hscan : recognizer.scan offer (second.drop place) =
      recognizer.scan offer (first.drop place) := by
    refine Phase.run_eq_of_agree _ _ .initial fun i hi ↦ ?_
    rw [List.getElem?_drop, List.getElem?_drop]
    refine h (place + i) (Nat.le_add_right _ _) (Nat.add_le_add_left ?_ _)
    exact (Nat.zero_add i) ▸ hi
  simp only
  rw [hscan]
  exact ⟨rfl, rfl, rfl, rfl⟩

/-- Content in front of a closing bracket, which is read to its end and not marked. The two texts
differ in front of the place where the scan begins and behind the character that it stops at. -/
theorem scan_eq_past_mark :
    let recognizer : Recognizer := ⟨.plain, some (.long 1)⟩
    let first := ['(', 'a', ']', '=', ']', 'b', 'c']
    let second := ['?', 'a', ']', '=', ']', 'b']
    (∀ i, 1 ≤ i → i ≤ 1 + (recognizer.scan .inside (first.drop 1)).extent.read →
        second[i]? = first[i]?) ∧
      (recognizer.scan .inside (first.drop 1)).calls =
        [.consume, .mark, .consume, .consume, .consume] ∧
      (recognizer.scan .inside (second.drop 1)).calls =
        (recognizer.scan .inside (first.drop 1)).calls := by
  intro recognizer first second
  have hread : (recognizer.scan .inside (first.drop 1)).extent.read = 4 := by decide
  have hagree : ∀ i, 1 ≤ i → i ≤ 1 + (recognizer.scan .inside (first.drop 1)).extent.read →
      second[i]? = first[i]? := by
    intro i hfrom hto
    rw [hread] at hto
    match i, hfrom, hto with
    | 1, _, _ | 2, _, _ | 3, _, _ | 4, _, _ | 5, _, _ => rfl
  exact ⟨hagree, by decide, (scan_eq_of_agree recognizer .inside 1 hagree).1⟩

end Recognizer

end LuaLiterals
