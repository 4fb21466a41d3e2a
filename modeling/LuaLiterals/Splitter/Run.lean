import LuaLiterals.Splitter

/-!
Running a splitter to its end. Every item it hands out uses up characters ahead, the token held
back, or its one fault, so it comes to an end.
-/

set_option autoImplicit false
set_option relaxedAutoImplicit false

namespace LuaLiterals

namespace Splitter

/-- What is left to hand out, at most. -/
def budget (splitter : Splitter) : Nat :=
  2 * splitter.reader.ahead.length + splitter.held.toList.length +
    if splitter.finished then 0 else 1

theorem length_ahead_lt_of_scan {splitter scanned : Splitter} {token : Token}
    (h : splitter.scan = .ok (some token, scanned)) :
    scanned.reader.ahead.length < splitter.reader.ahead.length := by
  simp only [scan, woken_eq_ok, Except.map, Except.ok.injEq, Prod.mk.injEq] at h
  obtain ⟨htoken, rfl⟩ := h
  exact Reader.length_ahead_lt_of_scan (by simp [htoken])

/-- A token that is sought uses up characters, and without one seeking ends where the source
does. -/
theorem length_ahead_of_seekFrom {splitter sought : Splitter} {position : Position}
    {ahead : List Char} {found : Option Token}
    (h : splitter.seekFrom position ahead = .ok (found, sought)) :
    sought.reader.ahead.length + found.toList.length ≤ ahead.length ∧
      (found = none → sought.reader.ahead = []) := by
  induction ahead generalizing splitter position with
  | nil =>
    rw [seekFrom, scan_of_end rfl] at h
    cases h
    exact ⟨Nat.le_refl 0, fun _ ↦ rfl⟩
  | cons c ahead ih =>
    simp only [seekFrom] at h
    split at h
    next => cases h
    next token scanned hscan =>
      simp only [Except.ok.injEq, Prod.mk.injEq] at h
      obtain ⟨rfl, rfl⟩ := h
      exact ⟨length_ahead_lt_of_scan hscan, nofun⟩
    next scanned _ =>
      obtain ⟨hle, hnone⟩ := ih h
      exact ⟨Nat.le_succ_of_le hle, hnone⟩

theorem length_ahead_of_seek {splitter sought : Splitter} {found : Option Token}
    (h : splitter.seek = .ok (found, sought)) :
    sought.reader.ahead.length + found.toList.length ≤ splitter.reader.ahead.length ∧
      (found = none → sought.reader.ahead = []) := by
  unfold seek at h
  split at h
  next hend =>
    cases h
    exact ⟨Nat.le_refl _, fun _ ↦ List.isEmpty_iff.mp hend⟩
  next => exact length_ahead_of_seekFrom h

theorem budget_lt_of_lexeme {splitter rest : Splitter} {lexeme : Lexeme}
    (h : splitter.lexeme = .ok (some lexeme, rest)) :
    2 * rest.reader.ahead.length + rest.held.toList.length <
      2 * splitter.reader.ahead.length + splitter.held.toList.length := by
  unfold Splitter.lexeme at h
  split at h
  next token _ hheld =>
    simp only [handOut, Except.ok.injEq, Prod.mk.injEq] at h
    obtain ⟨-, rfl⟩ := h
    simp [hheld]
  next hheld _ =>
    unfold between at h
    cases hseek : splitter.seek with
    | error fault => simp [hseek, Except.map] at h
    | ok result =>
      obtain ⟨found, sought⟩ := result
      simp only [hseek, Except.map, Except.ok.injEq] at h
      obtain ⟨hle, hnone⟩ := length_ahead_of_seek hseek
      split at h
      next =>
        cases found with
        | none => cases h
        | some token =>
          simp only [handOut, Prod.mk.injEq] at h
          obtain ⟨-, rfl⟩ := h
          simp only [Option.toList_some, List.length_singleton, Option.toList_none,
            List.length_nil] at hle ⊢
          omega
      next hgap =>
        simp only [Prod.mk.injEq] at h
        obtain ⟨-, rfl⟩ := h
        have hpos : 0 < splitter.reader.ahead.length := by
          rw [List.length_pos_iff]
          intro hnil
          exact hgap (by simp [Reader.upTo, hnil])
        cases found with
        | none =>
          simp only [hnone rfl, List.length_nil, Option.toList_none]
          omega
        | some token =>
          simp only [Option.toList_some, List.length_singleton] at hle ⊢
          omega
  next hheld _ =>
    unfold within at h
    split at h
    next => cases h
    next token scanned hscan =>
      simp only [handOut, Except.ok.injEq, Prod.mk.injEq] at h
      obtain ⟨-, rfl⟩ := h
      have hlt := length_ahead_lt_of_scan hscan
      simp only [Option.toList_none, List.length_nil]
      omega
    next => cases h

theorem budget_lt_of_next {splitter rest : Splitter} {item : Except Fault Lexeme}
    (h : splitter.next = (some item, rest)) : rest.budget < splitter.budget := by
  unfold next at h
  split at h
  next => cases h
  next hfinished =>
    split at h
    next lexeme _ hlexeme =>
      obtain ⟨-, rfl⟩ := Prod.mk.inj h
      have hlt := budget_lt_of_lexeme hlexeme
      simp only [budget, hfinished, Bool.false_eq_true, if_false]
      split <;> omega
    next => cases h
    next =>
      obtain ⟨-, rfl⟩ := Prod.mk.inj h
      simp [budget, hfinished]

/-- All items with the literal that is open behind each of them, and the splitter at the end. -/
def run (splitter : Splitter) :
    List (Except Fault Lexeme × Option Literal) × Splitter :=
  match _h : splitter.next with
  | (none, rest) => ([], rest)
  | (some item, rest) =>
    let items := rest.run
    ((item, rest.opened) :: items.1, items.2)
termination_by splitter.budget
decreasing_by exact budget_lt_of_next _h

end Splitter

end LuaLiterals
