import LuaLiterals.Recognizer
import LuaLiterals.Scan.Progress

/-!
Runs of the automaton, told by what they find and by the extent they leave. `Phase.finish` is
that outcome, from a phase and an extent already reached; a step that consumes moves it on by one
character (`finish_consume`), and a run that halts settles it (`finish_halt`). Behind the gap in
front of a token nothing is skipped any more, so the token keeps its beginning
(`start_finish_of_ne_gap`), and a run that goes on with an open literal never skips at all.
-/

set_option autoImplicit false
set_option relaxedAutoImplicit false

namespace LuaLiterals

namespace Extent

/-- The extent behind a number of consumed characters, with the last mark given. -/
def pass (extent : Extent) (count : Nat) (mark : Option Nat) : Extent where
  start := extent.start
  read := extent.read + count
  consumed := extent.consumed || decide (0 < count)
  mark := mark

variable (extent : Extent) (count : Nat) (mark : Option Nat)

@[simp] theorem read_pass : (extent.pass count mark).read = extent.read + count := rfl

@[simp] theorem mark_pass : (extent.pass count mark).mark = mark := rfl

theorem pass_zero : extent.pass 0 extent.mark = extent := by
  simp [pass]

@[simp] theorem pass_pass (more : Nat) (later : Option Nat) :
    (extent.pass count mark).pass more later = extent.pass (count + more) later := by
  have hconsumed : (decide (0 < count) || decide (0 < more)) = decide (0 < count + more) := by
    rw [← Bool.decide_or]
    exact decide_eq_decide.mpr (by omega)
  simp only [pass, Bool.or_assoc, hconsumed, Nat.add_assoc]

theorem foldl_consuming (marked : Bool) :
    (Call.consuming marked).foldl call extent =
      extent.pass 1 (if marked then some extent.read else extent.mark) := by
  cases marked <;> simp [Call.consuming, call, pass]

end Extent

/-- What a run has found that ends in this way, and the extent it leaves. -/
def Ending.settle (ending : Ending) (extent : Extent) : Option Found × Extent :=
  (ending.found, extent.pass 0 (if ending.marked then some extent.read else extent.mark))

theorem Ending.foldl_scan (ending : Ending) (extent : Extent) :
    (ending.scan.found, ending.scan.calls.foldl Extent.call extent) = ending.settle extent := by
  obtain ⟨marked, found⟩ := ending
  cases marked <;> simp [scan, settle, Extent.call, Extent.pass]

namespace Phase

variable {demand : Demand} {phase next : Phase} {extent : Extent} {c : Char} {text : List Char}
variable {marked : Bool} {ending : Ending}

/-- What a run finds, and the extent it leaves, if it begins in this phase and extent. -/
def finish (demand : Demand) (phase : Phase) (extent : Extent) (text : List Char) :
    Option Found × Extent :=
  ((phase.run demand text).found, (phase.run demand text).calls.foldl Extent.call extent)

theorem finish_nil : phase.finish demand extent [] = (phase.ending demand.offer).settle extent :=
  Ending.foldl_scan _ extent

theorem finish_skip (h : phase.step demand c = .skip next) :
    phase.finish demand extent (c :: text) = next.finish demand (extent.call .skip) text := by
  simp only [finish, run, h, List.foldl_cons]

theorem finish_consume (h : phase.step demand c = .consume marked next) :
    phase.finish demand extent (c :: text) =
      next.finish demand (extent.pass 1 (if marked then some extent.read else extent.mark))
        text := by
  simp only [finish, run, h, List.foldl_append, Extent.foldl_consuming]

theorem finish_halt (h : phase.step demand c = .halt ending) :
    phase.finish demand extent (c :: text) = ending.settle extent := by
  rw [← Ending.foldl_scan]
  simp only [finish, run, h]

theorem finish_settled : (settled ending).finish demand extent text = ending.settle extent := by
  cases text with
  | nil => exact finish_nil
  | cons c text => exact finish_halt rfl

/-- A run that has left the gap skips nothing, so its token begins where it began. -/
theorem start_finish_of_ne_gap (hphase : phase ≠ .gap) (extent : Extent) (text : List Char) :
    (phase.finish demand extent text).2.start = extent.start := by
  induction text generalizing phase extent with
  | nil =>
    rw [finish_nil]
    rfl
  | cons c text ih =>
    cases hstep : phase.step demand c with
    | skip next => exact absurd (step_eq_skip_iff.mp hstep).1 hphase
    | consume marked next =>
      rw [finish_consume hstep, ih (consumes_of_step hstep).ne_gap]
      rfl
    | halt ending =>
      rw [finish_halt hstep]
      rfl

end Phase

namespace Recognizer

variable {recognizer : Recognizer} {offer : Offer}

/-- What a scan finds and its extent are those of the run from the entry phase. -/
theorem scan_eq_finish (recognizer : Recognizer) (offer : Offer) (ahead : List Char) :
    ((recognizer.scan offer ahead).found, (recognizer.scan offer ahead).extent) =
      (recognizer.entry offer).finish ⟨recognizer.dialect, offer⟩ .initial ahead := rfl

/-- A scan that nothing may begin with does not enter the gap. -/
theorem entry_ne_gap (hopens : offer.opens = false) : recognizer.entry offer ≠ .gap := by
  unfold entry
  cases recognizer.resumed offer with
  | none => simp [hopens]
  | some literal => cases literal <;> nofun

/-- Inside a literal a token begins where the scan does. -/
theorem start_scan_of_not_opens (hopens : offer.opens = false) (ahead : List Char) :
    (recognizer.scan offer ahead).extent.start = 0 :=
  Phase.start_finish_of_ne_gap (entry_ne_gap hopens) .initial ahead

end Recognizer

end LuaLiterals
