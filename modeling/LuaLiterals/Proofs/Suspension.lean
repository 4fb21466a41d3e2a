import LuaLiterals.Proofs.Answers

/-!
Suspending between scans is invisible. A splitter that keeps nothing but a snapshot of the open
literal from one scan to the next goes through the same states as one that never suspends, the
setting itself apart (`next_suspending`). So every call for an item is answered alike, by the
same item and with the same literal open, the runs are the same, and no snapshot is ever lost.

That it does keep nothing else is said by `woken_of_same_kept` and `scan_of_suspends`: it wakes from
the bytes that were kept and its dialect, and scans as a splitter does that has forgotten the open
literal and is told of it by those bytes.
-/

set_option autoImplicit false
set_option relaxedAutoImplicit false

namespace LuaLiterals

namespace Splitter

/-- The splitter with the setting whether to suspend replaced. -/
def suspending (splitter : Splitter) (suspends : Bool) : Splitter := { splitter with suspends }

/-! ### What a suspended splitter knows -/

/-- The recognizer that a suspended splitter wakes with is told by the dialect and the bytes kept:
any other recognizer of the same dialect with the same bytes would do in its place. -/
theorem woken_of_same_kept {splitter : Splitter} {other : Recognizer}
    (hsuspends : splitter.suspends = true)
    (hdialect : other.dialect = splitter.recognizer.dialect)
    (hkept : other.kept = splitter.recognizer.kept) :
    { splitter with recognizer := other }.woken = splitter.woken := by
  have hother : { splitter with recognizer := other }.suspends = true := hsuspends
  have hrevive : other.revive = splitter.recognizer.revive := by
    rw [Recognizer.revive, Recognizer.revive, hdialect, hkept]
  rw [woken, if_pos hother, woken, if_pos hsuspends, hrevive]
  rfl

/-- The splitter that has forgotten which literal is open. -/
def forgetful (splitter : Splitter) : Splitter :=
  { splitter with recognizer := splitter.recognizer.reset }

/-- A scan with the literal that bytes tell of. -/
def scanFrom (splitter : Splitter) (bytes : List UInt8) :
    Except Fault (Option Token × Splitter) :=
  match Snapshot.decode bytes with
  | .error defect => .error (splitter.fault (.lostState defect))
  | .ok opened =>
    let told := { splitter with recognizer := ⟨splitter.recognizer.dialect, opened⟩ }
    .ok (told.seen, told.scanned)

/-- A suspended scan knows of an open literal what the bytes kept of it tell, and no more. -/
theorem scan_of_suspends {splitter : Splitter} (hsuspends : splitter.suspends = true) :
    splitter.scan = splitter.forgetful.scanFrom splitter.recognizer.kept := by
  rw [scan, woken, if_pos hsuspends, Recognizer.revive, scanFrom]
  cases Snapshot.decode splitter.recognizer.kept with
  | error defect => rfl
  | ok opened => rfl

variable (splitter : Splitter) (suspends : Bool)

/-! ### One call -/

theorem seen_suspending : (splitter.suspending suspends).seen = splitter.seen := rfl

theorem scanned_suspending :
    (splitter.suspending suspends).scanned = splitter.scanned.suspending suspends := rfl

theorem facing_suspending (position : Position) (ahead : List Char) :
    (splitter.suspending suspends).facing position ahead =
      (splitter.facing position ahead).suspending suspends := rfl

theorem soughtFrom_suspending (position : Position) (ahead : List Char) :
    (splitter.suspending suspends).soughtFrom position ahead =
      ((splitter.soughtFrom position ahead).1,
        (splitter.soughtFrom position ahead).2.suspending suspends) := by
  induction ahead generalizing splitter position with
  | nil => rfl
  | cons c ahead ih =>
    rw [soughtFrom, soughtFrom, facing_suspending, seen_suspending, scanned_suspending]
    cases (splitter.facing position (c :: ahead)).seen with
    | none => exact ih _ _
    | some token => rfl

theorem sought_suspending :
    (splitter.suspending suspends).sought =
      (splitter.sought.1, splitter.sought.2.suspending suspends) :=
  splitter.soughtFrom_suspending suspends _ _

theorem gap_suspending : (splitter.suspending suspends).gap = splitter.gap := by
  rw [gap, sought_suspending]
  rfl

theorem between_suspending :
    (splitter.suspending suspends).between =
      splitter.between.map fun found ↦ (found.1, found.2.suspending suspends) := by
  rw [between_eq_ok, between_eq_ok, gap_suspending, sought_suspending]
  by_cases hgap : splitter.gap = []
  · rw [if_pos hgap, if_pos hgap]
    cases splitter.sought.1 with
    | none => rfl
    | some token => rfl
  · rw [if_neg hgap, if_neg hgap]
    rfl

theorem within_suspending :
    (splitter.suspending suspends).within =
      splitter.within.map fun found ↦ (found.1, found.2.suspending suspends) := by
  rw [within, within, scan_eq_ok, scan_eq_ok, seen_suspending, scanned_suspending]
  cases splitter.seen with
  | none => rfl
  | some token => rfl

theorem lexeme_suspending :
    (splitter.suspending suspends).lexeme =
      splitter.lexeme.map fun found ↦ (found.1, found.2.suspending suspends) := by
  obtain ⟨reader, recognizer, due, old, held, finished⟩ := splitter
  cases held with
  | some token => rfl
  | none =>
    cases due with
    | anything => exact between_suspending _ suspends
    | contentOrClosing => exact within_suspending _ suspends
    | closing => exact within_suspending _ suspends

/-- One call does the same to a splitter that suspends and to one that does not. -/
theorem next_suspending :
    (splitter.suspending suspends).next =
      (splitter.next.1, splitter.next.2.suspending suspends) := by
  unfold next
  rw [lexeme_suspending]
  change (if splitter.finished = true then _ else _) = _
  split
  next => rfl
  next =>
    rcases splitter.lexeme with fault | ⟨lexeme, rest⟩
    · rfl
    · cases lexeme with
      | none => rfl
      | some lexeme => rfl

/-! ### All calls -/

theorem behind_suspending (calls : Nat) :
    (splitter.suspending suspends).behind calls =
      (splitter.behind calls).suspending suspends := by
  induction calls generalizing splitter with
  | zero => rfl
  | succ calls ih =>
    rw [behind, next_suspending]
    exact ih _

theorem answer_suspending (call : Nat) :
    (splitter.suspending suspends).answer call = splitter.answer call := by
  rw [answer, behind_suspending, next_suspending]
  rfl

/-- A fault is never a lost snapshot: the splitter either hands something out or has come to a
literal that is not finished. -/
theorem next_ne_lostState (defect : Snapshot.Defect) (line column : Nat) :
    splitter.next.1 ≠ some (.error ⟨.lostState defect, line, column⟩) := by
  intro h
  have hlexeme : splitter.lexeme = .error ⟨.lostState defect, line, column⟩ := by
    unfold next at h
    split at h
    next => cases h
    next =>
      split at h
      next => cases h
      next => cases h
      next fault hfault =>
        cases h
        exact hfault
  unfold lexeme at hlexeme
  split at hlexeme
  next => cases hlexeme
  next =>
    rw [between, seek_eq_ok] at hlexeme
    cases hlexeme
  next =>
    rw [within, scan_eq_ok] at hlexeme
    split at hlexeme
    next heq => cases heq
    next => cases hlexeme
    next scanned _ =>
      simp only [Except.error.injEq, fault, Fault.mk.injEq] at hlexeme
      have hcause := hlexeme.1
      unfold unfinished at hcause
      split at hcause
      next => cases hcause
      next => cases hcause

/-- A source is split alike with and without suspension: every call is answered by the same item
or by none, with the same literal open behind it, and no run loses its snapshot. -/
theorem suspension_is_invisible (source : List Char) (dialect : Dialect) :
    (∀ call, (ofSource source dialect true).answer call =
        (ofSource source dialect false).answer call) ∧
      (ofSource source dialect true).run.1 = (ofSource source dialect false).run.1 ∧
      ∀ (suspends : Bool) (call : Nat) (defect : Snapshot.Defect) (line column : Nat),
        ((ofSource source dialect suspends).answer call).1 ≠
          some (.error ⟨.lostState defect, line, column⟩) := by
  have hanswer (call : Nat) : (ofSource source dialect true).answer call =
      (ofSource source dialect false).answer call :=
    answer_suspending (ofSource source dialect false) true call
  refine ⟨hanswer, List.ext_getElem? fun call ↦ ?_, fun suspends call ↦ ?_⟩
  · rw [getElem?_run, getElem?_run, hanswer]
  · exact next_ne_lostState _

end Splitter

end LuaLiterals
