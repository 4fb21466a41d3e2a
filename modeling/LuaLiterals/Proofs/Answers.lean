import LuaLiterals.Splitter.Run

/-!
What a splitter answers, call by call. A host may ask for the next item as often as it likes,
also behind the end; an answer is the item, if there is one, and the literal open behind it. The
main statement `getElem?_run` is that a run lists the answers in their order, up to the first
that brings no item, and that no later call brings one.

The other half says once what a call can do. A splitter never fails to scan, since the snapshot
it may have to go through loses nothing (`scan_eq_ok`, `seek_eq_ok`), so a fault is always a
literal that is not finished.
-/

set_option autoImplicit false
set_option relaxedAutoImplicit false

namespace LuaLiterals

namespace Splitter

/-! ### Scanning and seeking without failure -/

/-- The token a scan finds at the place reached. -/
def seen (splitter : Splitter) : Option Token :=
  (splitter.reader.scan splitter.recognizer splitter.due.offer).token

/-- The splitter behind that scan. -/
def scanned (splitter : Splitter) : Splitter :=
  let outcome := splitter.reader.scan splitter.recognizer splitter.due.offer
  { splitter with reader := outcome.reader, recognizer := outcome.recognizer }

/-- A scan goes through whether or not the splitter suspends. -/
theorem scan_eq_ok (splitter : Splitter) :
    splitter.scan = .ok (splitter.seen, splitter.scanned) := by
  rw [scan, woken_eq_ok]
  rfl

/-- The splitter moved to a place, with these characters ahead. -/
def facing (splitter : Splitter) (position : Position) (ahead : List Char) : Splitter :=
  { splitter with reader := ⟨position, ahead⟩ }

/-- What seeking finds from a place on, and the splitter behind it. The scan at the end of the
source makes no difference to either. -/
def soughtFrom (splitter : Splitter) (position : Position) :
    List Char → Option Token × Splitter
  | [] => (none, splitter.facing position [])
  | c :: ahead =>
    let here := splitter.facing position (c :: ahead)
    match here.seen with
    | some token => (some token, here.scanned)
    | none => here.scanned.soughtFrom (position.next c) ahead

theorem seekFrom_eq_ok (splitter : Splitter) (position : Position) (ahead : List Char) :
    splitter.seekFrom position ahead = .ok (splitter.soughtFrom position ahead) := by
  induction ahead generalizing splitter position with
  | nil => exact scan_of_end rfl
  | cons c ahead ih =>
    rw [seekFrom, ← facing, scan_eq_ok, soughtFrom]
    cases (splitter.facing position (c :: ahead)).seen with
    | none => exact ih _ _
    | some token => rfl

/-- Seeking goes through, from the place reached to the end of the source. -/
def sought (splitter : Splitter) : Option Token × Splitter :=
  splitter.soughtFrom splitter.reader.position splitter.reader.ahead

theorem seek_eq_ok (splitter : Splitter) : splitter.seek = .ok splitter.sought := by
  unfold seek
  split
  next hend =>
    have hahead : splitter.reader.ahead = [] := List.isEmpty_iff.mp hend
    rw [sought, hahead, soughtFrom, facing, ← hahead]
  next => exact splitter.seekFrom_eq_ok _ _

/-- The text between the place reached and the token sought, or the end of the source. -/
def gap (splitter : Splitter) : List Char :=
  splitter.reader.upTo ((splitter.sought.1.map Token.start).getD splitter.sought.2.reader.position)

/-- Where no literal is open there is always an answer: the text in front of the token sought,
or that token if there is none. -/
theorem between_eq_ok (splitter : Splitter) :
    splitter.between =
      .ok (if splitter.gap = [] then
          match splitter.sought.1 with
          | some token => splitter.sought.2.handOut token
          | none => (none, splitter.sought.2)
        else (some (.text splitter.gap splitter.reader.position),
          { splitter.sought.2 with held := splitter.sought.1 })) := by
  rw [between, seek_eq_ok]
  simp only [Except.map, List.isEmpty_iff]
  rfl

/-! ### Answers -/

/-- The splitter behind a number of calls for the next item. -/
def behind (splitter : Splitter) : Nat → Splitter
  | 0 => splitter
  | calls + 1 => splitter.next.2.behind calls

/-- What a call brings, counted from zero, and the literal open behind it. -/
def answer (splitter : Splitter) (call : Nat) :
    Option (Except Fault Lexeme) × Option Literal :=
  let next := (splitter.behind call).next
  (next.1, next.2.opened)

theorem next_of_finished {splitter : Splitter} (h : splitter.finished = true) :
    splitter.next = (none, splitter) := by
  rw [next, if_pos h]

variable {splitter rest : Splitter}

theorem next_of_lexeme {lexeme : Lexeme} (hfinished : splitter.finished = false)
    (h : splitter.lexeme = .ok (some lexeme, rest)) :
    splitter.next = (some (.ok lexeme), rest) := by
  simp only [next, hfinished, h, Bool.false_eq_true, if_false]

theorem next_of_end (hfinished : splitter.finished = false)
    (h : splitter.lexeme = .ok (none, rest)) :
    splitter.next = (none, { rest with finished := true }) := by
  simp only [next, hfinished, h, Bool.false_eq_true, if_false]

theorem next_of_fault {fault : Fault} (hfinished : splitter.finished = false)
    (h : splitter.lexeme = .error fault) :
    splitter.next = (some (.error fault), { splitter with finished := true }) := by
  simp only [next, hfinished, h, Bool.false_eq_true, if_false]

/-- A call that brings no item leaves the splitter finished. -/
theorem finished_of_next (h : splitter.next.1 = none) :
    splitter.next.2.finished = true := by
  unfold next at h ⊢
  split
  next hfinished => exact hfinished
  next hfinished =>
    rw [if_neg hfinished] at h
    split at h
    next => cases h
    next => rfl
    next => cases h

theorem answer_of_finished (h : splitter.finished = true) (call : Nat) :
    (splitter.answer call).1 = none := by
  induction call with
  | zero =>
    rw [answer, behind, next_of_finished h]
  | succ call ih =>
    rw [answer, behind, next_of_finished h]
    exact ih

/-- A run lists the answers in their order, and behind its end no call brings an item. -/
theorem getElem?_run (splitter : Splitter) (call : Nat) :
    splitter.run.1[call]? =
      (splitter.answer call).1.map fun item ↦ (item, (splitter.answer call).2) := by
  induction call generalizing splitter with
  | zero =>
    rw [run]
    split
    next rest hnext =>
      simp [answer, behind, hnext]
    next item rest hnext =>
      simp [answer, behind, hnext]
  | succ call ih =>
    rw [run]
    split
    next rest hnext =>
      have hfinished : splitter.next.2.finished = true := finished_of_next (by rw [hnext])
      have hnone := answer_of_finished hfinished call
      simp only [List.getElem?_nil, answer, behind] at hnone ⊢
      rw [hnone]
      rfl
    next item rest hnext =>
      rw [List.getElem?_cons_succ, ih rest, answer, answer, behind, hnext]

end Splitter

end LuaLiterals
