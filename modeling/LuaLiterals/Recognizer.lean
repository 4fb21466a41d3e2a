import LuaLiterals.Scan
import LuaLiterals.Snapshot

/-!
What is remembered from one token to the next: the dialect, and the literal that is open. An
open literal decides how the next characters are read only if the host offers a part of it and
does not offer everything, for a host that offers everything has lost track of its own grammar.
A host may also write the open literal into a buffer of its own and come back with a fresh
recognizer later; the main statement is that nothing is lost on that way.
-/

set_option autoImplicit false
set_option relaxedAutoImplicit false

namespace LuaLiterals

/-- The phase in which the inside of an open literal is read. -/
def Literal.entry : Literal → Phase
  | .short quote => .quoted quote false
  | .long level => .body .string level false

structure Recognizer where
  dialect : Dialect
  opened : Option Literal
deriving DecidableEq, Repr

namespace Recognizer

/-- Nothing is open, in the plain dialect. -/
def initial : Recognizer := ⟨.plain, none⟩

def reset (recognizer : Recognizer) : Recognizer := { recognizer with opened := none }

/-- The open literal that the next scan goes on with, if it goes on with one. -/
def resumed (recognizer : Recognizer) (offer : Offer) : Option Literal :=
  if offer.continues && !offer.isRecovery then recognizer.opened else none

/-- The phase in which a scan begins. -/
def entry (recognizer : Recognizer) (offer : Offer) : Phase :=
  match recognizer.resumed offer with
  | some literal => literal.entry
  | none => if offer.opens then .gap else .settled .declined

/-- Looks for one of the offered kinds at the front of the characters ahead. -/
def scan (recognizer : Recognizer) (offer : Offer) (ahead : List Char) : Scan :=
  (recognizer.entry offer).run ⟨recognizer.dialect, offer⟩ ahead

/-- The recognizer behind a scan with this result. -/
def after (recognizer : Recognizer) : Option Found → Recognizer
  | some found => { recognizer with opened := found.openedAfter recognizer.opened }
  | none => recognizer

/-- Reads a snapshot. Bytes that are none leave nothing open, and are reported. -/
def restore (recognizer : Recognizer) (bytes : List UInt8) :
    Option Snapshot.Defect × Recognizer :=
  match Snapshot.decode bytes with
  | .ok opened => (none, { recognizer with opened })
  | .error defect => (some defect, recognizer.reset)

/-- The number of bytes a host sets aside for a snapshot. -/
def bufferSize : Nat := 1024

/-- The snapshot as it stands in a host's buffer. -/
def kept (recognizer : Recognizer) : List UInt8 :=
  let written := Snapshot.write recognizer.opened (List.replicate bufferSize 0)
  written.2.take written.1

/-- The recognizer that a host makes anew from the snapshot it kept. -/
def revive (recognizer : Recognizer) : Except Snapshot.Defect Recognizer :=
  (Snapshot.decode recognizer.kept).map fun opened ↦ ⟨recognizer.dialect, opened⟩

theorem kept_eq_encode (recognizer : Recognizer) :
    recognizer.kept = Snapshot.encode recognizer.opened := by
  refine Snapshot.take_write recognizer.opened ?_
  rw [List.length_replicate]
  decide

/-- Nothing is lost on the way through a host's buffer. -/
theorem revive_eq_ok (recognizer : Recognizer) : recognizer.revive = .ok recognizer := by
  rw [revive, kept_eq_encode, Snapshot.decode_encode]
  rfl

end Recognizer

end LuaLiterals
