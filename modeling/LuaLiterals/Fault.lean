import LuaLiterals.Kind
import LuaLiterals.Snapshot

/-!
What can end the splitting of a source early: a literal that is not finished, or a snapshot of
the open literal that cannot be read back.
-/

set_option autoImplicit false
set_option relaxedAutoImplicit false

namespace LuaLiterals

/-- A cause, apart from the place where it shows. -/
inductive Cause
  /-- A short literal breaks off where this kind was still to come. -/
  | unfinishedString (expected : Kind)
  | unfinishedLongString
  | lostState (defect : Snapshot.Defect)
deriving DecidableEq, Repr

namespace Cause

def message : Cause → String
  | unfinishedString expected => s!"unfinished string, expected {expected.name}"
  | unfinishedLongString => "unfinished long string"
  | lostState defect => s!"scanner state lost across suspension: {defect.message}"

/-- The messages of what lies behind the cause, if anything does. -/
def reasons : Cause → List String
  | lostState defect => [defect.message]
  | _ => []

end Cause

structure Fault where
  cause : Cause
  line : Nat
  column : Nat
deriving DecidableEq, Repr

namespace Fault

def message (fault : Fault) : String := s!"{fault.cause.message} at {fault.line}:{fault.column}"

/-- The messages of the cause and of what lies behind it. -/
def reasons (fault : Fault) : List String := fault.cause.message :: fault.cause.reasons

end Fault

end LuaLiterals
