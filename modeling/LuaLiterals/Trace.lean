import LuaLiterals.Recognizer

/-!
What a host sees of a series of scans over one text: the calls of each, the place where reading
stopped, and where the host is afterwards. All places count characters from the beginning of the
text. Where a scan finds a token the host goes on at its end, otherwise where the scan began.
-/

set_option autoImplicit false
set_option relaxedAutoImplicit false

namespace LuaLiterals

namespace Call

/-- Equal calls next to each other, counted. -/
def runs : List Call → List (Call × Nat)
  | [] => []
  | call :: calls =>
    match runs calls with
    | [] => [(call, 1)]
    | (other, count) :: rest =>
      if call = other then (call, count + 1) :: rest else (call, 1) :: (other, count) :: rest

def letter : Call → String
  | skip => "S"
  | consume => "C"
  | mark => "M"

/-- Calls in short, each run of equal ones as a letter and its length. -/
def shorthand (calls : List Call) : String :=
  String.join ((runs calls).map fun (call, count) ↦ s!"{call.letter}{count}")

end Call

namespace Trace

/-- One scan as its host sees it. -/
structure Visit where
  kind : Option Kind
  calls : List Call
  read : Nat
  /-- The beginning of the token, if there is one. -/
  start : Option Nat
  stop : Nat
  opened : Option Literal
deriving DecidableEq, Repr

/-- A scan for each offer in turn, from a place with these characters ahead. -/
def visits (recognizer : Recognizer) (place : Nat) (ahead : List Char) :
    List Offer → List Visit
  | [] => []
  | offer :: offers =>
    let scan := recognizer.scan offer ahead
    let behind := recognizer.after scan.found
    let passed := if scan.found.isSome then scan.extent.stop else 0
    { kind := scan.found.map Found.kind
      calls := scan.calls
      read := place + scan.extent.read
      start := scan.found.map fun _ ↦ place + scan.extent.start
      stop := place + passed
      opened := behind.opened } ::
      visits behind (place + passed) (ahead.drop passed) offers

end Trace

end LuaLiterals
