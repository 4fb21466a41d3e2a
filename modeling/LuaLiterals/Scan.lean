import LuaLiterals.Phase

/-!
Running the automaton over the characters ahead. A run is told by the calls it makes on whoever
holds those characters, skips, consumes and marks in their order, and by what it finds. The
calls alone settle where the token lies: it begins behind the skips and ends at the last mark,
or where reading stopped if there is none.
-/

set_option autoImplicit false
set_option relaxedAutoImplicit false

namespace LuaLiterals

inductive Call
  | skip
  | consume
  | mark
deriving DecidableEq, Repr

/-- One run: its calls in order, and the token found. -/
structure Scan where
  calls : List Call
  found : Option Found
deriving DecidableEq, Repr

/-- The calls with which a run ends. -/
def Ending.scan (ending : Ending) : Scan := ⟨if ending.marked then [.mark] else [], ending.found⟩

/-- The calls with which a character is consumed. -/
def Call.consuming (marked : Bool) : List Call := if marked then [mark, consume] else [consume]

/-- The run of the automaton from a phase over the characters ahead, up to where it halts. -/
def Phase.run (demand : Demand) (phase : Phase) : List Char → Scan
  | [] => (phase.ending demand.offer).scan
  | c :: ahead =>
    match phase.step demand c with
    | .skip next =>
      let scan := next.run demand ahead
      ⟨.skip :: scan.calls, scan.found⟩
    | .consume marked next =>
      let scan := next.run demand ahead
      ⟨Call.consuming marked ++ scan.calls, scan.found⟩
    | .halt ending => ending.scan

/-- Where a run stands, in characters from where it began: the beginning of its token, the place
read up to, whether anything was consumed yet, and the last mark. -/
structure Extent where
  start : Nat
  read : Nat
  consumed : Bool
  mark : Option Nat
deriving DecidableEq, Repr

namespace Extent

def initial : Extent := ⟨0, 0, false, none⟩

/-- A skip moves the beginning of the token as long as nothing belongs to it. -/
def call (extent : Extent) : Call → Extent
  | .skip =>
    { extent with
      start := if extent.consumed then extent.start else extent.read + 1
      read := extent.read + 1 }
  | .consume => { extent with read := extent.read + 1, consumed := true }
  | .mark => { extent with mark := some extent.read }

/-- The end of the token. -/
def stop (extent : Extent) : Nat := extent.mark.getD extent.read

end Extent

def Scan.extent (scan : Scan) : Extent := scan.calls.foldl Extent.call .initial

end LuaLiterals
