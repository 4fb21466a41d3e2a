import LuaLiterals.Host.Device
import LuaLiterals.Recognizer

/-!
The hooks by which a host grammar drives a recognizer. A host may leave any argument out, which
is `none` here. A hook that lacks one does nothing, with one exception: reading a snapshot
without bytes resets the recognizer. A snapshot that cannot be read resets it too, and the host
is not told.
-/

set_option autoImplicit false
set_option relaxedAutoImplicit false

namespace LuaLiterals

namespace Hooks

/-- A new recognizer, in the plain dialect. -/
def create : Recognizer := .initial

/-- What a scan leaves behind. -/
structure Outcome where
  kind : Option Kind
  recognizer : Recognizer
  device : Device
deriving DecidableEq, Repr

/-- Scans the device's input for the kinds whose flags are set. -/
def scan (recognizer : Option Recognizer) (device : Option Device) (flags : Option (List Bool)) :
    Option Outcome := do
  let recognizer ← recognizer
  let device ← device
  let offer := Offer.ofFlags (← flags)
  let (found, device) := device.run ⟨recognizer.dialect, offer⟩ (recognizer.entry offer)
  some { kind := found.map Found.kind, recognizer := recognizer.after found, device }

/-- Writes a snapshot into the host's buffer, and says how many bytes it takes there. -/
def save (recognizer : Option Recognizer) (buffer : Option (List UInt8)) :
    Option (Nat × List UInt8) := do
  let recognizer ← recognizer
  some (Snapshot.write recognizer.opened (← buffer))

/-- Reads a snapshot that the host kept. -/
def load (recognizer : Option Recognizer) (bytes : Option (List UInt8)) :
    Option Recognizer := do
  let recognizer ← recognizer
  match bytes with
  | some bytes => some (recognizer.restore bytes).2
  | none => some recognizer.reset

end Hooks

end LuaLiterals
