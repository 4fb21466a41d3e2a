import LuaLiterals.Scan

/-!
A host that hands out its input one code at a time. It answers two questions, whether the input
is at its end and which code comes next, and takes the three calls of the automaton. A code is
any integer; one that is no Unicode scalar value is read as the replacement character. The end
of the input is a place of its own and no code: up to there a zero is an ordinary character, and
so is what is read where the host has no code to show.

The automaton runs against the device step by step, without any text to look ahead in.
-/

set_option autoImplicit false
set_option relaxedAutoImplicit false

namespace LuaLiterals

/-- The replacement character, read for a code that is no character. -/
def replacement : Char := Char.ofNat 0xFFFD

def charOfCode (code : Int) : Char :=
  if 0 ≤ code ∧ code.toNat.isValidChar then Char.ofNat code.toNat else replacement

structure Device where
  codes : Array Int
  /-- The place where the input ends. -/
  limit : Nat
  place : Nat
  /-- The beginning of the token, in a scan. -/
  start : Nat
  consumed : Bool
  mark : Option Nat
  /-- The calls of a scan, the latest first. -/
  log : List Call
deriving DecidableEq, Repr

namespace Device

def ofCodes (codes : Array Int) (limit : Nat) : Device := ⟨codes, limit, 0, 0, false, none, []⟩

/-- The code in front of the device; a host shows zero where it has none. -/
def code (device : Device) : Int := device.codes[device.place]?.getD 0

def lookahead (device : Device) : Option Char :=
  if device.limit ≤ device.place then none else some (charOfCode device.code)

/-- Nothing is known of a token yet. -/
def beginScan (device : Device) : Device :=
  { device with start := device.place, consumed := false, mark := none, log := [] }

def call (device : Device) : Call → Device
  | .skip =>
    { device with
      place := device.place + 1
      start := if device.consumed then device.start else device.place + 1
      log := .skip :: device.log }
  | .consume =>
    { device with place := device.place + 1, consumed := true, log := .consume :: device.log }
  | .mark => { device with mark := some device.place, log := .mark :: device.log }

theorem place_foldl_consuming (device : Device) (marked : Bool) :
    ((Call.consuming marked).foldl call device).place = device.place + 1 := by
  cases marked <;> rfl

theorem limit_foldl_consuming (device : Device) (marked : Bool) :
    ((Call.consuming marked).foldl call device).limit = device.limit := by
  cases marked <;> rfl

theorem place_lt_limit_of_lookahead {device : Device} {c : Char}
    (h : device.lookahead = some c) : device.place < device.limit := by
  unfold lookahead at h
  split at h
  next => cases h
  next hlt => exact Nat.lt_of_not_le hlt

/-- Runs the automaton from a phase, asking for one character at a time. -/
def run (demand : Demand) (phase : Phase) (device : Device) : Option Found × Device :=
  match _h : device.lookahead with
  | none =>
    let ending := phase.ending demand.offer
    (ending.found, ending.scan.calls.foldl call device)
  | some c =>
    match phase.step demand c with
    | .skip next => (device.call .skip).run demand next
    | .consume marked next => ((Call.consuming marked).foldl call device).run demand next
    | .halt ending => (ending.found, ending.scan.calls.foldl call device)
termination_by device.limit - device.place
decreasing_by
  · have hlt := place_lt_limit_of_lookahead _h
    simp only [call]
    omega
  · have hlt := place_lt_limit_of_lookahead _h
    rw [limit_foldl_consuming, place_foldl_consuming]
    omega

/-- Goes to the end of the token found, or back to where the scan began. -/
def settle (device : Device) (origin : Nat) (found : Bool) : Device :=
  { device with place := if found then device.mark.getD device.place else origin }

/-- Steps over one code outside a scan, if there is one. -/
def advance (device : Device) : Device :=
  if device.place < device.codes.size then { device with place := device.place + 1 } else device

end Device

end LuaLiterals
