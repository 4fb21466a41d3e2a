import LuaLiterals.Host.Hooks

/-!
A host at work: it calls the hooks in any order, moves its device on between scans, and may leave
an argument out of any call. After a scan that found a token it goes on at the token's end, after
any other where the scan began.
-/

set_option autoImplicit false
set_option relaxedAutoImplicit false

namespace LuaLiterals

structure Host where
  recognizer : Recognizer
  device : Device
deriving DecidableEq, Repr

namespace Host

/-- An argument of a hook. -/
inductive Argument
  | recognizer
  | device
  | flags
  | buffer
deriving DecidableEq, Repr

inductive Act
  | scan (flags : List Bool) (without : Option Argument)
  /-- The device moves on by one code. -/
  | advance
  | save (buffer : List UInt8) (without : Option Argument)
  | load (bytes : List UInt8) (without : Option Argument)
  /-- The recognizer is dropped, and a new one made. -/
  | recreate
  /-- A recognizer that does not exist is dropped. -/
  | dropNothing
deriving DecidableEq, Repr

/-- What the host has seen of a scan. -/
structure Report where
  kind : Option Kind
  calls : List Call
  /-- Where reading stopped. -/
  read : Nat
  /-- The beginning of the token, if there is one. -/
  start : Option Nat
deriving DecidableEq, Repr

inductive Reply
  | done
  | scanned (report : Report)
  | written (count : Nat) (buffer : List UInt8)
deriving DecidableEq, Repr

/-- What stands in the host's place for a symbol until a scan finds one. -/
def noSymbol : Nat := 65535

/-- The symbol the host reads after the scan. -/
def Report.symbol (report : Report) : Nat := report.kind.elim noSymbol Kind.symbol

def ofCodes (codes : Array Int) (limit : Nat) : Host := ⟨Hooks.create, .ofCodes codes limit⟩

/-- An argument as the hook gets it. -/
def pass {α : Type} (without : Option Argument) (argument : Argument) (value : α) : Option α :=
  if without = some argument then none else some value

def scan (host : Host) (flags : List Bool) (without : Option Argument) : Report × Host :=
  let begun := host.device.beginScan
  let outcome := (Hooks.scan (pass without .recognizer host.recognizer)
    (pass without .device begun) (pass without .flags flags)).getD
      ⟨none, host.recognizer, begun⟩
  let device := outcome.device
  ({ kind := outcome.kind
     calls := device.log.reverse
     read := device.place
     start := outcome.kind.map fun _ ↦ device.start },
    { recognizer := outcome.recognizer
      device := device.settle host.device.place outcome.kind.isSome })

def step (host : Host) : Act → Reply × Host
  | .scan flags without =>
    let (report, host) := host.scan flags without
    (.scanned report, host)
  | .advance => (.done, { host with device := host.device.advance })
  | .save buffer without =>
    let (count, buffer) := (Hooks.save (pass without .recognizer host.recognizer)
      (pass without .buffer buffer)).getD (0, buffer)
    (.written count buffer, host)
  | .load bytes without =>
    let recognizer := (Hooks.load (pass without .recognizer host.recognizer)
      (pass without .buffer bytes)).getD host.recognizer
    (.done, { host with recognizer })
  | .recreate => (.done, { host with recognizer := Hooks.create })
  | .dropNothing => (.done, host)

/-- Each act's reply, with the host behind it. -/
def run (host : Host) : List Act → List (Reply × Host)
  | [] => []
  | act :: acts => host.step act :: (host.step act).2.run acts

end Host

end LuaLiterals
