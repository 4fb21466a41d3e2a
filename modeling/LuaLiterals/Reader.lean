import LuaLiterals.Position
import LuaLiterals.Recognizer
import LuaLiterals.Scan.Progress

/-!
Reading a source text from front to back. A reader is a place in the text together with the
characters ahead of it. A scan that finds a token moves the reader to the end of that token,
wherever reading itself stopped, and a scan that finds none leaves the reader where it was. The
main statement is that a token shortens what lies ahead.
-/

set_option autoImplicit false
set_option relaxedAutoImplicit false

namespace LuaLiterals

structure Token where
  kind : Kind
  start : Position
  stop : Position
  text : List Char
deriving DecidableEq, Repr

structure Reader where
  position : Position
  ahead : List Char
deriving DecidableEq, Repr

/-- The characters left when `count` bytes are taken off the front. -/
def dropBytes (count : Nat) : List Char → List Char
  | [] => []
  | c :: text =>
    if c.utf8Size ≤ count then dropBytes (count - c.utf8Size) text else c :: text

namespace Reader

def ofSource (source : List Char) : Reader := ⟨.start, source⟩

/-- A reader in the middle of a source. The byte of the position says where, and the rest of the
position is taken on trust. -/
def ofPosition (source : List Char) (position : Position) : Reader :=
  ⟨position, dropBytes position.byte source⟩

def lookahead (reader : Reader) : Option Char := reader.ahead.head?

def atEnd (reader : Reader) : Bool := reader.ahead.isEmpty

/-- At the end of the source or in front of a line feed. -/
def atLineEnd (reader : Reader) : Bool := reader.lookahead.all (· = '\n')

/-- Moves past `count` characters, or as many as there are. -/
def advance (reader : Reader) (count : Nat) : Reader where
  position := reader.position.after (reader.ahead.take count)
  ahead := reader.ahead.drop count

/-- The characters ahead that lie in front of a later place. -/
def upTo (reader : Reader) (place : Position) : List Char :=
  reader.ahead.take (place.char - reader.position.char)

/-- The piece of text that a run has delimited. -/
def token (reader : Reader) (kind : Kind) (extent : Extent) : Token :=
  let text := (reader.ahead.take extent.stop).drop extent.start
  let start := reader.position.after (reader.ahead.take extent.start)
  { kind, start, stop := start.after text, text }

/-- What a scan leaves behind. -/
structure Outcome where
  token : Option Token
  reader : Reader
  recognizer : Recognizer
deriving DecidableEq, Repr

/-- Scans for one of the offered kinds and goes to the end of the token found, or back to where
it began. -/
def scan (reader : Reader) (recognizer : Recognizer) (offer : Offer) : Outcome :=
  let scan := recognizer.scan offer reader.ahead
  { token := scan.found.map fun found ↦ reader.token found.kind scan.extent
    reader := if scan.found.isSome then reader.advance scan.extent.stop else reader
    recognizer := recognizer.after scan.found }

/-- Scans and stays where reading stopped, whatever was found. -/
def readOn (reader : Reader) (recognizer : Recognizer) (offer : Offer) :
    Option Kind × Reader × Recognizer :=
  let scan := recognizer.scan offer reader.ahead
  (scan.found.map Found.kind, reader.advance scan.extent.read, recognizer.after scan.found)

end Reader

theorem Recognizer.holds_entry (recognizer : Recognizer) (offer : Offer) :
    (recognizer.entry offer).Holds .initial := by
  unfold entry
  cases recognizer.resumed offer with
  | none => cases offer.opens <;> simp [Phase.Holds, Extent.initial, Ending.declined]
  | some literal => cases literal <;> simp [Literal.entry, Phase.Holds, Extent.initial]

theorem Recognizer.start_lt_stop_scan {recognizer : Recognizer} {offer : Offer}
    {ahead : List Char} (h : (recognizer.scan offer ahead).found.isSome) :
    (recognizer.scan offer ahead).extent.start < (recognizer.scan offer ahead).extent.stop :=
  (recognizer.holds_entry offer).start_lt_stop ahead h

theorem Recognizer.read_scan_le (recognizer : Recognizer) (offer : Offer) (ahead : List Char) :
    (recognizer.scan offer ahead).extent.read ≤ ahead.length := by
  have hread := Phase.read_run_le ⟨recognizer.dialect, offer⟩ (recognizer.entry offer)
    .initial ahead
  simp only [Extent.initial, Nat.zero_add] at hread
  exact hread

theorem Recognizer.stop_scan_le (recognizer : Recognizer) (offer : Offer) (ahead : List Char) :
    (recognizer.scan offer ahead).extent.stop ≤ ahead.length := by
  have hstop := Extent.stop_foldl_le .initial (recognizer.scan offer ahead).calls (Nat.le_refl 0)
  exact Nat.le_trans hstop (recognizer.read_scan_le offer ahead)

/-- There is no token behind the last character. -/
theorem Recognizer.found_scan_nil (recognizer : Recognizer) (offer : Offer) :
    (recognizer.scan offer []).found = none := by
  unfold scan entry
  cases recognizer.resumed offer with
  | none => cases offer.opens <;> rfl
  | some literal => cases literal <;> rfl

/-- A scan that finds nothing leaves the reader and the recognizer as they were. -/
theorem Reader.scan_of_found_none {reader : Reader} {recognizer : Recognizer} {offer : Offer}
    (h : (recognizer.scan offer reader.ahead).found = none) :
    reader.scan recognizer offer = ⟨none, reader, recognizer⟩ := by
  simp only [scan, h, Recognizer.after]
  rfl

/-- Fewer characters lie ahead after a token than before it. -/
theorem Reader.length_ahead_lt_of_scan {reader : Reader} {recognizer : Recognizer}
    {offer : Offer} (h : (reader.scan recognizer offer).token.isSome) :
    (reader.scan recognizer offer).reader.ahead.length < reader.ahead.length := by
  simp only [scan, Option.isSome_map] at h ⊢
  have hlt := Recognizer.start_lt_stop_scan h
  have hle := recognizer.stop_scan_le offer reader.ahead
  simp only [h, if_true, advance, List.length_drop]
  omega

end LuaLiterals
