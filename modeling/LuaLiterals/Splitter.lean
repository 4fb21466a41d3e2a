import LuaLiterals.Fault
import LuaLiterals.Reader

/-!
Splitting a whole source into the lexemes of its comments and string literals and the text
between them. Where no literal is open the splitter looks for the next comment or opening
delimiter, and what lies in front of it is a lexeme of its own: the token is held back while that
text is handed out. Inside a literal the next part is due at once, and the source is at fault if
it does not come. A splitter may be set to suspend: it then remembers nothing but a snapshot of
the open literal from one scan to the next.
-/

set_option autoImplicit false
set_option relaxedAutoImplicit false

namespace LuaLiterals

inductive Lexeme
  | token (found : Token)
  /-- Text outside comments and literals. -/
  | text (chars : List Char) (start : Position)
deriving DecidableEq, Repr

namespace Lexeme

/-- The characters of the source that the lexeme covers. -/
def chars : Lexeme → List Char
  | token found => found.text
  | text chars _ => chars

end Lexeme

/-- The part of a literal that is due next. -/
inductive Due
  /-- No literal is open. -/
  | anything
  | contentOrClosing
  | closing
deriving DecidableEq, Repr

namespace Due

def offer : Due → Offer
  | anything => .outside
  | contentOrClosing => .inside
  | closing => { Offer.inside with content := false }

def after : Kind → Due
  | .opening => contentOrClosing
  | .content => closing
  | .comment | .closing => anything

/-- The kind reported as missing when a short literal is not finished. -/
def expected : Due → Kind
  | closing => .closing
  | anything | contentOrClosing => .content

end Due

structure Splitter where
  reader : Reader
  recognizer : Recognizer
  due : Due
  suspends : Bool
  /-- A token found behind text that was handed out before it. -/
  held : Option Token
  finished : Bool
deriving DecidableEq, Repr

namespace Splitter

def ofSource (source : List Char) (dialect : Dialect) (suspends : Bool) : Splitter where
  reader := .ofSource source
  recognizer := ⟨dialect, none⟩
  due := .anything
  suspends := suspends
  held := none
  finished := false

/-- The literal open behind everything that was found so far. -/
def opened (splitter : Splitter) : Option Literal := splitter.recognizer.opened

/-- A cause, at the place reached. -/
def fault (splitter : Splitter) (cause : Cause) : Fault where
  cause := cause
  line := splitter.reader.position.line
  column := splitter.reader.position.column

/-- Why a literal is not finished when its next part does not come. -/
def unfinished (splitter : Splitter) : Cause :=
  match splitter.opened with
  | some (.long _) => .unfinishedLongString
  | _ => .unfinishedString splitter.due.expected

/-- The recognizer for the next scan. -/
def woken (splitter : Splitter) : Except Fault Recognizer :=
  if splitter.suspends then
    splitter.recognizer.revive.mapError fun defect ↦ splitter.fault (.lostState defect)
  else .ok splitter.recognizer

theorem woken_eq_ok (splitter : Splitter) : splitter.woken = .ok splitter.recognizer := by
  unfold woken
  split
  next =>
    rw [Recognizer.revive_eq_ok]
    rfl
  next => rfl

/-- Scans for what is due. -/
def scan (splitter : Splitter) : Except Fault (Option Token × Splitter) :=
  splitter.woken.map fun recognizer ↦
    let outcome := splitter.reader.scan recognizer splitter.due.offer
    (outcome.token,
      { splitter with reader := outcome.reader, recognizer := outcome.recognizer })

/-- A scan at the end of the source finds nothing and changes nothing. -/
theorem scan_of_end {splitter : Splitter} (hend : splitter.reader.ahead = []) :
    splitter.scan = .ok (none, splitter) := by
  have hfound :
      (splitter.recognizer.scan splitter.due.offer splitter.reader.ahead).found = none := by
    rw [hend]
    exact splitter.recognizer.found_scan_nil splitter.due.offer
  rw [scan, woken_eq_ok]
  simp only [Except.map, Reader.scan_of_found_none hfound]

/-- Scans at the given place and, as long as nothing is found, at each place behind it, the end of
the source included. -/
def seekFrom (splitter : Splitter) (position : Position) :
    List Char → Except Fault (Option Token × Splitter)
  | [] => { splitter with reader := ⟨position, []⟩ }.scan
  | c :: ahead =>
    match { splitter with reader := ⟨position, c :: ahead⟩ }.scan with
    | .error fault => .error fault
    | .ok (some token, splitter) => .ok (some token, splitter)
    | .ok (none, splitter) => splitter.seekFrom (position.next c) ahead

/-- Scans at the place reached and all that follow, unless the source has been read to its end. -/
def seek (splitter : Splitter) : Except Fault (Option Token × Splitter) :=
  if splitter.reader.atEnd then .ok (none, splitter)
  else splitter.seekFrom splitter.reader.position splitter.reader.ahead

def handOut (splitter : Splitter) (token : Token) : Option Lexeme × Splitter :=
  (some (.token token), { splitter with due := .after token.kind, held := none })

/-- The next lexeme where no literal is open and no token is held back. -/
def between (splitter : Splitter) : Except Fault (Option Lexeme × Splitter) :=
  splitter.seek.map fun (found, sought) ↦
    let stop := (found.map Token.start).getD sought.reader.position
    let gap := splitter.reader.upTo stop
    if gap.isEmpty then
      match found with
      | some token => sought.handOut token
      | none => (none, sought)
    else (some (.text gap splitter.reader.position), { sought with held := found })

/-- The next lexeme inside a literal. -/
def within (splitter : Splitter) : Except Fault (Option Lexeme × Splitter) :=
  match splitter.scan with
  | .error fault => .error fault
  | .ok (some token, scanned) => .ok (scanned.handOut token)
  | .ok (none, scanned) => .error (scanned.fault scanned.unfinished)

/-- The next lexeme, or none at the end of the source. -/
def lexeme (splitter : Splitter) : Except Fault (Option Lexeme × Splitter) :=
  match splitter.held, splitter.due with
  | some token, _ => .ok (splitter.handOut token)
  | none, .anything => splitter.between
  | none, _ => splitter.within

/-- The next item: a lexeme, or the fault with which the source ends. Behind a fault, and behind
the end of the source, there is nothing. -/
def next (splitter : Splitter) : Option (Except Fault Lexeme) × Splitter :=
  if splitter.finished then (none, splitter)
  else match splitter.lexeme with
    | .ok (some lexeme, splitter) => (some (.ok lexeme), splitter)
    | .ok (none, splitter) => (none, { splitter with finished := true })
    | .error fault => (some (.error fault), { splitter with finished := true })

end Splitter

end LuaLiterals
