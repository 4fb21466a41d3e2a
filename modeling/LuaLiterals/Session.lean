import LuaLiterals.Reader

/-!
What an editor does with a recognizer and a reader, one act at a time and in any order: scanning
with different offers, looking at characters and stepping over them, coming back to a place it
remembers, and putting the open literal away and taking it out again. Each act is answered, and
the session as a whole is a state that the acts transform.
-/

set_option autoImplicit false
set_option relaxedAutoImplicit false

namespace LuaLiterals

structure Session where
  source : List Char
  recognizer : Recognizer
  reader : Reader
  /-- The place to come back to. -/
  saved : Position
deriving DecidableEq, Repr

namespace Session

inductive Act
  | scan (offer : Offer)
  /-- Scans and stays where reading stopped. -/
  | readOn (offer : Offer)
  /-- Steps over a character and tells which. -/
  | take
  /-- Tells which character `take` would step over. -/
  | look
  | lookahead
  | isAt (c : Char)
  | isAtEnd
  | isAtLineEnd
  /-- Steps over this character if it comes next. -/
  | takeIf (c : Char)
  /-- Steps over a character, as a scan does when it skips or consumes one. -/
  | advance
  /-- Marks a place outside a scan, where there is no token for it to end. -/
  | mark
  | remember
  | goBack
  | goTo (position : Position)
  /-- Writes a snapshot into a buffer. -/
  | write (buffer : List UInt8)
  /-- Reads a snapshot. -/
  | read (bytes : List UInt8)
  /-- Writes a snapshot, drops the recognizer and makes another from the snapshot. -/
  | suspend
  | reset
  | setOpened (opened : Option Literal)
  | setDialect (dialect : Dialect)
  | isInitial
deriving DecidableEq, Repr

inductive Reply
  | done
  | flag (value : Bool)
  | char (c : Option Char)
  /-- A character to be measured in bytes of UTF-8. -/
  | measured (c : Option Char)
  | kind (kind : Option Kind)
  | token (found : Option Token)
  | written (count : Nat) (buffer : List UInt8)
  | read (defect : Option Snapshot.Defect)
  | kept (bytes : List UInt8)
deriving DecidableEq, Repr

def ofSource (source : List Char) (recognizer : Recognizer) : Session where
  source := source
  recognizer := recognizer
  reader := .ofSource source
  saved := .start

def step (session : Session) : Act → Reply × Session
  | .scan offer =>
    let outcome := session.reader.scan session.recognizer offer
    (.token outcome.token,
      { session with recognizer := outcome.recognizer, reader := outcome.reader })
  | .readOn offer =>
    let (kind, reader, recognizer) := session.reader.readOn session.recognizer offer
    (.kind kind, { session with recognizer, reader })
  | .take =>
    (.measured session.reader.lookahead, { session with reader := session.reader.advance 1 })
  | .look => (.measured session.reader.lookahead, session)
  | .lookahead => (.char session.reader.lookahead, session)
  | .isAt c => (.flag (session.reader.lookahead = some c), session)
  | .isAtEnd => (.flag session.reader.atEnd, session)
  | .isAtLineEnd => (.flag session.reader.atLineEnd, session)
  | .takeIf c =>
    if session.reader.lookahead = some c then
      (.flag true, { session with reader := session.reader.advance 1 })
    else (.flag false, session)
  | .advance => (.done, { session with reader := session.reader.advance 1 })
  | .mark => (.done, session)
  | .remember => (.done, { session with saved := session.reader.position })
  | .goBack => (.done, { session with reader := .ofPosition session.source session.saved })
  | .goTo position => (.done, { session with reader := .ofPosition session.source position })
  | .write buffer =>
    let (count, buffer) := Snapshot.write session.recognizer.opened buffer
    (.written count buffer, session)
  | .read bytes =>
    let (defect, recognizer) := session.recognizer.restore bytes
    (.read defect, { session with recognizer })
  | .suspend =>
    let bytes := session.recognizer.kept
    (.kept bytes, { session with recognizer := (session.recognizer.reset.restore bytes).2 })
  | .reset => (.done, { session with recognizer := session.recognizer.reset })
  | .setOpened opened =>
    (.done, { session with recognizer := { session.recognizer with opened } })
  | .setDialect dialect =>
    (.done, { session with recognizer := { session.recognizer with dialect } })
  | .isInitial => (.flag (session.recognizer = .initial), session)

/-- Each act's reply, with the session behind it. -/
def run (session : Session) : List Act → List (Reply × Session)
  | [] => []
  | act :: acts => session.step act :: (session.step act).2.run acts

end Session

end LuaLiterals
