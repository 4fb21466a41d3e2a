import LuaLiterals.Proofs.Places
import LuaLiterals.Session
import LuaLiterals.Trace

/-!
Visits and sessions. A trace counts its places in characters and goes on behind a token by itself;
a session moves a reader. `visits_eq_run` says that they tell the same: a trace is what a session
sees that is asked for the same scans one after the other. In particular a trace repositions its
host as `Reader.scan` does, and it says of each scan where `Reader.readOn` would have stopped.
-/

set_option autoImplicit false
set_option relaxedAutoImplicit false

namespace LuaLiterals

/-- A scan of a session as its host sees it. -/
def Session.visit (session : Session) (offer : Offer) : Trace.Visit where
  kind := (session.reader.scan session.recognizer offer).token.map Token.kind
  calls := (session.recognizer.scan offer session.reader.ahead).calls
  read := (session.reader.readOn session.recognizer offer).2.1.position.char
  start := (session.reader.scan session.recognizer offer).token.map fun token ↦ token.start.char
  stop := (session.reader.scan session.recognizer offer).reader.position.char
  opened := (session.reader.scan session.recognizer offer).recognizer.opened

namespace Trace

/-- Where a trace goes on behind a scan is where the reader of a session does. -/
theorem passed_eq (reader : Reader) (recognizer : Recognizer) (offer : Offer) :
    let scan := recognizer.scan offer reader.ahead
    let passed := if scan.found.isSome then scan.extent.stop else 0
    (reader.scan recognizer offer).reader.position.char = reader.position.char + passed ∧
      (reader.scan recognizer offer).reader.ahead = reader.ahead.drop passed := by
  intro scan passed
  have hstop := recognizer.stop_scan_le offer reader.ahead
  cases hfound : scan.found.isSome with
  | true =>
    have hreader : (reader.scan recognizer offer).reader = reader.advance scan.extent.stop :=
      if_pos hfound
    have hpassed : passed = scan.extent.stop := if_pos hfound
    rw [hreader, hpassed]
    exact ⟨Reader.char_advance hstop, rfl⟩
  | false =>
    have hreader : (reader.scan recognizer offer).reader = reader :=
      if_neg (Bool.eq_false_iff.mp hfound)
    have hpassed : passed = 0 := if_neg (Bool.eq_false_iff.mp hfound)
    rw [hreader, hpassed]
    exact ⟨rfl, rfl⟩

/-- The beginning of a token, in characters. -/
theorem start_eq (reader : Reader) (recognizer : Recognizer) (offer : Offer) :
    (reader.scan recognizer offer).token.map (fun token ↦ token.start.char) =
      (recognizer.scan offer reader.ahead).found.map fun _ ↦
        reader.position.char + (recognizer.scan offer reader.ahead).extent.start := by
  have hstop := recognizer.stop_scan_le offer reader.ahead
  rw [Reader.scan, Option.map_map]
  cases hfound : (recognizer.scan offer reader.ahead).found with
  | none => rfl
  | some found =>
    have hlt := Recognizer.start_lt_stop_scan (Option.isSome_of_eq_some hfound)
    have htoken := Reader.char_token found.kind (Nat.le_of_lt hlt) hstop
    exact congrArg some htoken.1

/-- One scan of a trace, and where the trace goes on. -/
theorem visits_cons (session : Session) (offer : Offer) (offers : List Offer) :
    visits session.recognizer session.reader.position.char session.reader.ahead
        (offer :: offers) =
      session.visit offer ::
        visits (session.step (.scan offer)).2.recognizer
          (session.step (.scan offer)).2.reader.position.char
          (session.step (.scan offer)).2.reader.ahead offers := by
  obtain ⟨hstop, hahead⟩ := passed_eq session.reader session.recognizer offer
  have hstart := start_eq session.reader session.recognizer offer
  have hread := Reader.char_advance
    (session.recognizer.read_scan_le offer session.reader.ahead)
  have hkind : (session.reader.scan session.recognizer offer).token.map Token.kind =
      (session.recognizer.scan offer session.reader.ahead).found.map Found.kind := by
    rw [Reader.scan, Option.map_map]
    rfl
  simp only [visits, Session.visit, Session.step, Reader.readOn, hstop, hahead, hstart, hread,
    hkind]
  rfl

/-- A trace over what lies ahead of a session shows each scan as that session does, if it is asked
for the same scans. -/
theorem visits_eq_run (session : Session) (offers : List Offer) :
    visits session.recognizer session.reader.position.char session.reader.ahead offers =
      List.zipWith Session.visit (session :: (session.run (offers.map .scan)).map Prod.snd)
        offers := by
  induction offers generalizing session with
  | nil => rfl
  | cons offer offers ih =>
    rw [visits_cons, ih]
    rfl

end Trace

end LuaLiterals
