import LuaLiterals.Host.Session
import LuaLiterals.Proofs.Places
import LuaLiterals.Session

/-!
A host and its hooks see what a reader sees in the text that the host's codes stand for. The two
count differently: a device knows one place among its codes and asks for the end of the input
separately, while a reader has the characters ahead and a position. `Device.Tracks` relates a
device in a scan to the extent of the run (`tracks_foldl`), and a device runs the automaton like
the text it shows (`run_eq`). Each step of a host then agrees with the step of a session
(`Agrees.perform`), a host that drops its recognizer and revives it from its own bytes changes
nothing (`renew_eq`), and an induction on the steps gives
`notices_eq_session`.
-/

set_option autoImplicit false
set_option relaxedAutoImplicit false

namespace LuaLiterals

namespace Device

/-! ### The text that a device shows -/

/-- The text of all codes in front of the limit. -/
def text (device : Device) : List Char :=
  (device.codes.toList.take device.limit).map charOfCode

/-- The characters from the place of the device on. -/
def ahead (device : Device) : List Char := device.text.drop device.place

/-- The end of the input is a place the device has a code for, or the end of its codes. -/
def Fits (device : Device) : Prop := device.limit ≤ device.codes.size

variable {device : Device}

theorem length_text (h : device.Fits) : device.text.length = device.limit := by
  rw [text, List.length_map, List.length_take, Array.length_toList]
  exact Nat.min_eq_left h

/-- What the device shows next is the first of the characters ahead. -/
theorem lookahead_eq_head? (h : device.Fits) : device.lookahead = device.ahead.head? := by
  rw [ahead, List.head?_drop, lookahead]
  split
  next hlimit =>
    rw [List.getElem?_eq_none]
    rwa [length_text h]
  next hlimit =>
    have hplace : device.place < device.codes.size :=
      Nat.lt_of_lt_of_le (Nat.lt_of_not_le hlimit) h
    rw [text, List.getElem?_map, List.getElem?_take_of_lt (Nat.lt_of_not_le hlimit), code,
      Array.getElem?_toList, Array.getElem?_eq_getElem hplace]
    rfl

/-- A call leaves the codes and the limit as they are. -/
theorem fits_foldl (h : device.Fits) (calls : List Call) : (calls.foldl call device).Fits := by
  induction calls generalizing device with
  | nil => exact h
  | cons c calls ih =>
    refine ih ?_
    cases c <;> exact h

theorem text_foldl (calls : List Call) : (calls.foldl call device).text = device.text := by
  induction calls generalizing device with
  | nil => rfl
  | cons c calls ih =>
    rw [List.foldl_cons, ih]
    cases c <;> rfl

theorem ahead_skip : (device.call .skip).ahead = device.ahead.tail := by
  rw [ahead, ahead, List.tail_drop]
  rfl

theorem ahead_foldl_consuming (marked : Bool) :
    ((Call.consuming marked).foldl call device).ahead = device.ahead.tail := by
  rw [ahead, ahead, List.tail_drop, place_foldl_consuming, text_foldl]

/-- The automaton runs against the device as it does over the text that the device shows. -/
theorem run_eq (demand : Demand) (phase : Phase) (h : device.Fits) :
    device.run demand phase =
      ((phase.run demand device.ahead).found,
        (phase.run demand device.ahead).calls.foldl call device) := by
  have hlook := lookahead_eq_head? h
  induction hahead : device.ahead generalizing device phase with
  | nil =>
    rw [hahead, List.head?_nil] at hlook
    rw [run]
    split
    next => rfl
    next c heq =>
      rw [hlook] at heq
      cases heq
  | cons c ahead ih =>
    rw [hahead, List.head?_cons] at hlook
    rw [run]
    split
    next heq =>
      rw [hlook] at heq
      cases heq
    next found heq =>
      rw [hlook] at heq
      obtain rfl : c = found := Option.some.inj heq
      rw [Phase.run]
      cases phase.step demand c with
      | skip next =>
        have hfits : (device.call .skip).Fits := fits_foldl h [.skip]
        exact ih next hfits (lookahead_eq_head? hfits) (by rw [ahead_skip, hahead]; rfl)
      | consume marked next =>
        have hfits := fits_foldl h (Call.consuming marked)
        simp only [List.foldl_append]
        exact ih next hfits (lookahead_eq_head? hfits)
          (by rw [ahead_foldl_consuming, hahead]; rfl)
      | halt ending => rfl

/-! ### A device in a scan -/

/-- The device stands where an extent says that begins at `origin`. -/
structure Tracks (device : Device) (origin : Nat) (extent : Extent) : Prop where
  place : device.place = origin + extent.read
  start : device.start = origin + extent.start
  consumed : device.consumed = extent.consumed
  mark : device.mark = extent.mark.map (origin + ·)

theorem tracks_beginScan (device : Device) :
    device.beginScan.Tracks device.place .initial :=
  ⟨rfl, rfl, rfl, rfl⟩

theorem Tracks.call {origin : Nat} {extent : Extent} (h : device.Tracks origin extent)
    (c : Call) : (device.call c).Tracks origin (extent.call c) := by
  obtain ⟨hplace, hstart, hconsumed, hmark⟩ := h
  cases c with
  | skip =>
    refine ⟨?_, ?_, hconsumed, hmark⟩
    · simp only [Device.call, Extent.call, hplace, Nat.add_assoc]
    · simp only [Device.call, Extent.call, hplace, hstart, hconsumed]
      split
      next => rfl
      next => rw [Nat.add_assoc]
  | consume =>
    refine ⟨?_, hstart, rfl, hmark⟩
    simp only [Device.call, Extent.call, hplace, Nat.add_assoc]
  | mark =>
    refine ⟨hplace, hstart, hconsumed, ?_⟩
    simp only [Device.call, Extent.call, hplace, Option.map_some]

theorem tracks_foldl {origin : Nat} {extent : Extent} (h : device.Tracks origin extent)
    (calls : List Call) :
    (calls.foldl call device).Tracks origin (calls.foldl Extent.call extent) := by
  induction calls generalizing device extent with
  | nil => exact h
  | cons c calls ih => exact ih (h.call c)

/-- A token that the device has delimited ends where the extent does. -/
theorem Tracks.stop {origin : Nat} {extent : Extent} (h : device.Tracks origin extent) :
    device.mark.getD device.place = origin + extent.stop := by
  rw [h.mark, h.place, Extent.stop]
  cases extent.mark with
  | none => rfl
  | some mark => rfl

/-- The device goes to the end of the token that an extent delimits, or back where it began. -/
theorem ahead_settle (device : Device) (scan : Scan) (found : Bool) :
    ((scan.calls.foldl call device.beginScan).settle device.place found).ahead =
      if found then device.ahead.drop scan.extent.stop else device.ahead := by
  have htext : ∀ place : Nat,
      ((scan.calls.foldl call device.beginScan).settle place found).text = device.text :=
    fun _ ↦ text_foldl scan.calls
  have hstop := (tracks_foldl (tracks_beginScan device) scan.calls).stop
  rw [ahead, htext]
  cases found with
  | true =>
    simp only [settle, if_true]
    rw [hstop, ahead, List.drop_drop]
    rfl
  | false => rfl

end Device

/-! ### Steps that a host and a session share -/

/-- A step that a host takes by its hooks, and a session by a reader and a recognizer. -/
inductive Errand
  | scan (flags : List Bool)
  /-- Over one character, outside a scan. -/
  | advance
  | save (buffer : List UInt8)
  | load (bytes : List UInt8)
deriving DecidableEq, Repr

/-- A token as a host sees it: its symbol, and its two ends in characters. -/
structure Sight where
  symbol : Nat
  start : Nat
  stop : Nat
deriving DecidableEq, Repr

/-- What comes of a step. -/
inductive Notice
  | done
  | scanned (found : Option Sight)
  | written (count : Nat) (buffer : List UInt8)
deriving DecidableEq, Repr

namespace Session

/-- The act of a session for a step; characters are stepped over one by one. -/
def act : Errand → Act
  | .scan flags => .scan (Offer.ofFlags flags)
  | .advance => .take
  | .save buffer => .write buffer
  | .load bytes => .read bytes

def Reply.notice : Reply → Notice
  | .token found => .scanned (found.map fun token ↦
      ⟨token.kind.symbol, token.start.char, token.stop.char⟩)
  | .written count buffer => .written count buffer
  | _ => .done

/-- What comes of each step, and the place in characters behind it. -/
def notices (session : Session) : List Errand → List (Notice × Nat)
  | [] => []
  | errand :: errands =>
    let (reply, next) := session.step (act errand)
    (reply.notice, next.reader.position.char) :: next.notices errands

end Session

namespace Host

/-- What a host does: a step that a session has too, or to drop its recognizer and make another
from the bytes it saved in a buffer. -/
inductive Task
  | shared (errand : Errand)
  | renew (buffer : Vector UInt8 Recognizer.bufferSize)

/-- The step of a session behind a task; for a session there is nothing to renew. -/
def Task.errand? : Task → Option Errand
  | shared errand => some errand
  | renew _ => none

def Reply.notice (stop : Nat) : Reply → Notice
  | .scanned report => .scanned (report.start.map fun start ↦ ⟨report.symbol, start, stop⟩)
  | .written count buffer => .written count buffer
  | .done => .done

/-- The bytes that were written. -/
def Reply.bytes : Reply → List UInt8
  | .written count buffer => buffer.take count
  | _ => []

/-- A host scans with all its arguments, and advances only in front of the limit. -/
def perform (host : Host) : Errand → Reply × Host
  | .scan flags => host.step (.scan flags none)
  | .advance =>
    if host.device.place < host.device.limit then host.step .advance else (.done, host)
  | .save buffer => host.step (.save buffer none)
  | .load bytes => host.step (.load bytes none)

/-- The host saves the open literal, drops the recognizer, makes another and loads the bytes. -/
def renew (host : Host) (buffer : List UInt8) : Host :=
  let saved := host.step (.save buffer none)
  ((saved.2.step .recreate).2.step (.load saved.1.bytes none)).2

/-- What comes of each step that a session has too, and the place behind it. -/
def notices (host : Host) : List Task → List (Notice × Nat)
  | [] => []
  | .shared errand :: tasks =>
    let (reply, next) := host.perform errand
    (reply.notice next.device.place, next.device.place) :: next.notices tasks
  | .renew buffer :: tasks => (host.renew buffer.toList).notices tasks

/-! ### Agreement -/

/-- The host and the session are at the same place of the same text, in the plain dialect, with
the same literal open. -/
structure Agrees (host : Host) (session : Session) : Prop where
  fits : host.device.Fits
  recognizer : session.recognizer = host.recognizer
  dialect : host.recognizer.dialect = .plain
  ahead : session.reader.ahead = host.device.ahead
  place : session.reader.position.char = host.device.place

variable {host : Host} {session : Session}

theorem agrees_ofCodes {codes : Array Int} {limit : Nat} (h : limit ≤ codes.size) :
    (ofCodes codes limit).Agrees
      (.ofSource ((codes.toList.take limit).map charOfCode) .initial) :=
  ⟨h, rfl, rfl, rfl, rfl⟩

/-- What the hook does in a scan with all its arguments. -/
theorem scan_eq (h : host.device.Fits) (flags : List Bool) :
    let scan := host.recognizer.scan (Offer.ofFlags flags) host.device.ahead
    let device := scan.calls.foldl Device.call host.device.beginScan
    host.scan flags none =
      ({ kind := scan.found.map Found.kind
         calls := device.log.reverse
         read := device.place
         start := scan.found.map fun _ ↦ device.start },
        { recognizer := host.recognizer.after scan.found
          device := device.settle host.device.place scan.found.isSome }) := by
  have hfits : host.device.beginScan.Fits := h
  have hahead : host.device.beginScan.ahead = host.device.ahead := rfl
  simp only [Host.scan, Hooks.scan, pass, reduceCtorEq, if_false, Option.bind_eq_bind,
    Option.bind_some, Option.getD_some, Device.run_eq _ _ hfits, hahead]
  simp only [Option.map_map, Option.isSome_map]
  rfl

/-- A scan is noticed alike, and leaves the host and the session at the same place. -/
theorem Agrees.scan (h : host.Agrees session) (flags : List Bool) :
    (host.scan flags none).2.Agrees (session.step (.scan (Offer.ofFlags flags))).2 ∧
      Reply.notice (host.scan flags none).2.device.place (.scanned (host.scan flags none).1) =
        (session.step (.scan (Offer.ofFlags flags))).1.notice := by
  obtain ⟨hfits, hrecognizer, hdialect, hahead, hplace⟩ := h
  have hscan := scan_eq hfits flags
  have hle := host.recognizer.stop_scan_le (Offer.ofFlags flags) host.device.ahead
  have hlt := @Recognizer.start_lt_stop_scan host.recognizer (Offer.ofFlags flags)
    host.device.ahead
  simp only at hscan
  simp only [hscan, Session.step, Reader.scan, hrecognizer, hahead]
  generalize host.recognizer.scan (Offer.ofFlags flags) host.device.ahead = scan at hle hlt ⊢
  have htracks := Device.tracks_foldl (Device.tracks_beginScan host.device) scan.calls
  have hsettle := host.device.ahead_settle scan
  have hbegin : host.device.beginScan.Fits := hfits
  have hend := Device.fits_foldl hbegin scan.calls
  rcases hfound : scan.found with _ | found
  · refine ⟨⟨hend, rfl, hdialect, ?_, hplace⟩, rfl⟩
    exact hahead.trans (hsettle false).symm
  · have hsome : scan.found.isSome = true := by rw [hfound]; rfl
    rw [← hahead] at hle
    obtain ⟨hstart, hstop⟩ := Reader.char_token found.kind (Nat.le_of_lt (hlt hsome)) hle
    have hdevice : (scan.calls.foldl Device.call host.device.beginScan).start =
        session.reader.position.char + scan.extent.start := by
      rw [htracks.start, hplace]
      rfl
    have hreached : (scan.calls.foldl Device.call host.device.beginScan).mark.getD
        (scan.calls.foldl Device.call host.device.beginScan).place =
          session.reader.position.char + scan.extent.stop := by
      rw [htracks.stop, hplace]
      rfl
    refine ⟨⟨hend, rfl, ?_, ?_, ?_⟩, ?_⟩
    · cases found <;> exact hdialect
    · exact (congrArg (List.drop scan.extent.stop) hahead).trans (hsettle true).symm
    · exact (Reader.char_advance hle).trans hreached.symm
    · simp only [Reply.notice, Session.Reply.notice, Option.map_some, Report.symbol, Option.elim,
        Device.settle, Option.isSome_some, if_true]
      rw [hdevice, hreached, hstart, hstop]
      rfl

/-- Stepping over a character in front of the limit. At the limit both stay where they are. -/
theorem Agrees.advance (h : host.Agrees session) :
    (host.perform .advance).2.Agrees (session.step .take).2 := by
  obtain ⟨hfits, hrecognizer, hdialect, hahead, hplace⟩ := h
  have hlength : host.device.ahead.length = host.device.limit - host.device.place := by
    rw [Device.ahead, List.length_drop, Device.length_text hfits]
  simp only [perform, Session.step]
  by_cases hlimit : host.device.place < host.device.limit
  · have hsize : host.device.place < host.device.codes.size := Nat.lt_of_lt_of_le hlimit hfits
    rw [if_pos hlimit]
    simp only [Host.step, Device.advance, if_pos hsize]
    refine ⟨hfits, hrecognizer, hdialect, ?_, ?_⟩
    · simp only [Reader.advance, hahead, Device.ahead, List.drop_drop]
      rfl
    · have hone : 1 ≤ session.reader.ahead.length := by
        rw [hahead, hlength]
        omega
      rw [Reader.char_advance hone, hplace]
  · have hnil : session.reader.ahead = [] := by
      rw [hahead, ← List.length_eq_zero_iff, hlength]
      omega
    rw [if_neg hlimit]
    refine ⟨hfits, hrecognizer, hdialect, ?_, ?_⟩
    · rw [← hahead]
      simp only [Reader.advance, hnil, List.drop_nil]
    · simp only [Reader.advance, hnil, List.take_nil, Position.after_nil, hplace]

/-- Reading bytes leaves the same literal open, whether or not they are a snapshot. -/
theorem Agrees.load (h : host.Agrees session) (bytes : List UInt8) :
    (host.perform (.load bytes)).2.Agrees (session.step (.read bytes)).2 := by
  obtain ⟨hfits, hrecognizer, hdialect, hahead, hplace⟩ := h
  refine ⟨hfits, ?_, ?_, hahead, hplace⟩
  · simp only [Session.step, hrecognizer]
    rfl
  · change (host.recognizer.restore bytes).2.dialect = .plain
    unfold Recognizer.restore
    cases Snapshot.decode bytes with
    | error defect => exact hdialect
    | ok opened => exact hdialect

/-- Each step that a session has too comes to the same, and keeps the agreement. -/
theorem Agrees.perform (h : host.Agrees session) (errand : Errand) :
    (host.perform errand).2.Agrees (session.step (Session.act errand)).2 ∧
      (host.perform errand).1.notice (host.perform errand).2.device.place =
        (session.step (Session.act errand)).1.notice := by
  cases errand with
  | scan flags => exact h.scan flags
  | advance =>
    refine ⟨h.advance, ?_⟩
    simp only [Host.perform]
    split
    next => rfl
    next => rfl
  | save buffer =>
    refine ⟨h, ?_⟩
    change Notice.written _ _ = Notice.written _ _
    rw [h.recognizer]
  | load bytes => exact ⟨h.load bytes, rfl⟩

/-- A host that revives its recognizer from the bytes it saved is the same as before. -/
theorem renew_eq (hdialect : host.recognizer.dialect = .plain)
    (buffer : Vector UInt8 Recognizer.bufferSize) : host.renew buffer.toList = host := by
  have hsize : Snapshot.size ≤ buffer.toList.length := by
    rw [Vector.length_toList]
    decide
  have hbytes : (host.step (.save buffer.toList none)).1.bytes =
      Snapshot.encode host.recognizer.opened :=
    Snapshot.take_write host.recognizer.opened hsize
  have hrestored : (Recognizer.initial.restore (Snapshot.encode host.recognizer.opened)).2 =
      host.recognizer := by
    rw [Recognizer.restore, Snapshot.decode_encode]
    simp only [Recognizer.initial]
    rw [← hdialect]
  have hload : (({ host with recognizer := Hooks.create } : Host).step
      (.load (Snapshot.encode host.recognizer.opened) none)).2 =
        { host with
          recognizer := (Recognizer.initial.restore
            (Snapshot.encode host.recognizer.opened)).2 } := rfl
  rw [renew, hbytes]
  exact hload.trans (by rw [hrestored])

/-- From where a host and a session agree, they notice the same. -/
theorem Agrees.notices (h : host.Agrees session) (tasks : List Task) :
    host.notices tasks = session.notices (tasks.filterMap Task.errand?) := by
  induction tasks generalizing host session with
  | nil => rfl
  | cons task tasks ih =>
    cases task with
    | shared errand =>
      obtain ⟨hagrees, hnotice⟩ := h.perform errand
      have hfilter : (Task.shared errand :: tasks).filterMap Task.errand? =
          errand :: tasks.filterMap Task.errand? := List.filterMap_cons_some rfl
      rw [hfilter, Host.notices, Session.notices]
      simp only
      rw [hnotice, hagrees.place, ih hagrees]
    | renew buffer =>
      have hfilter : (Task.renew buffer :: tasks).filterMap Task.errand? =
          tasks.filterMap Task.errand? := List.filterMap_cons_none rfl
      rw [hfilter, Host.notices, renew_eq h.dialect]
      exact ih h

/-- The hooks report at every step what a session reports over the text that the codes in front
of the limit stand for, however often the host revives its recognizer in between. -/
theorem notices_eq_session {codes : Array Int} {limit : Nat} (hlimit : limit ≤ codes.size)
    (tasks : List Task) :
    (ofCodes codes limit).notices tasks =
      (Session.ofSource ((codes.toList.take limit).map charOfCode) .initial).notices
        (tasks.filterMap Task.errand?) :=
  (agrees_ofCodes hlimit).notices tasks

/-- A long string with a null, a code that is no character and a near miss of its closing bracket,
cut off in front of its last code. The recognizer is renewed inside it, and then reset by bytes
that are no snapshot. -/
theorem notices_eq_session_of_cut_codes :
    10 ≤ (#[32, 91, 61, 91, 0, 55296, 93, 93, 61, 93, 39] : Array Int).size ∧
      (ofCodes #[32, 91, 61, 91, 0, 55296, 93, 93, 61, 93, 39] 10).notices
        [.shared (.scan [true, true, false, false]), .renew (Vector.replicate _ 170),
          .shared (.scan [false, false, true, true]), .shared (.save [9, 9, 9, 9, 9, 9, 9]),
          .renew (Vector.replicate _ 0), .shared (.scan [false, false, false, true]),
          .shared (.load [7, 7]), .shared .advance, .shared (.scan [true, true, false, false])] =
        [(.scanned (some ⟨1, 1, 4⟩), 4), (.scanned (some ⟨2, 4, 7⟩), 7),
          (.written 6 [0, 1, 1, 0, 0, 0, 9], 7), (.scanned (some ⟨3, 7, 10⟩), 10),
          (.done, 10), (.done, 10), (.scanned none, 10)] :=
  ⟨by decide, (notices_eq_session (by decide) _).trans (by decide)⟩

end Host

end LuaLiterals
