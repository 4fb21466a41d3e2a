import LuaLiterals.Proofs.History
import LuaLiterals.Proofs.Places

/-!
Where a session can be. A reader counts bytes, characters, lines and columns along as it goes, and
goes back: behind a token that it read past, to where a scan began that found nothing, to a place it
remembered or is sent to. `Reader.StandsAt` says that what it has counted is what the text in front
of it comes to, with the rest of the source ahead of it. Reading on keeps this (`StandsAt.advance`),
and so does coming back to the end of a text that the source begins with (`standsAt_ofPosition`).
Each act keeps it (`Placed.step`), as long as a host that goes to a position by itself has learned
it from the session, and so does a session of any length: `located_of_mem_run`.
-/

set_option autoImplicit false
set_option relaxedAutoImplicit false

namespace LuaLiterals

/-- The position is counted out behind some of the first characters of the source. -/
def Position.LiesIn (position : Position) (source : List Char) : Prop :=
  ∃ count ≤ source.length, position = .endOf (source.take count)

theorem Position.liesIn_endOf {front source : List Char} (h : front <+: source) :
    (endOf front).LiesIn source :=
  ⟨front.length, h.length_le, congrArg endOf (List.prefix_iff_eq_take.mp h)⟩

theorem Position.liesIn_start (source : List Char) : start.LiesIn source :=
  liesIn_endOf (List.nil_prefix (l := source))

namespace Reader

variable {reader : Reader} {source : List Char} {count : Nat} {position : Position}

/-- The reader has the first characters of the source behind it, and the others ahead. -/
structure StandsAt (reader : Reader) (source : List Char) (count : Nat) : Prop where
  le : count ≤ source.length
  position : reader.position = .endOf (source.take count)
  ahead : reader.ahead = source.drop count

theorem standsAt_ofSource (source : List Char) : (ofSource source).StandsAt source 0 :=
  ⟨Nat.zero_le _, rfl, rfl⟩

theorem StandsAt.liesIn (h : reader.StandsAt source count) : reader.position.LiesIn source :=
  ⟨count, h.le, h.position⟩

/-- Reading on leads to a later place, and no further than the end of the source. -/
theorem StandsAt.advance (h : reader.StandsAt source count) (more : Nat) :
    (reader.advance more).StandsAt source (min (count + more) source.length) where
  le := Nat.min_le_right _ _
  position := by
    rw [Reader.advance, h.position, h.ahead, Position.after_endOf, ← List.take_add,
      ← List.take_eq_take_min]
  ahead := by
    rw [Reader.advance, h.ahead, List.drop_drop]
    rcases Nat.le_total (count + more) source.length with hle | hle
    · rw [Nat.min_eq_left hle]
    · rw [Nat.min_eq_right hle, List.drop_length, List.drop_eq_nil_of_le hle]

/-- A reader that is sent to a place of the source stands there. -/
theorem standsAt_ofPosition (h : position.LiesIn source) :
    ∃ count, (ofPosition source position).StandsAt source count := by
  obtain ⟨count, hle, rfl⟩ := h
  refine ⟨count, hle, rfl, ?_⟩
  have hdrop := dropBytes_endOf (source.take count) (source.drop count)
  rwa [List.take_append_drop] at hdrop

theorem StandsAt.lookahead (h : reader.StandsAt source count) :
    reader.lookahead = source[count]? := by
  rw [Reader.lookahead, h.ahead, List.head?_drop]

/-- Whatever a scan finds, it leaves the reader at a place of the source. -/
theorem StandsAt.scan (h : reader.StandsAt source count) (recognizer : Recognizer)
    (offer : Offer) : ∃ later, (reader.scan recognizer offer).reader.StandsAt source later := by
  simp only [Reader.scan]
  split
  next => exact ⟨_, h.advance _⟩
  next => exact ⟨_, h⟩

/-- The two ends of a token are places of the source. -/
theorem StandsAt.token (h : reader.StandsAt source count) {recognizer : Recognizer}
    {offer : Offer} {token : Token} (htoken : (reader.scan recognizer offer).token = some token) :
    token.start.LiesIn source ∧ token.stop.LiesIn source := by
  obtain ⟨hahead, hstart, hstop, -, -⟩ := passes_of_scan htoken
  generalize reader.ahead.take _ = gap at hahead hstart
  generalize (reader.scan recognizer offer).reader.ahead = rest at hahead
  have hsource : source = (source.take count ++ gap) ++ (token.text ++ rest) := by
    rw [List.append_assoc, ← List.append_assoc gap, ← hahead, h.ahead, List.take_append_drop]
  rw [h.position, Position.after_endOf] at hstart
  rw [hstart, Position.after_endOf] at hstop
  rw [hstart, hstop]
  refine ⟨Position.liesIn_endOf ⟨_, hsource.symm⟩, Position.liesIn_endOf ⟨rest, ?_⟩⟩
  rw [List.append_assoc, ← hsource]

end Reader

namespace Session

/-! ### One act -/

/-- A character that is told to be measured, and the number of its bytes. -/
def Reply.measured? : Reply → Option (Char × Nat)
  | .measured c => c.map fun c ↦ (c, c.utf8Size)
  | _ => none

/-- The positions that a host learns from an act: the two ends of the token, if one is reported,
and the place of the reader. -/
def learned (entry : Reply × Session) : List Position :=
  entry.2.reader.position :: entry.1.token?.toList.flatMap fun token ↦ [token.start, token.stop]

/-- The session is at a place of its source, and remembers one. -/
structure Placed (session : Session) : Prop where
  reader : ∃ count, session.reader.StandsAt session.source count
  saved : session.saved.LiesIn session.source

/-- Behind an act the reader is at the end of some of the first characters of the source, and tells
the character that comes next with the number of its bytes, or that there is none. So do both ends
of the token, if one is reported. -/
structure Located (source : List Char) (entry : Reply × Session) : Prop where
  reader : ∃ count ≤ source.length, entry.2.reader.position = .endOf (source.take count) ∧
    (entry.2.step .look).1.measured? =
      source[count]?.map fun c ↦ (c, (String.utf8EncodeChar c).length)
  token : ∀ token, entry.1.token? = some token →
    token.start.LiesIn source ∧ token.stop.LiesIn source

/-- A host that goes to a position by itself goes to the start, or to a position that it has
learned from an earlier act. -/
def GoesBack (session : Session) (acts : List Act) : Prop :=
  ∀ i position, acts[i]? = some (.goTo position) →
    position = .start ∨ ∃ entry ∈ (session.run acts).take i, position ∈ learned entry

variable {session : Session} {source : List Char} {entry : Reply × Session}

theorem placed_ofSource (source : List Char) (recognizer : Recognizer) :
    (ofSource source recognizer).Placed :=
  ⟨⟨0, Reader.standsAt_ofSource source⟩, Position.liesIn_start source⟩

theorem source_step (session : Session) (act : Act) :
    (session.step act).2.source = session.source := by
  cases act with
  | takeIf c =>
    simp only [step]
    split
    next => rfl
    next => rfl
  | _ => rfl

/-- An act keeps the session at a place of its source, if it does not go to another one. -/
theorem Placed.step (h : session.Placed) (act : Act)
    (hgo : ∀ position, act = .goTo position → position.LiesIn session.source) :
    (session.step act).2.Placed := by
  obtain ⟨⟨count, hreader⟩, hsaved⟩ := h
  have hadvanced : ∀ more, ({ session with reader := session.reader.advance more }).Placed :=
    fun more ↦ ⟨⟨_, hreader.advance more⟩, hsaved⟩
  cases act with
  | scan offer => exact ⟨hreader.scan session.recognizer offer, hsaved⟩
  | readOn offer => exact ⟨⟨_, hreader.advance _⟩, hsaved⟩
  | take => exact hadvanced 1
  | advance => exact hadvanced 1
  | takeIf c =>
    simp only [Session.step]
    split
    next => exact hadvanced 1
    next => exact ⟨⟨count, hreader⟩, hsaved⟩
  | remember => exact ⟨⟨count, hreader⟩, hreader.liesIn⟩
  | goBack => exact ⟨Reader.standsAt_ofPosition hsaved, hsaved⟩
  | goTo position => exact ⟨Reader.standsAt_ofPosition (hgo position rfl), hsaved⟩
  | _ => exact ⟨⟨count, hreader⟩, hsaved⟩

/-- Only a scan reports a token. -/
theorem scan_of_token? {act : Act} {token : Token}
    (h : (session.step act).1.token? = some token) :
    ∃ offer, act = .scan offer ∧
      (session.reader.scan session.recognizer offer).token = some token := by
  cases act with
  | scan offer => exact ⟨offer, rfl, h⟩
  | takeIf c =>
    simp only [step] at h
    split at h
    next => cases h
    next => cases h
  | _ => cases h

theorem measured?_look {count : Nat} (h : session.reader.StandsAt source count) :
    (session.step .look).1.measured? =
      source[count]?.map fun c ↦ (c, (String.utf8EncodeChar c).length) := by
  simp only [step, Reply.measured?, h.lookahead, String.length_utf8EncodeChar]

theorem Placed.located (h : session.Placed) (act : Act)
    (hgo : ∀ position, act = .goTo position → position.LiesIn session.source) :
    Located session.source (session.step act) := by
  refine ⟨?_, fun token htoken ↦ ?_⟩
  · obtain ⟨count, hreader⟩ := (h.step act hgo).reader
    rw [source_step] at hreader
    exact ⟨count, hreader.le, hreader.position, measured?_look hreader⟩
  · obtain ⟨offer, -, hscan⟩ := scan_of_token? htoken
    obtain ⟨count, hreader⟩ := h.reader
    exact hreader.token hscan

/-! ### Runs -/

/-- All that a host learns from an act are places of the source. -/
theorem Located.liesIn (h : Located source entry) {position : Position}
    (hlearned : position ∈ learned entry) : position.LiesIn source := by
  rcases List.mem_cons.mp hlearned with rfl | hlearned
  · obtain ⟨count, hle, hposition, -⟩ := h.reader
    exact ⟨count, hle, hposition⟩
  · obtain ⟨token, htoken, hends⟩ := List.mem_flatMap.mp hlearned
    obtain ⟨hstart, hstop⟩ := h.token token (Option.mem_toList.mp htoken)
    rcases List.mem_cons.mp hends with rfl | hends
    · exact hstart
    · rwa [List.mem_singleton.mp hends]

/-- A session keeps to its source as long as it is sent to places of the source only, and those are
all that it has told. -/
theorem Placed.run (h : session.Placed) (acts : List Act)
    (hgo : ∀ i position, acts[i]? = some (.goTo position) → position.LiesIn session.source ∨
      ∃ entry ∈ (session.run acts).take i, position ∈ learned entry) :
    ∀ entry ∈ session.run acts, Located session.source entry := by
  induction acts generalizing session with
  | nil =>
    intro entry hentry
    exact absurd hentry List.not_mem_nil
  | cons act acts ih =>
    have hfirst : ∀ position, act = .goTo position → position.LiesIn session.source := by
      rintro position rfl
      rcases hgo 0 position rfl with hlies | ⟨entry, hentry, -⟩
      · exact hlies
      · cases hentry
    have hlocated := h.located act hfirst
    have hrest := ih (h.step act hfirst) fun i position hact ↦ by
      rw [source_step]
      rcases hgo (i + 1) position hact with hlies | ⟨entry, hentry, hlearned⟩
      · exact Or.inl hlies
      rw [run, List.take_succ_cons, List.mem_cons] at hentry
      rcases hentry with rfl | hentry
      · exact Or.inl (hlocated.liesIn hlearned)
      · exact Or.inr ⟨entry, hentry, hlearned⟩
    intro entry hentry
    rw [run, List.mem_cons] at hentry
    rcases hentry with rfl | hentry
    · exact hlocated
    · rw [← source_step session act]
      exact hrest entry hentry

/-- After each act of a session the reader's position, and both ends of the token if one is
reported, are counted out behind some of the first characters of the source, and what comes next is
the character that follows these. -/
theorem located_of_mem_run (source : List Char) (recognizer : Recognizer) (acts : List Act)
    (h : (ofSource source recognizer).GoesBack acts) :
    ∀ entry ∈ (ofSource source recognizer).run acts, Located source entry := by
  refine (placed_ofSource source recognizer).run acts fun i position hact ↦ ?_
  rcases h i position hact with rfl | hlearned
  · exact Or.inl (Position.liesIn_start source)
  · exact Or.inr hlearned

/-- A long literal that is not finished: two scans read past its line feed, of which the first goes
back and the second stays, and the host returns to the end of the opening bracket. -/
theorem located_of_return :
    let session := ofSource ['é', '\n', '[', '[', 'ß', '\n', 'x'] .initial
    let acts := [.take, .scan .outside, .scan .inside, .readOn .inside, .goTo ⟨5, 4, 2, 3⟩, .take]
    session.GoesBack acts ∧
      (session.run acts).map (fun entry ↦ entry.2.reader.position) =
        [⟨2, 1, 1, 2⟩, ⟨5, 4, 2, 3⟩, ⟨5, 4, 2, 3⟩, ⟨9, 7, 3, 2⟩, ⟨5, 4, 2, 3⟩, ⟨7, 5, 2, 4⟩] ∧
      ∀ entry ∈ session.run acts, Located session.source entry := by
  intro session acts
  have hgoes : session.GoesBack acts := by
    intro i position hact
    match i with
    | 0 | 1 | 2 | 3 | 5 | _ + 6 => cases hact
    | 4 =>
      cases hact
      decide
  exact ⟨hgoes, by decide, located_of_mem_run session.source .initial acts hgoes⟩

end Session

end LuaLiterals
