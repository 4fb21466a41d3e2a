import LuaLiterals.Proofs.History

/-!
What a scan writes. `Recognizer.after` tells the open literal by what a scan has found. Here the
scan is handed a memory and writes while it reads, at the three places where there is something to
write: behind a quote that opens a literal, behind a long bracket that opens one, and where a
literal it went on with is closed. The memory may be of any kind, so it may also keep a list of all
that was ever written. `scanThrough_eq` says that a scan writes once for a delimiter that it finds
and never otherwise; hence a scan that finds nothing has written nothing, whatever it has read
(`scanThrough_of_found_none`), and a session goes on with the literal that its scan has written
(`Session.writes_of_scan`).
-/

set_option autoImplicit false
set_option relaxedAutoImplicit false

namespace LuaLiterals

/-- What a scan may write to. -/
structure Memory (State : Type) where
  opens : Literal → State → State
  closes : State → State

namespace Memory

/-- The one literal that a recognizer remembers. -/
def cell : Memory (Option Literal) := ⟨fun literal _ ↦ some literal, fun _ ↦ none⟩

variable {State : Type} (memory : Memory State)

/-- One write for a literal that is opened, if one is. -/
def opening : Option Literal → State → State
  | some literal, state => memory.opens literal state
  | none, state => state

/-- One write for a delimiter, and none for any other token. -/
def record : Option Found → State → State
  | some (.opening literal), state => memory.opens literal state
  | some .closing, state => memory.closes state
  | some .comment, state => state
  | some .content, state => state
  | none, state => state

end Memory

/-- The literal that a token opens. -/
def Found.opens? : Found → Option Literal
  | opening literal => some literal
  | comment | content | closing => none

theorem Memory.record_of_ne_closing {State : Type} (memory : Memory State) {found : Option Found}
    (hfound : found ≠ some .closing) (state : State) :
    memory.record found state = memory.opening (found.bind Found.opens?) state := by
  cases found with
  | none => rfl
  | some found =>
    cases found with
    | closing => exact absurd rfl hfound
    | _ => rfl

def Scan.opens? (scan : Scan) : Option Literal := scan.found.bind Found.opens?

/-- The literal whose opening delimiter has just been read to its end. -/
def Phase.opens? : Phase → Option Literal
  | settled ending => ending.scan.opens?
  | _ => none

/-- The run of the automaton from a phase, with what it writes on its way. -/
def Phase.runThrough {State : Type} (memory : Memory State) (demand : Demand) (phase : Phase)
    (state : State) : List Char → Scan × State
  | [] => ((phase.ending demand.offer).scan, state)
  | c :: ahead =>
    match phase.step demand c with
    | .skip next =>
      let (scan, state) := next.runThrough memory demand state ahead
      (⟨.skip :: scan.calls, scan.found⟩, state)
    | .consume marked next =>
      let (scan, state) :=
        next.runThrough memory demand (memory.opening next.opens? state) ahead
      (⟨Call.consuming marked ++ scan.calls, scan.found⟩, state)
    | .halt ending => (ending.scan, state)

/-- A scan, with what it writes. -/
def Recognizer.scanThrough {State : Type} (memory : Memory State) (recognizer : Recognizer)
    (offer : Offer) (state : State) (ahead : List Char) : Scan × State :=
  match recognizer.resumed offer with
  | some literal =>
    let (scan, state) :=
      literal.entry.runThrough memory ⟨recognizer.dialect, offer⟩ state ahead
    (scan, if scan.found = some .closing then memory.closes state else state)
  | none =>
    if offer.opens then Phase.gap.runThrough memory ⟨recognizer.dialect, offer⟩ state ahead
    else (Ending.declined.scan, state)

namespace Phase

variable {State : Type} (memory : Memory State) (demand : Demand) {offer : Offer}
variable {phase next : Phase} {marked : Bool} {ending : Ending} {literal : Literal}

theorem opens?_contentEnding (offer : Offer) (marked : Bool) :
    (contentEnding offer marked).scan.opens? = none := by
  simp only [contentEnding]
  split <;> rfl

theorem opens?_brokenEnding (offer : Offer) (content : Bool) :
    (brokenEnding offer content).scan.opens? = none := by
  unfold brokenEnding
  split <;> rfl

theorem opens?_closedEnding (offer : Offer) (purpose : Purpose) (content : Bool) :
    (closedEnding offer purpose content).scan.opens? = none := by
  cases purpose with
  | comment => rfl
  | string =>
    cases content with
    | true => exact opens?_contentEnding offer false
    | false =>
      simp only [closedEnding]
      split <;> rfl

/-- A literal is opened on two edges only: behind its quote, or behind the second `[` of its
bracket. -/
theorem Consumes.opens?_eq_some (h : phase.Consumes offer marked next)
    (hopens : next.opens? = some literal) :
    (∃ quote, phase = .gap ∧ literal = .short quote) ∨
      ∃ count, phase = .bracket .string count ∧ literal = .long (Level.ofCount count) := by
  cases h with
  | openingQuote quote =>
    cases hopens
    exact Or.inl ⟨quote, rfl, rfl⟩
  | bracketEnd purpose count =>
    cases purpose with
    | comment => cases hopens
    | string =>
      cases hopens
      exact Or.inr ⟨count, rfl, rfl⟩
  | closerEnd purpose level content =>
    cases (opens?_closedEnding offer purpose content).symm.trans hopens
  | _ => cases hopens

/-- A run that halts has found no opening delimiter but one that it has read to its end before. -/
theorem Halts.opens?_eq (h : phase.Halts offer ending) :
    ending.scan.opens? = phase.opens? := by
  cases h with
  | broken quote content => exact opens?_brokenEnding offer content
  | content quote => exact opens?_contentEnding offer true
  | escape quote => exact opens?_brokenEnding offer true
  | _ => rfl

theorem exists_settled_of_opens? (h : phase.opens? = some literal) :
    ∃ ending, phase = .settled ending := by
  cases phase with
  | settled ending => exact ⟨ending, rfl⟩
  | _ => cases h

theorem runThrough_settled (state : State) (text : List Char) :
    (settled ending).runThrough memory demand state text = (ending.scan, state) := by
  cases text <;> rfl

theorem run_settled (text : List Char) : (settled ending).run demand text = ending.scan := by
  cases text <;> rfl

/-- Where no literal has been opened yet, a run writes the one whose delimiter it finds. -/
theorem runThrough_eq (hphase : phase.opens? = none) (state : State) (text : List Char) :
    phase.runThrough memory demand state text =
      (phase.run demand text, memory.opening (phase.run demand text).opens? state) := by
  induction text generalizing phase state with
  | nil =>
    have hopens := (halts_ending demand.offer phase).opens?_eq.trans hphase
    rw [run, hopens]
    rfl
  | cons c text ih =>
    rw [run, runThrough]
    cases hstep : phase.step demand c with
    | skip next =>
      obtain ⟨-, rfl, -⟩ := step_eq_skip_iff.mp hstep
      have hnext : gap.runThrough memory demand state text = _ := ih rfl state
      simp only [hnext]
      rfl
    | consume marked next =>
      simp only
      cases hnext : next.opens? with
      | none =>
        simp only [ih hnext]
        rfl
      | some literal =>
        -- The delimiter is complete, so that nothing is left to do but to report it.
        obtain ⟨ending, rfl⟩ := exists_settled_of_opens? hnext
        rw [runThrough_settled, run_settled]
        exact congrArg (Prod.mk _) (congrArg (memory.opening · state) hnext.symm)
    | halt ending =>
      have hopens := (halts_of_step hstep).opens?_eq.trans hphase
      simp only [hopens]
      rfl

end Phase

namespace Recognizer

variable {State : Type} (memory : Memory State) {recognizer : Recognizer} {offer : Offer}
variable {ahead : List Char}

/-- A run from the entry phase of a scan makes the calls of that scan. -/
theorem runThrough_entry (recognizer : Recognizer) (offer : Offer) (state : State)
    (ahead : List Char) :
    (recognizer.entry offer).runThrough memory ⟨recognizer.dialect, offer⟩ state ahead =
      (recognizer.scan offer ahead,
        memory.opening (recognizer.scan offer ahead).opens? state) := by
  have hentry : (recognizer.entry offer).opens? = none := by
    unfold entry
    cases recognizer.resumed offer with
    | none => cases offer.opens <;> rfl
    | some literal => cases literal <;> rfl
  exact Phase.runThrough_eq memory _ hentry state ahead

/-- No closing delimiter is found where no literal is gone on with. -/
theorem found_ne_closing (hresumed : recognizer.resumed offer = none) (ahead : List Char) :
    (recognizer.scan offer ahead).found ≠ some .closing := by
  intro hfound
  obtain ⟨seen, hsight, -, hyields⟩ := exists_sighting (Option.isSome_of_eq_some hfound)
  have hseen : seen.found = .closing := Option.some.inj (hyields.delimits.found.symm.trans hfound)
  obtain ⟨literal, hliteral, -⟩ :=
    Session.resumed_of_sight? hsight (Or.inr (congrArg Found.kind hseen))
  rw [hresumed] at hliteral
  cases hliteral

/-- A scan that writes while it reads makes the same calls and finds the same, and it writes once
for a delimiter that it finds and never otherwise. -/
theorem scanThrough_eq (recognizer : Recognizer) (offer : Offer) (state : State)
    (ahead : List Char) :
    recognizer.scanThrough memory offer state ahead =
      (recognizer.scan offer ahead,
        memory.record (recognizer.scan offer ahead).found state) := by
  have hrun := runThrough_entry memory recognizer offer state ahead
  unfold scanThrough
  cases hresumed : recognizer.resumed offer with
  | some literal =>
    rw [entry_of_resumed hresumed] at hrun
    simp only [hrun]
    split
    next hclosing => simp [Scan.opens?, hclosing, Found.opens?, Memory.opening, Memory.record]
    next hclosing => rw [memory.record_of_ne_closing hclosing, Scan.opens?]
  | none =>
    rw [memory.record_of_ne_closing (found_ne_closing hresumed ahead)]
    refine Eq.trans ?_ hrun
    simp only [entry, hresumed]
    split
    next => rfl
    next => exact (Phase.runThrough_settled memory _ state ahead).symm

/-- A scan that finds nothing has written nothing at all on its way. -/
theorem scanThrough_of_found_none (hfound : (recognizer.scan offer ahead).found = none)
    (state : State) :
    (recognizer.scanThrough memory offer state ahead).2 = state := by
  rw [scanThrough_eq, hfound]
  rfl

/-- In its own memory a recognizer finds the literal that is told by what its scan has found. -/
theorem scanThrough_cell (recognizer : Recognizer) (offer : Offer) (ahead : List Char) :
    recognizer.scanThrough .cell offer recognizer.opened ahead =
      (recognizer.scan offer ahead,
        (recognizer.after (recognizer.scan offer ahead).found).opened) := by
  rw [scanThrough_eq]
  cases (recognizer.scan offer ahead).found with
  | none => rfl
  | some found => cases found <;> rfl

end Recognizer

namespace Session

/-- A session goes on with what its scan has written, and if the scan reports no token it has
written nothing, to a memory of any kind. -/
theorem writes_of_scan (session : Session) (offer : Offer) :
    (session.step (.scan offer)).2.recognizer.opened =
        (session.recognizer.scanThrough .cell offer session.recognizer.opened
          session.reader.ahead).2 ∧
      ((session.step (.scan offer)).1 = .token none →
        ∀ {State : Type} (memory : Memory State) (state : State),
          (session.recognizer.scanThrough memory offer state session.reader.ahead).2 = state) := by
  constructor
  · rw [Recognizer.scanThrough_cell]
    rfl
  · intro hreply State memory state
    have htoken := Reply.token.inj hreply
    exact Recognizer.scanThrough_of_found_none memory (Option.map_eq_none_iff.mp htoken) state

end Session

end LuaLiterals
