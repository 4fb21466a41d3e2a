import LuaLiterals.Scan

/-!
The moves of the automaton. `Phase.Consumes` lists the edges along which a character is consumed,
`Phase.Halts` the ways in which a phase comes to its end, be it in front of a character or where
there is none. With the skips in the gap these are all that a step can do (`moves_step`). What a
run keeps is proved edge by edge from here on, and what one step of it looks like is told in this
place only.
-/

set_option autoImplicit false
set_option relaxedAutoImplicit false

namespace LuaLiterals

namespace Phase

/-- Leads from a phase to the next one over a character, which is marked in front or not. -/
inductive Consumes (offer : Offer) : Phase → Bool → Phase → Prop
  | firstDash : Consumes offer .gap false .dash
  | openingBracket : Consumes offer .gap false (.bracket .string 0)
  | openingQuote (quote : Quote) :
      Consumes offer .gap false (.settled ⟨false, some (.opening (.short quote))⟩)
  | secondDash : Consumes offer .dash false .dashes
  | commentBlank : Consumes offer .dashes false .dashes
  | commentBracket : Consumes offer .dashes false (.bracket .comment 0)
  | dashesText : Consumes offer .dashes false .line
  | lineText : Consumes offer .line false .line
  | bracketSign (purpose : Purpose) (count : Nat) :
      Consumes offer (.bracket purpose count) false (.bracket purpose (count + 1))
  | bracketEnd (purpose : Purpose) (count : Nat) :
      Consumes offer (.bracket purpose count) false (openedBracket purpose (Level.ofCount count))
  | bracketText (count : Nat) : Consumes offer (.bracket .comment count) false .line
  | bodyBracket (purpose : Purpose) (level : Level) (content : Bool) :
      Consumes offer (.body purpose level content) true
        (.closer purpose level level.toNat content)
  | bodyText (purpose : Purpose) (level : Level) (content : Bool) :
      Consumes offer (.body purpose level content) false (.body purpose level true)
  | closerSign (purpose : Purpose) (level : Level) (left : Nat) (content : Bool) :
      Consumes offer (.closer purpose level (left + 1) content) false
        (.closer purpose level left content)
  | closerEnd (purpose : Purpose) (level : Level) (content : Bool) :
      Consumes offer (.closer purpose level 0 content) false
        (.settled (closedEnding offer purpose content))
  | closerBracket (purpose : Purpose) (level : Level) (left : Nat) (content : Bool) :
      Consumes offer (.closer purpose level left content) true
        (.closer purpose level level.toNat true)
  | closerText (purpose : Purpose) (level : Level) (left : Nat) (content : Bool) :
      Consumes offer (.closer purpose level left content) false (.body purpose level true)
  | closingQuote (quote : Quote) :
      Consumes offer (.quoted quote false) false (.settled ⟨true, some .closing⟩)
  | backslash (quote : Quote) (content : Bool) :
      Consumes offer (.quoted quote content) false (.escape quote)
  | quotedText (quote : Quote) (content : Bool) :
      Consumes offer (.quoted quote content) false (.quoted quote true)
  | escapedText (quote : Quote) : Consumes offer (.escape quote) false (.quoted quote true)

/-- How a run may end in a phase. -/
inductive Halts (offer : Offer) : Phase → Ending → Prop
  | gap : Halts offer .gap .declined
  | dash : Halts offer .dash .declined
  | dashes : Halts offer .dashes .comment
  | line : Halts offer .line .comment
  | commentBracket (count : Nat) : Halts offer (.bracket .comment count) .comment
  | stringBracket (count : Nat) : Halts offer (.bracket .string count) .declined
  | commentBody (level : Level) (content : Bool) :
      Halts offer (.body .comment level content) .comment
  | stringBody (level : Level) (content : Bool) :
      Halts offer (.body .string level content) .declined
  | commentCloser (level : Level) (left : Nat) (content : Bool) :
      Halts offer (.closer .comment level left content) .comment
  | stringCloser (level : Level) (left : Nat) (content : Bool) :
      Halts offer (.closer .string level left content) .declined
  | broken (quote : Quote) (content : Bool) :
      Halts offer (.quoted quote content) (brokenEnding offer content)
  | content (quote : Quote) : Halts offer (.quoted quote true) (contentEnding offer true)
  | unclosed (quote : Quote) : Halts offer (.quoted quote false) .declined
  | escape (quote : Quote) : Halts offer (.escape quote) (brokenEnding offer true)
  | settled (ending : Ending) : Halts offer (.settled ending) ending

/-- What the automaton may do in a phase with a character in front of it. -/
inductive Moves (demand : Demand) (phase : Phase) (c : Char) : Step → Prop
  | skip (hgap : phase = .gap) (hspace : demand.dialect.isSpace c = true) :
      Moves demand phase c (.skip .gap)
  | consume {marked : Bool} {next : Phase} (h : phase.Consumes demand.offer marked next) :
      Moves demand phase c (.consume marked next)
  | halt {ending : Ending} (h : phase.Halts demand.offer ending) :
      Moves demand phase c (.halt ending)

variable {demand : Demand} {phase next : Phase} {c : Char} {marked : Bool} {ending : Ending}

theorem moves_gapStep (demand : Demand) (c : Char) : gap.Moves demand c (gapStep demand c) := by
  unfold gapStep
  split
  next hspace => exact .skip rfl hspace
  split
  next => exact .consume .firstDash
  split
  next => exact .consume .openingBracket
  split
  next quote _ _ => exact .consume (.openingQuote quote)
  next => exact .halt .gap

theorem moves_lineStep (htext : phase.Consumes demand.offer false .line)
    (hend : phase.Halts demand.offer .comment) (c : Char) :
    phase.Moves demand c (lineStep c) := by
  unfold lineStep
  split
  next => exact .halt hend
  next => exact .consume htext

theorem moves_dashesStep (demand : Demand) (c : Char) :
    dashes.Moves demand c (dashesStep demand c) := by
  unfold dashesStep
  split
  next => exact .consume .commentBlank
  split
  next => exact .consume .commentBracket
  next => exact moves_lineStep .dashesText .dashes c

theorem moves_bracketStep (demand : Demand) (purpose : Purpose) (count : Nat) (c : Char) :
    (bracket purpose count).Moves demand c (bracketStep purpose count c) := by
  unfold bracketStep
  split
  next => exact .consume (.bracketSign purpose count)
  split
  next => exact .consume (.bracketEnd purpose count)
  cases purpose with
  | comment => exact moves_lineStep (.bracketText count) (.commentBracket count) c
  | string => exact .halt (.stringBracket count)

theorem moves_bodyStep {purpose : Purpose} {level : Level} {content : Bool}
    (hbracket : phase.Consumes demand.offer true (.closer purpose level level.toNat content))
    (htext : phase.Consumes demand.offer false (.body purpose level true)) (c : Char) :
    phase.Moves demand c (bodyStep purpose level content c) := by
  unfold bodyStep
  split
  next => exact .consume hbracket
  next => exact .consume htext

theorem moves_closerStep (demand : Demand) (purpose : Purpose) (level : Level) (left : Nat)
    (content : Bool) (c : Char) :
    (closer purpose level left content).Moves demand c
      (closerStep demand.offer purpose level left content c) := by
  have hbody : (closer purpose level left content).Moves demand c
      (bodyStep purpose level true c) :=
    moves_bodyStep (.closerBracket purpose level left content)
      (.closerText purpose level left content) c
  unfold closerStep
  cases left with
  | zero =>
    rw [if_neg (by simp)]
    split
    next => exact .consume (.closerEnd purpose level content)
    next => exact hbody
  | succ left =>
    split
    next => exact .consume (.closerSign purpose level left content)
    next =>
      rw [if_neg (by simp)]
      exact hbody

theorem moves_quotedStep (demand : Demand) (quote : Quote) (content : Bool) (c : Char) :
    (quoted quote content).Moves demand c (quotedStep demand.offer quote content c) := by
  unfold quotedStep
  split
  next => exact .halt (.broken quote content)
  split
  next =>
    cases content with
    | true => exact .halt (.content quote)
    | false =>
      rw [if_neg Bool.false_ne_true]
      split
      next => exact .consume (.closingQuote quote)
      next => exact .halt (.unclosed quote)
  split
  next => exact .consume (.backslash quote content)
  next => exact .consume (.quotedText quote content)

theorem moves_escapeStep (demand : Demand) (quote : Quote) (c : Char) :
    (escape quote).Moves demand c (escapeStep demand.offer quote c) := by
  unfold escapeStep
  split
  next => exact .halt (.escape quote)
  next => exact .consume (.escapedText quote)

/-- A step makes one of these moves. -/
theorem moves_step (demand : Demand) (phase : Phase) (c : Char) :
    phase.Moves demand c (phase.step demand c) := by
  cases phase with
  | gap => exact moves_gapStep demand c
  | dash =>
    simp only [step]
    split
    next => exact .consume .secondDash
    next => exact .halt .dash
  | dashes => exact moves_dashesStep demand c
  | bracket purpose count => exact moves_bracketStep demand purpose count c
  | line => exact moves_lineStep .lineText .line c
  | body purpose level content =>
    exact moves_bodyStep (.bodyBracket purpose level content) (.bodyText purpose level content) c
  | closer purpose level left content =>
    exact moves_closerStep demand purpose level left content c
  | quoted quote content => exact moves_quotedStep demand quote content c
  | escape quote => exact moves_escapeStep demand quote c
  | settled ending => exact .halt (.settled ending)

/-- Only space in front of a token is skipped, and none of the token has been read there. -/
theorem step_eq_skip_iff :
    phase.step demand c = .skip next ↔
      phase = .gap ∧ next = .gap ∧ demand.dialect.isSpace c = true := by
  constructor
  · intro hstep
    have hmoves := moves_step demand phase c
    rw [hstep] at hmoves
    cases hmoves with
    | skip hgap hspace => exact ⟨hgap, rfl, hspace⟩
  · rintro ⟨rfl, rfl, hspace⟩
    simp only [step, gapStep, if_pos hspace]

theorem consumes_of_step (hstep : phase.step demand c = .consume marked next) :
    phase.Consumes demand.offer marked next := by
  have hmoves := moves_step demand phase c
  rw [hstep] at hmoves
  cases hmoves with
  | consume h => exact h

theorem halts_of_step (hstep : phase.step demand c = .halt ending) :
    phase.Halts demand.offer ending := by
  have hmoves := moves_step demand phase c
  rw [hstep] at hmoves
  cases hmoves with
  | halt h => exact h

/-- At the end of the input a phase ends in one of its ways. -/
theorem halts_ending (offer : Offer) (phase : Phase) :
    phase.Halts offer (phase.ending offer) := by
  cases phase with
  | gap => exact .gap
  | dash => exact .dash
  | dashes => exact .dashes
  | bracket purpose count =>
    cases purpose with
    | comment => exact .commentBracket count
    | string => exact .stringBracket count
  | line => exact .line
  | body purpose level content =>
    cases purpose with
    | comment => exact .commentBody level content
    | string => exact .stringBody level content
  | closer purpose level left content =>
    cases purpose with
    | comment => exact .commentCloser level left content
    | string => exact .stringCloser level left content
  | quoted quote content => exact .broken quote content
  | escape quote => exact .escape quote
  | settled ending => exact .settled ending

/-- Nothing leads back into the gap in front of a token. -/
theorem Consumes.ne_gap {offer : Offer} (h : phase.Consumes offer marked next) :
    next ≠ .gap := by
  intro hgap
  cases h with
  | bracketEnd purpose count => cases purpose <;> cases hgap
  | _ => cases hgap

/-- Nothing is consumed any more where a token is settled. -/
theorem Consumes.ne_settled {offer : Offer} (h : phase.Consumes offer marked next)
    (ending : Ending) : phase ≠ .settled ending := by
  rintro rfl
  cases h

end Phase

end LuaLiterals
