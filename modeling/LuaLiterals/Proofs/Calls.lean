import LuaLiterals.Proofs.Lookahead
import LuaLiterals.Proofs.Sightings

/-!
What a scan asks of its host, match or not. It skips the space in front of a token and nothing else,
so all its skips come first (`calls_gap`, `skip_notMem_calls`), and it moves only over characters
that are there (`read_lt_of_moves`). Where it finds a token, it has read up to the end of that token
and no further, with one exception: content between long brackets ends in front of the closing one,
and that bracket has been read too. `Phase.Trails` says what each phase knows about this. Behind a
`]` it is the distance to the last mark, which the signs still to come make up to a whole bracket,
so the mark that is left when a bracket closes is the one in front of that bracket. The main
statement `scan_keeps_protocol` puts these together.
-/

set_option autoImplicit false
set_option relaxedAutoImplicit false

namespace LuaLiterals

namespace Phase

variable {demand : Demand} {phase next : Phase} {extent : Extent} {c : Char} {text : List Char}
variable {marked : Bool}

/-! ### Skips -/

theorem skip_notMem_consuming (marked : Bool) : .skip ∉ Call.consuming marked := by
  cases marked <;> decide

theorem skip_notMem_scan (ending : Ending) : .skip ∉ ending.scan.calls := by
  unfold Ending.scan
  cases ending.marked <;> simp

/-- A run that has left the gap skips nothing. -/
theorem skip_notMem_calls (hphase : phase ≠ .gap) (text : List Char) :
    .skip ∉ (phase.run demand text).calls := by
  induction text generalizing phase with
  | nil => exact skip_notMem_scan _
  | cons c text ih =>
    cases hstep : phase.step demand c with
    | skip next => exact absurd (step_eq_skip_iff.mp hstep).1 hphase
    | consume marked next =>
      simp only [run, hstep, List.mem_append, not_or]
      exact ⟨skip_notMem_consuming marked, ih (consumes_of_step hstep).ne_gap⟩
    | halt ending =>
      simp only [run, hstep]
      exact skip_notMem_scan ending

/-- A run that has no space ahead skips nothing either. -/
theorem skip_notMem_calls_of_head (phase : Phase)
    (hspace : ∀ c ∈ text.head?, demand.dialect.isSpace c = false) :
    .skip ∉ (phase.run demand text).calls := by
  cases text with
  | nil => exact skip_notMem_scan _
  | cons c text =>
    cases hstep : phase.step demand c with
    | skip next =>
      have hc := (step_eq_skip_iff.mp hstep).2.2
      rw [hspace c rfl] at hc
      cases hc
    | consume marked next =>
      simp only [run, hstep, List.mem_append, not_or]
      have hnext := (consumes_of_step hstep).ne_gap
      exact ⟨skip_notMem_consuming marked, skip_notMem_calls hnext text⟩
    | halt ending =>
      simp only [run, hstep]
      exact skip_notMem_scan ending

/-- In the gap each space ahead is skipped. -/
theorem calls_gap (demand : Demand) (text : List Char) :
    (gap.run demand text).calls =
      List.replicate (text.takeWhile demand.dialect.isSpace).length .skip ++
        (gap.run demand (text.dropWhile demand.dialect.isSpace)).calls := by
  induction text with
  | nil => rfl
  | cons c text ih =>
    by_cases hspace : demand.dialect.isSpace c = true
    · have hstep : gap.step demand c = .skip .gap := by
        simp only [step, gapStep, if_pos hspace]
      rw [List.takeWhile_cons_of_pos hspace, List.dropWhile_cons_of_pos hspace, List.length_cons,
        List.replicate_succ, List.cons_append, ← ih]
      simp only [run, hstep]
    · rw [List.takeWhile_cons_of_neg hspace, List.dropWhile_cons_of_neg hspace]
      rfl

/-! ### How far a run reads on behind a token -/

/-- What a phase knows about the last mark, where content is to end `trail` characters in front of
the place read up to. -/
def Trails (trail : Nat) (extent : Extent) : Phase → Prop
  | .gap | .bracket .string _ => extent.mark = none
  | .body .string level _ => trail = level.toNat + 2
  | .closer .string level left _ =>
    trail = level.toNat + 2 ∧
      ∃ mark, extent.mark = some mark ∧ extent.read + left + 1 = mark + trail
  | .quoted _ _ | .escape _ => trail = 0
  | .settled ending => ∀ found, ending.found = some found →
      extent.read = extent.stopAt ending + if found = .content then trail else 0
  | .dash | .dashes | .line | .bracket .comment _ | .body .comment _ _ | .closer .comment _ _ _ =>
    True

variable {trail : Nat} {offer : Offer} {ending : Ending} {found : Found}

/-- A comment ends where reading does. -/
theorem read_of_comment (hfound : Ending.comment.found = some found) :
    extent.read = extent.stopAt .comment + if found = .content then trail else 0 := by
  cases hfound
  rfl

/-- Content that ends with its quote or its line ends where reading does. -/
theorem read_of_marked (hmarked : ending.marked = true) (htrail : trail = 0) :
    extent.read = extent.stopAt ending + if found = .content then trail else 0 := by
  rw [extent.stopAt_of_marked hmarked, htrail, ite_self, Nat.add_zero]

/-- An opening delimiter has no mark, so it ends where reading does. -/
theorem trails_opening (hmark : extent.mark = none) (literal : Literal) :
    (settled ⟨false, some (.opening literal)⟩).Trails trail extent := by
  intro found hfound
  cases hfound
  rw [Extent.stopAt_of_mark_none hmark]
  rfl

/-- Where a closing bracket is read to its end, content ends at the mark in front of it, and a token
of its own behind it. -/
theorem trails_closedEnding {mark : Nat} (offer : Offer) (content : Bool)
    (hmark : extent.mark = some mark) (hread : extent.read = mark + trail) :
    (settled (closedEnding offer .string content)).Trails trail extent := by
  intro found hfound
  cases content with
  | true =>
    simp only [closedEnding, contentEnding] at hfound
    split at hfound
    next =>
      cases hfound
      exact hread.trans (congrArg (· + trail) (Extent.stopAt_of_content hmark offer).symm)
    next => cases hfound
  | false =>
    simp only [closedEnding] at hfound ⊢
    split at hfound
    next hclosing =>
      cases hfound
      rw [if_pos hclosing]
      rfl
    next => cases hfound

/-- What is known of the last mark is kept along every edge. -/
theorem Trails.consume (h : phase.Trails trail extent)
    (hstep : phase.Consumes offer marked next) :
    next.Trails trail ((Call.consuming marked).foldl Extent.call extent) := by
  cases hstep with
  | firstDash | secondDash | commentBlank | commentBracket | dashesText | lineText | bracketText =>
    trivial
  | openingBracket => exact h
  | openingQuote quote =>
    refine trails_opening ?_ (.short quote)
    exact h
  | bracketSign purpose count =>
    cases purpose with
    | comment => trivial
    | string => exact h
  | bracketEnd purpose count =>
    cases purpose with
    | comment => trivial
    | string =>
      refine trails_opening ?_ (.long (Level.ofCount count))
      exact h
  | bodyBracket purpose level content =>
    -- The place in front of the bracket is marked, with a whole bracket to come.
    cases purpose with
    | comment => trivial
    | string =>
      refine ⟨h, extent.read, rfl, ?_⟩
      rw [Extent.read_foldl_consuming, h]
      omega
  | bodyText purpose level content =>
    cases purpose with
    | comment => trivial
    | string => exact h
  | closerSign purpose level left content =>
    -- One more sign has been read, and one less is to come.
    cases purpose with
    | comment => trivial
    | string =>
      obtain ⟨htrail, mark, hmark, hread⟩ := h
      refine ⟨htrail, mark, hmark, ?_⟩
      rw [Extent.read_foldl_consuming]
      omega
  | closerEnd purpose level content =>
    cases purpose with
    | comment => exact fun _ hfound ↦ read_of_comment hfound
    | string =>
      obtain ⟨-, mark, hmark, hread⟩ := h
      exact trails_closedEnding offer content hmark hread
  | closerBracket purpose level left content =>
    cases purpose with
    | comment => trivial
    | string =>
      refine ⟨h.1, extent.read, rfl, ?_⟩
      rw [Extent.read_foldl_consuming, h.1]
      omega
  | closerText purpose level left content =>
    cases purpose with
    | comment => trivial
    | string => exact h.1
  | closingQuote quote =>
    intro found hfound
    cases hfound
    rfl
  | backslash quote content => exact h
  | quotedText quote content => exact h
  | escapedText quote => exact h

theorem Trails.halt (h : phase.Trails trail extent) (hend : phase.Halts offer ending)
    (hfound : ending.found = some found) :
    extent.read = extent.stopAt ending + if found = .content then trail else 0 := by
  cases hend with
  | gap | dash | stringBracket | stringBody | stringCloser | unclosed => cases hfound
  | dashes | line | commentBracket | commentBody | commentCloser => exact read_of_comment hfound
  | broken quote content =>
    obtain ⟨-, hmarked⟩ :=
      content_and_marked_of_brokenEnding (Option.isSome_of_eq_some hfound)
    exact read_of_marked hmarked h
  | content quote => exact read_of_marked rfl h
  | escape quote =>
    obtain ⟨-, hmarked⟩ :=
      content_and_marked_of_brokenEnding (Option.isSome_of_eq_some hfound)
    exact read_of_marked hmarked h
  | settled ending => exact h found hfound

/-- Where a run finds content, the place it has read up to lies so many characters behind the end of
it; any other token ends where the run does. -/
theorem Trails.read_eq (h : phase.Trails trail extent) (text : List Char)
    (hfound : (phase.run demand text).found = some found) :
    ((phase.run demand text).calls.foldl Extent.call extent).read =
      ((phase.run demand text).calls.foldl Extent.call extent).stop +
        if found = .content then trail else 0 := by
  obtain ⟨last, place, ending, hlast, hend, hending, hcalls⟩ :=
    exists_end demand (fun phase extent ↦ phase.Trails trail extent) (fun _ hgap ↦ hgap)
      (fun _ _ _ _ hlast hstep ↦ hlast.consume hstep) h text
  rw [hending] at hfound
  rw [hcalls, Extent.read_foldl_scan, Extent.stop_foldl_scan]
  exact hlast.halt hend hfound

end Phase

namespace Recognizer

/-- How far a scan reads on behind a token: over the closing bracket, if it is in front of that one
that content ends. -/
def overshoot (recognizer : Recognizer) : Found → Nat
  | .content =>
    match recognizer.opened with
    | some (.long level) => level.toNat + 2
    | _ => 0
  | .comment | .opening _ | .closing => 0

/-- The number of spaces ahead, if a scan looks for what begins behind them. -/
def skips (recognizer : Recognizer) (offer : Offer) (ahead : List Char) : Nat :=
  if recognizer.resumed offer = none ∧ offer.opens = true then
    (ahead.takeWhile recognizer.dialect.isSpace).length
  else 0

variable {recognizer : Recognizer} {offer : Offer} {ahead : List Char}

theorem entry_eq_gap_iff :
    recognizer.entry offer = .gap ↔ recognizer.resumed offer = none ∧ offer.opens = true := by
  unfold entry
  cases hresumed : recognizer.resumed offer with
  | none => cases offer.opens <;> simp
  | some literal => cases literal <;> simp [Literal.entry]

theorem calls_scan (recognizer : Recognizer) (offer : Offer) (ahead : List Char) :
    ∃ calls, (recognizer.scan offer ahead).calls =
      List.replicate (recognizer.skips offer ahead) .skip ++ calls ∧ .skip ∉ calls := by
  unfold scan skips
  by_cases hgap : recognizer.entry offer = .gap
  · rw [if_pos (entry_eq_gap_iff.mp hgap), hgap]
    have hspace := recognizer.dialect.isSpace_head_dropWhile ahead
    exact ⟨_, Phase.calls_gap _ ahead, Phase.skip_notMem_calls_of_head _ hspace⟩
  · rw [if_neg (mt entry_eq_gap_iff.mpr hgap)]
    exact ⟨_, rfl, Phase.skip_notMem_calls hgap ahead⟩

/-- Whenever a scan moves on there is a character to move over. -/
theorem read_lt_of_moves {before later : List Call} {call : Call}
    (hcalls : (recognizer.scan offer ahead).calls = before ++ call :: later)
    (hmoves : call ≠ .mark) : (before.foldl Extent.call .initial).read < ahead.length := by
  have hle := recognizer.read_scan_le offer ahead
  rw [Scan.extent, hcalls, List.foldl_append, List.foldl_cons] at hle
  have hlater := Extent.read_le_foldl ((before.foldl Extent.call .initial).call call) later
  have hcall : ((before.foldl Extent.call .initial).call call).read =
      (before.foldl Extent.call .initial).read + 1 := by
    cases call with
    | skip => rfl
    | consume => rfl
    | mark => exact absurd rfl hmoves
  omega

/-- What the entry phase knows, where content would end in front of the bracket that closes it. -/
theorem trails_entry (recognizer : Recognizer) (offer : Offer) :
    (recognizer.entry offer).Trails (recognizer.overshoot .content) .initial := by
  unfold entry
  cases hresumed : recognizer.resumed offer with
  | none =>
    cases offer.opens with
    | false => exact fun _ hfound ↦ by cases hfound
    | true => rfl
  | some literal =>
    have hopened := (resumed_eq_some_iff.mp hresumed).2
    cases literal with
    | short quote => simp [Literal.entry, Phase.Trails, overshoot, hopened]
    | long level => simp [Literal.entry, Phase.Trails, overshoot, hopened]

theorem read_scan_eq {found : Found} (hfound : (recognizer.scan offer ahead).found = some found) :
    (recognizer.scan offer ahead).extent.read =
      (recognizer.scan offer ahead).extent.stop + recognizer.overshoot found := by
  refine (Phase.Trails.read_eq (recognizer.trails_entry offer) ahead hfound).trans ?_
  cases found <;> rfl

/-- A scan skips the space ahead, if it looks for what begins behind it, and nothing else, all of it
before any other call. It moves only where a character is left to move over, so it never reads past
the end. If it finds a token, it has read to the end of that token, and from the end of content in a
long literal over the closing bracket. -/
theorem scan_keeps_protocol (recognizer : Recognizer) (offer : Offer) (ahead : List Char) :
    let scan := recognizer.scan offer ahead
    (∃ calls, scan.calls = List.replicate (recognizer.skips offer ahead) .skip ++ calls ∧
      .skip ∉ calls) ∧
    (∀ before call later, scan.calls = before ++ call :: later → call ≠ .mark →
      (before.foldl Extent.call .initial).read < ahead.length) ∧
    scan.extent.read ≤ ahead.length ∧
    ∀ found, scan.found = some found →
      scan.extent.read = scan.extent.stop + recognizer.overshoot found :=
  ⟨recognizer.calls_scan offer ahead, fun _ _ _ ↦ read_lt_of_moves,
    recognizer.read_scan_le offer ahead, fun _ ↦ read_scan_eq⟩

/-- The first bracket turns out to be content, with a mark in front of it. The second one closes the
literal and is read to its end, where one character is left. -/
theorem scan_keeps_protocol_of_near_miss :
    let recognizer : Recognizer := ⟨.plain, some (.long 1)⟩
    let ahead := ['a', ']', '=', 'x', ']', '=', ']', 'b']
    let before := [.consume, .mark, .consume, .consume, .consume, .mark, .consume, .consume]
    let scan := recognizer.scan .inside ahead
    scan.calls = before ++ [.consume] ∧
      (before.foldl Extent.call .initial).read < ahead.length ∧
      scan.found = some .content ∧ scan.extent.read = scan.extent.stop + 3 := by
  intro recognizer ahead before scan
  have hcalls : scan.calls = before ++ [.consume] := by decide
  have hfound : scan.found = some .content := by decide
  obtain ⟨-, hmoves, -, hread⟩ := scan_keeps_protocol recognizer .inside ahead
  exact ⟨hcalls, hmoves _ _ _ hcalls (by decide), hfound, hread _ hfound⟩

end Recognizer

end LuaLiterals
