import LuaLiterals.Scan.Moves

/-!
Why a token is never empty. Each phase knows something about the beginning of the token, the
place read up to and the last mark; what it knows is kept by every step, and where a run halts
with a token it says that the token ends behind its beginning. The place read up to stays within
the characters ahead, and a mark never lies behind it.
-/

set_option autoImplicit false
set_option relaxedAutoImplicit false

namespace LuaLiterals

/-- The place where the token ends if the run ends here in this way. -/
def Extent.stopAt (extent : Extent) (ending : Ending) : Nat :=
  if ending.marked then extent.read else extent.stop

/-- What a phase knows about the token read so far. -/
def Phase.Holds (extent : Extent) : Phase → Prop
  | .gap => extent = { extent with start := extent.read, consumed := false, mark := none }
  | .dash | .dashes | .line | .bracket .comment _ | .body .comment _ _ | .closer .comment _ _ _
  | .escape _ => extent.start < extent.read
  | .bracket .string _ => extent.start < extent.read ∧ extent.mark = none
  | .body .string _ content =>
    extent.start ≤ extent.read ∧ (content = true → extent.start < extent.read)
  | .closer .string _ _ content =>
    extent.start < extent.read ∧
      (content = true → ∃ mark, extent.mark = some mark ∧ extent.start < mark)
  | .quoted _ content =>
    extent.start ≤ extent.read ∧ (content = true → extent.start < extent.read)
  | .settled ending => ending.found.isSome → extent.start < extent.stopAt ending

namespace Extent

variable (extent : Extent) (marked : Bool)

@[simp] theorem start_foldl_consuming :
    ((Call.consuming marked).foldl call extent).start = extent.start := by
  cases marked <;> rfl

@[simp] theorem read_foldl_consuming :
    ((Call.consuming marked).foldl call extent).read = extent.read + 1 := by
  cases marked <;> rfl

theorem stopAt_of_marked {ending : Ending} (hmarked : ending.marked = true) :
    extent.stopAt ending = extent.read := if_pos hmarked

/-- Without a mark a token ends where reading has come to. -/
theorem stopAt_of_mark_none {extent : Extent} (hmark : extent.mark = none) (ending : Ending) :
    extent.stopAt ending = extent.read := by
  unfold stopAt
  split
  next => rfl
  next => rw [stop, hmark, Option.getD_none]

/-- Behind a closing bracket, content ends at the mark in front of it. -/
theorem stopAt_of_content {extent : Extent} {mark : Nat} (hmark : extent.mark = some mark)
    (offer : Offer) : extent.stopAt (Phase.contentEnding offer false) = mark := by
  rw [stopAt, if_neg (by simp [Phase.contentEnding]), stop, hmark, Option.getD_some]

end Extent

namespace Phase

variable {offer : Offer} {phase next : Phase} {extent : Extent} {marked : Bool}
variable {ending : Ending}

/-- Where more may be consumed, the token begins no further than the place read up to. -/
theorem Holds.start_le_read (h : phase.Holds extent)
    (hphase : ∀ ending, phase ≠ .settled ending) : extent.start ≤ extent.read := by
  cases phase with
  | gap => exact Nat.le_of_eq (congrArg Extent.start h)
  | dash | dashes | line | escape => exact Nat.le_of_lt h
  | bracket purpose =>
    cases purpose with
    | comment => exact Nat.le_of_lt h
    | string => exact Nat.le_of_lt h.1
  | body purpose =>
    cases purpose with
    | comment => exact Nat.le_of_lt h
    | string => exact h.1
  | closer purpose =>
    cases purpose with
    | comment => exact Nat.le_of_lt h
    | string => exact Nat.le_of_lt h.1
  | quoted => exact h.1
  | settled ending => exact absurd rfl (hphase ending)

theorem Holds.mark_eq_none_of_gap (h : gap.Holds extent) : extent.mark = none :=
  congrArg Extent.mark h

theorem Holds.skip (h : gap.Holds extent) : gap.Holds (extent.call .skip) := by
  have hconsumed : extent.consumed = false := congrArg Extent.consumed h
  simp only [Holds, Extent.call, hconsumed, h.mark_eq_none_of_gap, if_neg Bool.false_ne_true]

/-- An opening delimiter has no mark, so it ends at the place read up to. -/
theorem holds_opening (hlt : extent.start < extent.read) (hmark : extent.mark = none)
    (literal : Literal) : (settled ⟨false, some (.opening literal)⟩).Holds extent :=
  fun _ ↦ Nat.lt_of_lt_of_eq hlt (Extent.stopAt_of_mark_none hmark _).symm

/-- With a closing bracket behind it, content ends at its mark and a token of its own at the place
read up to; both lie behind the beginning. -/
theorem holds_closedEnding {content : Bool} (hlt : extent.start < extent.read)
    (hcontent : content = true → ∃ mark, extent.mark = some mark ∧ extent.start < mark)
    (offer : Offer) : (settled (closedEnding offer .string content)).Holds extent := by
  intro hfound
  cases content with
  | true =>
    obtain ⟨mark, hmark, hstart⟩ := hcontent rfl
    exact Nat.lt_of_lt_of_eq hstart (Extent.stopAt_of_content hmark offer).symm
  | false =>
    simp only [closedEnding] at hfound ⊢
    split at hfound
    next hclosing =>
      rw [if_pos hclosing]
      exact hlt
    next => cases hfound

/-- What is known of a token is kept along every edge: one more character belongs to it. -/
theorem Holds.consume (h : phase.Holds extent) (hstep : phase.Consumes offer marked next) :
    next.Holds ((Call.consuming marked).foldl Extent.call extent) := by
  have hle := h.start_le_read hstep.ne_settled
  have hlt : ((Call.consuming marked).foldl Extent.call extent).start <
      ((Call.consuming marked).foldl Extent.call extent).read := by
    rw [Extent.start_foldl_consuming, Extent.read_foldl_consuming]
    exact Nat.lt_succ_of_le hle
  cases hstep with
  | firstDash | secondDash | commentBlank | commentBracket | dashesText | lineText | bracketText
  | backslash => exact hlt
  | openingBracket => exact ⟨hlt, h.mark_eq_none_of_gap⟩
  | openingQuote quote => exact holds_opening hlt h.mark_eq_none_of_gap (.short quote)
  | bracketSign purpose count =>
    cases purpose with
    | comment => exact hlt
    | string => exact ⟨hlt, h.2⟩
  | bracketEnd purpose count =>
    cases purpose with
    | comment => exact hlt
    | string => exact holds_opening hlt h.2 (.long (Level.ofCount count))
  | bodyBracket purpose level content =>
    -- What was read so far is content if there is any, and the mark is set behind it.
    cases purpose with
    | comment => exact hlt
    | string => exact ⟨hlt, fun hcontent ↦ ⟨extent.read, rfl, h.2 hcontent⟩⟩
  | bodyText purpose level content =>
    cases purpose with
    | comment => exact hlt
    | string => exact ⟨Nat.le_of_lt hlt, fun _ ↦ hlt⟩
  | closerSign purpose level left content =>
    cases purpose with
    | comment => exact hlt
    | string => exact ⟨hlt, h.2⟩
  | closerEnd purpose level content =>
    cases purpose with
    | comment => exact fun _ ↦ hlt
    | string => exact holds_closedEnding hlt h.2 offer
  | closerBracket purpose level left content =>
    -- The bracket that was begun is text, so there is content in front of this one.
    cases purpose with
    | comment => exact hlt
    | string => exact ⟨hlt, fun _ ↦ ⟨extent.read, rfl, h.1⟩⟩
  | closerText purpose level left content =>
    cases purpose with
    | comment => exact hlt
    | string => exact ⟨Nat.le_of_lt hlt, fun _ ↦ hlt⟩
  | closingQuote quote => exact fun _ ↦ hlt
  | quotedText quote content => exact ⟨Nat.le_of_lt hlt, fun _ ↦ hlt⟩
  | escapedText quote => exact ⟨Nat.le_of_lt hlt, fun _ ↦ hlt⟩

/-- Where a literal breaks off, only content is reported, which ends at the place read up to. -/
theorem content_and_marked_of_brokenEnding {content : Bool}
    (hfound : (brokenEnding offer content).found.isSome) :
    content = true ∧ (brokenEnding offer content).marked = true := by
  unfold brokenEnding at hfound ⊢
  split at hfound
  next hcontent =>
    rw [if_pos hcontent]
    exact ⟨(Bool.and_eq_true_iff.mp hcontent).1, rfl⟩
  next => cases hfound

/-- A token found where a run halts ends behind its beginning. -/
theorem Holds.halt (h : phase.Holds extent) (hend : phase.Halts offer ending)
    (hfound : ending.found.isSome) : extent.start < extent.stopAt ending := by
  cases hend with
  | gap | dash | stringBracket | stringBody | stringCloser | unclosed => cases hfound
  | dashes | line | commentBracket | commentBody | commentCloser => exact h
  | broken quote content =>
    obtain ⟨hcontent, hmarked⟩ := content_and_marked_of_brokenEnding hfound
    exact Nat.lt_of_lt_of_eq (h.2 hcontent) (extent.stopAt_of_marked hmarked).symm
  | content quote => exact h.2 rfl
  | escape quote =>
    obtain ⟨-, hmarked⟩ := content_and_marked_of_brokenEnding hfound
    exact Nat.lt_of_lt_of_eq h (extent.stopAt_of_marked hmarked).symm
  | settled ending => exact h hfound

end Phase

theorem Extent.stop_foldl_scan (extent : Extent) (ending : Ending) :
    (ending.scan.calls.foldl call extent).stop = extent.stopAt ending := by
  cases ending with
  | mk marked found => cases marked <;> rfl

theorem Extent.start_foldl_scan (extent : Extent) (ending : Ending) :
    (ending.scan.calls.foldl call extent).start = extent.start := by
  cases ending with
  | mk marked found => cases marked <;> rfl

/-- What each step keeps holds where the run comes to its end, be it in front of a character or
behind the last one. -/
theorem Phase.exists_end (demand : Demand) (Keeps : Phase → Extent → Prop)
    (hskip : ∀ extent, Keeps .gap extent → Keeps .gap (extent.call .skip))
    (hconsume : ∀ (phase next : Phase) (extent : Extent) (marked : Bool),
      Keeps phase extent → phase.Consumes demand.offer marked next →
        Keeps next ((Call.consuming marked).foldl Extent.call extent))
    {phase : Phase} {extent : Extent} (h : Keeps phase extent) (ahead : List Char) :
    ∃ last place ending, Keeps last place ∧ last.Halts demand.offer ending ∧
      (phase.run demand ahead).found = ending.found ∧
      (phase.run demand ahead).calls.foldl Extent.call extent =
        ending.scan.calls.foldl Extent.call place := by
  induction ahead generalizing phase extent with
  | nil => exact ⟨phase, extent, _, h, halts_ending demand.offer phase, rfl, rfl⟩
  | cons c ahead ih =>
    cases hstep : phase.step demand c with
    | skip next =>
      obtain ⟨rfl, rfl, _⟩ := step_eq_skip_iff.mp hstep
      simp only [run, hstep, List.foldl_cons]
      exact ih (hskip extent h)
    | consume marked next =>
      simp only [run, hstep, List.foldl_append]
      exact ih (hconsume phase next extent marked h (consumes_of_step hstep))
    | halt ending =>
      simp only [run, hstep]
      exact ⟨phase, extent, ending, h, halts_of_step hstep, rfl, rfl⟩

/-- A token found by a run ends behind its beginning. -/
theorem Phase.Holds.start_lt_stop {demand : Demand} {phase : Phase} {extent : Extent}
    (h : phase.Holds extent) (ahead : List Char)
    (hfound : (phase.run demand ahead).found.isSome) :
    ((phase.run demand ahead).calls.foldl Extent.call extent).start <
      ((phase.run demand ahead).calls.foldl Extent.call extent).stop := by
  obtain ⟨last, place, ending, hlast, hend, hending, hcalls⟩ :=
    exists_end demand (fun phase extent ↦ phase.Holds extent) (fun _ hgap ↦ hgap.skip)
      (fun _ _ _ _ hlast hstep ↦ hlast.consume hstep) h ahead
  rw [hending] at hfound
  rw [hcalls, Extent.start_foldl_scan, Extent.stop_foldl_scan]
  exact hlast.halt hend hfound

theorem Extent.read_foldl_scan (extent : Extent) (ending : Ending) :
    (ending.scan.calls.foldl call extent).read = extent.read := by
  cases ending with
  | mk marked found => cases marked <;> rfl

/-- No run reads past the characters ahead. -/
theorem Phase.read_run_le (demand : Demand) (phase : Phase) (extent : Extent)
    (ahead : List Char) :
    ((phase.run demand ahead).calls.foldl Extent.call extent).read ≤
      extent.read + ahead.length := by
  induction ahead generalizing phase extent with
  | nil =>
    rw [run, Extent.read_foldl_scan]
    exact Nat.le_add_right _ _
  | cons c ahead ih =>
    simp only [run, List.length_cons]
    split
    next next _ =>
      have hnext := ih next (extent.call .skip)
      simp only [Extent.call] at hnext
      simp only [List.foldl_cons, Extent.call]
      omega
    next marked next _ =>
      have hnext := ih next ((Call.consuming marked).foldl Extent.call extent)
      rw [Extent.read_foldl_consuming] at hnext
      rw [List.foldl_append]
      omega
    next ending _ =>
      rw [Extent.read_foldl_scan]
      exact Nat.le_add_right _ _

theorem Extent.stop_call_le (extent : Extent) (c : Call) (h : extent.stop ≤ extent.read) :
    (extent.call c).stop ≤ (extent.call c).read := by
  obtain ⟨start, read, consumed, mark⟩ := extent
  cases mark <;> cases c <;> simp_all [call, stop] <;> omega

/-- A mark lies no further than the place read up to, through any calls. -/
theorem Extent.stop_foldl_le (extent : Extent) (calls : List Call)
    (h : extent.stop ≤ extent.read) :
    (calls.foldl call extent).stop ≤ (calls.foldl call extent).read := by
  induction calls generalizing extent with
  | nil => exact h
  | cons c calls ih => exact ih _ (extent.stop_call_le c h)

end LuaLiterals
