import LuaLiterals.Proofs.Findings

/-!
What stands in front of a recognizer, and what a scan makes of it. The open literal that a scan goes
on with, or else the dialect, tells from the texts alone which token comes next
(`Recognizer.sight?`); what the host offers has no part in that, apart from the choice between the
two. The main statement `reports_sight?` says that a scan reports this token if its kind is offered,
and none otherwise.
-/

set_option autoImplicit false
set_option relaxedAutoImplicit false

namespace LuaLiterals

open Grammar

/-- A token ahead: the space in front of it, what is found, its text, and what stands behind it. -/
structure Sighting where
  gap : List Char
  found : Found
  text : List Char
  rest : List Char
deriving DecidableEq, Repr

/-- The next part of an open literal: what stands in front of its closing delimiter, or that
delimiter. -/
def Literal.sight? : Literal → List Char → Option Sighting
  | .short quote, ahead =>
    let (body, rest) := quotedBody quote ahead
    if body ≠ [] then some ⟨[], .content, body, rest⟩
    else if ahead.head? = some quote.char then some ⟨[], .closing, [quote.char], ahead.tail⟩
    else none
  | .long level, ahead =>
    (breakOn? (closingBracket level.toNat) ahead).map fun (body, rest) ↦
      if body ≠ [] then ⟨[], .content, body, closingBracket level.toNat ++ rest⟩
      else ⟨[], .closing, closingBracket level.toNat, rest⟩

/-- The token that begins behind the space ahead. -/
def Dialect.sight? (dialect : Dialect) (ahead : List Char) : Option Sighting :=
  (beginning? (ahead.dropWhile dialect.isSpace)).map fun beginning ↦
    ⟨ahead.takeWhile dialect.isSpace, beginning.found, (beginning.token dialect).1,
      (beginning.token dialect).2⟩

namespace Literal

variable {quote : Quote} {level : Level} {ahead body rest : List Char}

theorem sight?_short_content (hbody : (quotedBody quote ahead).1 ≠ []) :
    (short quote).sight? ahead =
      some ⟨[], .content, (quotedBody quote ahead).1, (quotedBody quote ahead).2⟩ := by
  simp [sight?, hbody]

theorem sight?_short_closing (hbody : (quotedBody quote ahead).1 = [])
    (hquote : ahead.head? = some quote.char) :
    (short quote).sight? ahead = some ⟨[], .closing, [quote.char], ahead.tail⟩ := by
  simp [sight?, hbody, hquote]

theorem sight?_short_broken (hbody : (quotedBody quote ahead).1 = [])
    (hquote : ahead.head? ≠ some quote.char) : (short quote).sight? ahead = none := by
  simp [sight?, hbody, hquote]

theorem sight?_long_content
    (hbreak : breakOn? (closingBracket level.toNat) ahead = some (body, rest)) (hbody : body ≠ []) :
    (long level).sight? ahead =
      some ⟨[], .content, body, closingBracket level.toNat ++ rest⟩ := by
  simp [sight?, hbreak, hbody]

theorem sight?_long_closing
    (hbreak : breakOn? (closingBracket level.toNat) ahead = some ([], rest)) :
    (long level).sight? ahead = some ⟨[], .closing, closingBracket level.toNat, rest⟩ := by
  simp [sight?, hbreak]

theorem sight?_long_broken (hbreak : breakOn? (closingBracket level.toNat) ahead = none) :
    (long level).sight? ahead = none := by
  simp [sight?, hbreak]

/-- Inside a literal stands content, or what closes that literal. -/
theorem content_or_closer_of_sight? {literal : Literal} {seen : Sighting}
    (h : literal.sight? ahead = some seen) :
    seen.found = .content ∨ seen.found = .closing ∧ seen.text = literal.closer := by
  cases literal with
  | short quote =>
    by_cases hbody : (quotedBody quote ahead).1 = []
    · by_cases hquote : ahead.head? = some quote.char
      · rw [sight?_short_closing hbody hquote] at h
        cases h
        exact Or.inr ⟨rfl, rfl⟩
      · rw [sight?_short_broken hbody hquote] at h
        cases h
    · rw [sight?_short_content hbody] at h
      cases h
      exact Or.inl rfl
  | long level =>
    rcases hbreak : breakOn? (closingBracket level.toNat) ahead with _ | ⟨body, rest⟩
    · rw [sight?_long_broken hbreak] at h
      cases h
    · by_cases hbody : body = []
      · subst hbody
        rw [sight?_long_closing hbreak] at h
        cases h
        exact Or.inr ⟨rfl, rfl⟩
      · rw [sight?_long_content hbreak hbody] at h
        cases h
        exact Or.inl rfl

end Literal

namespace Recognizer

/-- The token ahead of a scan with this offer. -/
def sight? (recognizer : Recognizer) (offer : Offer) (ahead : List Char) : Option Sighting :=
  match recognizer.resumed offer with
  | some literal => literal.sight? ahead
  | none => recognizer.dialect.sight? ahead

/-- A scan reports this token, or none. -/
def Reports (recognizer : Recognizer) (offer : Offer) (ahead : List Char) : Option Sighting → Prop
  | some seen => recognizer.Yields offer ahead seen.gap seen.found seen.text seen.rest
  | none => (recognizer.scan offer ahead).found = none

variable {recognizer : Recognizer} {offer : Offer} {ahead : List Char} {literal : Literal}

theorem resumed_eq_some_iff :
    recognizer.resumed offer = some literal ↔
      (offer.continues = true ∧ offer.isRecovery = false) ∧ recognizer.opened = some literal := by
  simp [resumed]

theorem resumed_eq_none_iff :
    recognizer.resumed offer = none ↔
      recognizer.opened = none ∨ offer.continues = false ∨ offer.isRecovery = true := by
  cases hopened : recognizer.opened <;> cases hcontinues : offer.continues <;>
    simp [resumed, hopened, hcontinues]

theorem entry_of_resumed (h : recognizer.resumed offer = some literal) :
    recognizer.entry offer = literal.entry := by
  rw [entry, h]

theorem entry_of_opened (hopened : recognizer.opened = some literal)
    (hcontinues : offer.continues = true) (hpart : offer.isRecovery = false) :
    recognizer.entry offer = literal.entry :=
  entry_of_resumed (resumed_eq_some_iff.mpr ⟨⟨hcontinues, hpart⟩, hopened⟩)

/-- The token ahead, if its kind is offered. -/
def offered (offer : Offer) (seen : Option Sighting) : Option Sighting :=
  seen.filter fun sighting ↦ offer.accepts sighting.found.kind

theorem offered_of_accepts {seen : Sighting} (h : offer.accepts seen.found.kind = true) :
    offered offer (some seen) = some seen := by
  rw [offered, Option.filter_some, if_pos h]

theorem offered_of_not_accepts {seen : Sighting} (h : offer.accepts seen.found.kind = false) :
    offered offer (some seen) = none := by
  rw [offered, Option.filter_some, if_neg (Bool.eq_false_iff.mp h)]

/-- To tell what a scan makes of a token ahead, it is enough to tell it where the kind is offered
and where it is not. -/
theorem reports_offered {seen : Sighting}
    (hyields : offer.accepts seen.found.kind = true →
      recognizer.Yields offer ahead seen.gap seen.found seen.text seen.rest)
    (hdeclines : offer.accepts seen.found.kind = false →
      (recognizer.scan offer ahead).found = none) :
    recognizer.Reports offer ahead (offered offer (some seen)) := by
  cases haccepts : offer.accepts seen.found.kind with
  | true =>
    rw [offered_of_accepts haccepts]
    exact hyields haccepts
  | false =>
    rw [offered_of_not_accepts haccepts]
    exact hdeclines haccepts

/-! ### Inside a short literal -/

variable {quote : Quote}

/-- Content that is not offered is passed over, and nothing is found. -/
theorem declines_short_content (hentry : recognizer.entry offer = .quoted quote false)
    (hcontent : offer.content = false) (hne : (quotedBody quote ahead).1 ≠ []) :
    (recognizer.scan offer ahead).found = none := by
  have hbody : (quotedBody quote ahead).1.isEmpty = false := by
    simpa using hne
  have hhead := head_quotedBody quote ahead
  have hscan := congrArg Prod.fst (scan_eq_finish recognizer offer ahead)
  rw [hentry, Phase.finish_quoted, hbody] at hscan
  refine hscan.trans ?_
  by_cases hquote : (quotedBody quote ahead).2.head? = some quote.char
  · obtain ⟨rest, hrest⟩ := List.head?_eq_some_iff.mp hquote
    simp [hrest, Phase.finish_quoted_quote, Phase.contentEnding, hcontent, Ending.settle]
  · rw [Phase.finish_quoted_broken (head_eq_line hhead hquote), Phase.brokenEnding, hcontent]
    simp [Ending.settle, Ending.declined]

/-- Nor is a closing quote found that is not offered. -/
theorem declines_short_closing {rest : List Char}
    (hentry : recognizer.entry offer = .quoted quote false) (hclosing : offer.closing = false) :
    (recognizer.scan offer (quote.char :: rest)).found = none := by
  have hscan := congrArg Prod.fst (scan_eq_finish recognizer offer (quote.char :: rest))
  rw [hentry, Phase.finish_quoted_quote, if_neg Bool.false_ne_true, hclosing] at hscan
  exact hscan

theorem reports_short (hentry : recognizer.entry offer = .quoted quote false) :
    recognizer.Reports offer ahead (offered offer ((Literal.short quote).sight? ahead)) := by
  have hhead := head_quotedBody quote ahead
  have happend := quotedBody_append quote ahead
  by_cases hbody : (quotedBody quote ahead).1 = []
  · rw [hbody, List.nil_append] at happend
    rw [happend] at hhead
    by_cases hquote : ahead.head? = some quote.char
    · obtain ⟨rest, rfl⟩ := List.head?_eq_some_iff.mp hquote
      rw [Literal.sight?_short_closing hbody hquote]
      exact reports_offered (yields_short_closing hentry) (declines_short_closing hentry)
    · rw [Literal.sight?_short_broken hbody hquote]
      exact declines_short hentry (head_eq_line hhead hquote)
  · rw [Literal.sight?_short_content hbody]
    exact reports_offered (fun hcontent ↦ yields_short_content hentry hcontent hbody)
      fun hcontent ↦ declines_short_content hentry hcontent hbody

/-! ### Inside a long literal -/

variable {level : Level} {body rest : List Char}

/-- What a scan between long brackets finds where a closing bracket follows. -/
theorem found_long (hentry : recognizer.entry offer = .body .string level false)
    (hbreak : breakOn? (closingBracket level.toNat) ahead = some (body, rest)) :
    (recognizer.scan offer ahead).found =
      (Phase.closedEnding offer .string (!body.isEmpty)).found := by
  have hcloses := Phase.closes_body ⟨recognizer.dialect, offer⟩ .string level false ahead .initial
  unfold Phase.Closes at hcloses
  rw [hbreak] at hcloses
  have hscan := congrArg Prod.fst (scan_eq_finish recognizer offer ahead)
  rw [hentry, hcloses] at hscan
  exact hscan

theorem reports_long (hentry : recognizer.entry offer = .body .string level false) :
    recognizer.Reports offer ahead (offered offer ((Literal.long level).sight? ahead)) := by
  rcases hbreak : breakOn? (closingBracket level.toNat) ahead with _ | ⟨body, rest⟩
  · rw [Literal.sight?_long_broken hbreak]
    exact (exhausts_long hentry hbreak).1
  have hfound := found_long hentry hbreak
  by_cases hbody : body = []
  · subst hbody
    rw [Literal.sight?_long_closing hbreak]
    refine reports_offered (fun hclosing ↦ ?_) fun hclosing ↦ ?_
    · rw [eq_append_of_breakOn? hbreak]
      exact yields_long_closing hentry hclosing
    · have hnot : offer.closing = false := hclosing
      simp [hfound, Phase.closedEnding, hnot, Ending.declined]
  · rw [Literal.sight?_long_content hbreak hbody]
    refine reports_offered (fun hcontent ↦ yields_long_content hentry hcontent hbreak hbody)
      fun hcontent ↦ ?_
    have hnot : offer.content = false := hcontent
    have hempty : body.isEmpty = false := by
      simpa using hbody
    simp [hfound, hempty, Phase.closedEnding, Phase.contentEnding, hnot]

/-! ### Where no literal is gone on with -/

theorem accepts_of_not_opens (hopens : offer.opens = false) (beginning : Beginning) :
    offer.accepts beginning.found.kind = false := by
  simp only [Offer.opens, Bool.or_eq_false_iff] at hopens
  rcases beginning with _ | _ | _
  · exact hopens.1
  · exact hopens.2
  · exact hopens.2

/-- Where the token that begins ahead is not offered, nothing is found, and the gap may not even be
entered. -/
theorem declines_opening (hresumed : recognizer.resumed offer = none)
    (h : ∀ beginning, beginning? (ahead.dropWhile recognizer.dialect.isSpace) = some beginning →
      offer.accepts beginning.found.kind = false) :
    (recognizer.scan offer ahead).found = none := by
  have hentry : recognizer.entry offer = if offer.opens then .gap else .settled .declined := by
    rw [entry, hresumed]
  cases hopens : offer.opens with
  | true => exact declines_gap (by rw [hentry, hopens]; rfl) h
  | false =>
    rw [hopens] at hentry
    have hscan := congrArg Prod.fst (scan_eq_finish recognizer offer ahead)
    rw [hentry, if_neg Bool.false_ne_true, Phase.finish_settled] at hscan
    exact hscan

theorem reports_opening (hresumed : recognizer.resumed offer = none) :
    recognizer.Reports offer ahead (offered offer (recognizer.dialect.sight? ahead)) := by
  unfold Dialect.sight?
  rcases hfound : beginning? (ahead.dropWhile recognizer.dialect.isSpace) with _ | beginning
  · exact declines_opening hresumed fun beginning hbeginning ↦ by
      rw [hfound] at hbeginning
      cases hbeginning
  refine reports_offered (fun haccepts ↦ ?_) fun hdeclined ↦ ?_
  · have hopens : offer.opens = true := by
      rw [← Bool.not_eq_false]
      intro hopens
      exact Bool.false_ne_true ((accepts_of_not_opens hopens beginning).symm.trans haccepts)
    exact yields_beginning (by rw [entry, hresumed, hopens]; rfl) hfound haccepts
  · refine declines_opening hresumed fun other hother ↦ ?_
    rw [hfound] at hother
    cases hother
    exact hdeclined

/-- A scan reports the token ahead if its kind is offered, and otherwise finds nothing. -/
theorem reports_sight? (recognizer : Recognizer) (offer : Offer) (ahead : List Char) :
    recognizer.Reports offer ahead (offered offer (recognizer.sight? offer ahead)) := by
  unfold sight?
  cases hresumed : recognizer.resumed offer with
  | none => exact reports_opening hresumed
  | some literal =>
    have hentry := entry_of_resumed hresumed
    cases literal with
    | short quote => exact reports_short hentry
    | long level => exact reports_long hentry

/-- What a scan finds is a token ahead whose kind is offered. -/
theorem exists_sighting (h : (recognizer.scan offer ahead).found.isSome = true) :
    ∃ seen, recognizer.sight? offer ahead = some seen ∧
      offer.accepts seen.found.kind = true ∧
      recognizer.Yields offer ahead seen.gap seen.found seen.text seen.rest := by
  have hreports := reports_sight? recognizer offer ahead
  rcases hseen : offered offer (recognizer.sight? offer ahead) with _ | seen
  · rw [hseen] at hreports
    rw [show (recognizer.scan offer ahead).found = none from hreports] at h
    cases h
  · rw [hseen] at hreports
    obtain ⟨hsight, haccepts⟩ := Option.filter_eq_some_iff.mp hseen
    exact ⟨seen, hsight, haccepts, hreports⟩

end Recognizer

namespace Reader

/-! ### The reader behind a scan -/

/-- What a scan leaves behind that reports this token, or none. -/
def pastSighting (reader : Reader) (recognizer : Recognizer) : Option Sighting → Outcome
  | some seen =>
    { token := some
        { kind := seen.found.kind
          start := reader.position.after seen.gap
          stop := (reader.position.after seen.gap).after seen.text
          text := seen.text }
      reader := ⟨reader.position.after (seen.gap ++ seen.text), seen.rest⟩
      recognizer := { recognizer with opened := seen.found.openedAfter recognizer.opened } }
  | none => ⟨none, reader, recognizer⟩

/-- What a scan leaves behind is told by the token ahead and the offer. -/
theorem scan_eq_pastSighting (reader : Reader) (recognizer : Recognizer) (offer : Offer) :
    reader.scan recognizer offer = reader.pastSighting recognizer
      (Recognizer.offered offer (recognizer.sight? offer reader.ahead)) := by
  have hreports := recognizer.reports_sight? offer reader.ahead
  cases hseen : Recognizer.offered offer (recognizer.sight? offer reader.ahead) with
  | some seen =>
    rw [hseen] at hreports
    exact scan_of_yields hreports
  | none =>
    rw [hseen] at hreports
    exact scan_of_found_none hreports

end Reader

end LuaLiterals
