import LuaLiterals.Proofs.Sightings

/-!
What an offer has to do with what is found. It decides whether a scan goes on with the open literal
(`Recognizer.GoesOn`), and beyond that it only filters: the token ahead is the one that a scan for
everything inside a literal, or everything outside of one, finds there, and it is reported if its
kind is offered (`scan_eq_ifOffered`). A host that offers more within the same mode loses nothing
that it found before, and outside of a literal it does not matter which one was left open. The main
statement `offers_only_filter` puts these together.
-/

set_option autoImplicit false
set_option relaxedAutoImplicit false

namespace LuaLiterals

namespace Recognizer

/-- A literal is open, a part of one is offered, and the host does not recover. -/
def GoesOn (recognizer : Recognizer) (offer : Offer) : Prop :=
  recognizer.opened.isSome = true ∧ offer.continues = true ∧ offer.isRecovery = false

instance (recognizer : Recognizer) (offer : Offer) : Decidable (recognizer.GoesOn offer) :=
  inferInstanceAs (Decidable (_ ∧ _))

variable {recognizer : Recognizer} {offer : Offer}

theorem goesOn_iff :
    recognizer.GoesOn offer ↔ ∃ literal, recognizer.resumed offer = some literal := by
  simp only [GoesOn, resumed_eq_some_iff, Option.isSome_iff_exists, exists_and_left]
  exact and_comm

theorem not_goesOn_iff : ¬ recognizer.GoesOn offer ↔ recognizer.resumed offer = none := by
  rw [goesOn_iff, ← Option.isSome_iff_exists, Bool.not_eq_true, Option.isSome_eq_false_iff,
    Option.isNone_iff_eq_none]

/-- A host that offers everything inside a literal is offered all that stands there. -/
theorem offered_inside (literal : Literal) (ahead : List Char) :
    offered .inside (literal.sight? ahead) = literal.sight? ahead := by
  cases hseen : literal.sight? ahead with
  | none => rfl
  | some seen =>
    rcases Literal.content_or_closer_of_sight? hseen with hfound | ⟨hfound, -⟩ <;>
      exact offered_of_accepts (by rw [hfound]; rfl)

/-- A host that offers everything outside of literals is offered all that begins there. -/
theorem offered_outside (dialect : Dialect) (ahead : List Char) :
    offered .outside (dialect.sight? ahead) = dialect.sight? ahead := by
  cases hseen : dialect.sight? ahead with
  | none => rfl
  | some seen =>
    obtain ⟨beginning, -, rfl⟩ := Option.map_eq_some_iff.mp hseen
    rcases beginning with _ | _ | _ <;> exact offered_of_accepts rfl

end Recognizer

namespace Reader

open Recognizer

/-- The outcome of a scan from here, if it has a token whose kind is offered; a host that is offered
any other stays where it was. -/
def ifOffered (reader : Reader) (recognizer : Recognizer) (offer : Offer) (outcome : Outcome) :
    Outcome :=
  if outcome.token.any fun token ↦ offer.accepts token.kind then outcome
  else ⟨none, reader, recognizer⟩

variable {reader : Reader} {recognizer : Recognizer} {offer larger : Offer}

theorem ifOffered_pastSighting (seen : Option Sighting) :
    reader.ifOffered recognizer offer (reader.pastSighting recognizer seen) =
      reader.pastSighting recognizer (offered offer seen) := by
  cases seen with
  | none => rfl
  | some seen =>
    cases haccepts : offer.accepts seen.found.kind with
    | true =>
      rw [offered_of_accepts haccepts]
      exact if_pos haccepts
    | false =>
      rw [offered_of_not_accepts haccepts]
      exact if_neg (Bool.eq_false_iff.mp haccepts)

/-- What is kept of an outcome is kept if more kinds are offered. -/
theorem ifOffered_of_larger {outcome : Outcome}
    (hlarger : ∀ kind, offer.accepts kind = true → larger.accepts kind = true)
    (hfound : (reader.ifOffered recognizer offer outcome).token.isSome = true) :
    reader.ifOffered recognizer larger outcome = reader.ifOffered recognizer offer outcome := by
  unfold ifOffered at hfound ⊢
  rcases htoken : outcome.token with _ | token
  · rfl
  rw [htoken, Option.any_some] at hfound
  rw [Option.any_some, Option.any_some]
  cases haccepts : offer.accepts token.kind with
  | true => rw [if_pos (hlarger _ haccepts), if_pos rfl]
  | false =>
    rw [haccepts, if_neg Bool.false_ne_true] at hfound
    cases hfound

/-- A scan that sees the same as one for a larger offer filters what that one finds. -/
theorem scan_eq_ifOffered
    (hsight : recognizer.sight? offer reader.ahead = recognizer.sight? larger reader.ahead)
    (hwhole : offered larger (recognizer.sight? larger reader.ahead) =
      recognizer.sight? larger reader.ahead) :
    reader.scan recognizer offer =
      reader.ifOffered recognizer offer (reader.scan recognizer larger) := by
  rw [scan_eq_pastSighting, scan_eq_pastSighting reader recognizer larger, hwhole,
    ifOffered_pastSighting, hsight]

theorem scan_of_goesOn (h : recognizer.GoesOn offer) :
    reader.scan recognizer offer =
      reader.ifOffered recognizer offer (reader.scan recognizer .inside) := by
  obtain ⟨literal, hresumed⟩ := goesOn_iff.mp h
  have hinside : recognizer.resumed .inside = some literal :=
    resumed_eq_some_iff.mpr ⟨⟨rfl, rfl⟩, (resumed_eq_some_iff.mp hresumed).2⟩
  refine scan_eq_ifOffered ?_ ?_
  · simp only [sight?, hresumed, hinside]
  · simp only [sight?, hinside, offered_inside]

theorem scan_of_not_goesOn (h : ¬ recognizer.GoesOn offer) :
    reader.scan recognizer offer =
      reader.ifOffered recognizer offer (reader.scan recognizer .outside) := by
  have hresumed := not_goesOn_iff.mp h
  have houtside : recognizer.resumed .outside = none := rfl
  refine scan_eq_ifOffered ?_ ?_
  · simp only [sight?, hresumed, houtside]
  · simp only [sight?, houtside, offered_outside]

theorem scan_of_not_opens (h : ¬ recognizer.GoesOn offer) (hopens : offer.opens = false) :
    reader.scan recognizer offer = ⟨none, reader, recognizer⟩ :=
  scan_of_found_none (declines_opening (not_goesOn_iff.mp h) fun beginning _ ↦
    accepts_of_not_opens hopens beginning)

/-- Outside of a literal the token found does not tell which literal was left open. -/
theorem token_scan_of_stale {opened : Option Literal} (h : ¬ recognizer.GoesOn offer)
    (hother : ¬ { recognizer with opened }.GoesOn offer) :
    (reader.scan { recognizer with opened } offer).token =
      (reader.scan recognizer offer).token := by
  rw [scan_eq_pastSighting, scan_eq_pastSighting reader recognizer]
  simp only [sight?, not_goesOn_iff.mp h, not_goesOn_iff.mp hother]
  cases offered offer (recognizer.dialect.sight? reader.ahead) <;> rfl

/-- A scan for more kinds of the same mode finds what a scan for fewer found. -/
theorem scan_of_larger (hmode : recognizer.GoesOn larger ↔ recognizer.GoesOn offer)
    (hlarger : ∀ kind, offer.accepts kind = true → larger.accepts kind = true)
    (hfound : (reader.scan recognizer offer).token.isSome = true) :
    reader.scan recognizer larger = reader.scan recognizer offer := by
  by_cases h : recognizer.GoesOn offer
  · rw [scan_of_goesOn h] at hfound ⊢
    rw [scan_of_goesOn (hmode.mpr h)]
    exact ifOffered_of_larger hlarger hfound
  · rw [scan_of_not_goesOn h] at hfound ⊢
    rw [scan_of_not_goesOn (mt hmode.mp h)]
    exact ifOffered_of_larger hlarger hfound

/-- Where a scan goes on with a literal, it finds what a scan for both parts of a literal finds, as
far as that is offered. Elsewhere it finds what a scan for a comment or an opening delimiter finds,
as far as that is offered, and whichever literal was left open; if it is offered neither it
finds nothing. So a host that offers more in the same mode finds the same, or something where it
found nothing. -/
theorem offers_only_filter (reader : Reader) (recognizer : Recognizer) (offer : Offer) :
    (recognizer.GoesOn offer →
      reader.scan recognizer offer =
        reader.ifOffered recognizer offer (reader.scan recognizer .inside)) ∧
    (¬ recognizer.GoesOn offer → offer.opens = true →
      reader.scan recognizer offer =
          reader.ifOffered recognizer offer (reader.scan recognizer .outside) ∧
        ∀ opened, let other : Recognizer := { recognizer with opened }
          (reader.scan other .outside).token = (reader.scan recognizer .outside).token ∧
            (¬ other.GoesOn offer →
              (reader.scan other offer).token = (reader.scan recognizer offer).token)) ∧
    (¬ recognizer.GoesOn offer → offer.opens = false →
      reader.scan recognizer offer = ⟨none, reader, recognizer⟩) ∧
    ∀ larger, (recognizer.GoesOn larger ↔ recognizer.GoesOn offer) →
      (∀ kind, offer.accepts kind = true → larger.accepts kind = true) →
      (reader.scan recognizer offer).token.isSome = true →
      reader.scan recognizer larger = reader.scan recognizer offer := by
  refine ⟨scan_of_goesOn, fun hmode _ ↦ ⟨scan_of_not_goesOn hmode, fun opened ↦ ⟨?_, ?_⟩⟩,
    scan_of_not_opens, fun larger ↦ scan_of_larger⟩
  · exact token_scan_of_stale (not_goesOn_iff.mpr rfl) (not_goesOn_iff.mpr rfl)
  · exact token_scan_of_stale hmode

/-- Inside a long literal two dashes are content, for a host that also takes the closing bracket as
for one that does not; for a host that recovers they begin a comment, as if nothing were open. -/
theorem offers_only_filter_of_dashes :
    let reader := Reader.ofSource ['-', '-', 'x', ']', ']']
    let recognizer : Recognizer := ⟨.plain, some (.long 0)⟩
    let recovery : Offer := ⟨true, true, true, true⟩
    (¬ recognizer.GoesOn recovery ∧
      reader.scan recognizer recovery =
        reader.ifOffered recognizer recovery (reader.scan recognizer .outside) ∧
      (reader.scan { recognizer with opened := none } recovery).token =
        (reader.scan recognizer recovery).token) ∧
    recognizer.GoesOn ⟨true, false, true, false⟩ ∧
      (reader.scan recognizer ⟨true, false, true, false⟩).token.isSome = true ∧
      reader.scan recognizer ⟨true, false, true, true⟩ =
        reader.scan recognizer ⟨true, false, true, false⟩ := by
  intro reader recognizer recovery
  have hrecovery : ¬ recognizer.GoesOn recovery := by decide
  have hfound : (reader.scan recognizer ⟨true, false, true, false⟩).token.isSome = true := by
    decide
  obtain ⟨-, houtside, -, -⟩ := offers_only_filter reader recognizer recovery
  obtain ⟨-, -, -, hlarger⟩ := offers_only_filter reader recognizer ⟨true, false, true, false⟩
  obtain ⟨hfiltered, hstale⟩ := houtside hrecovery rfl
  refine ⟨⟨hrecovery, hfiltered, (hstale none).2 (by decide)⟩, by decide, hfound, ?_⟩
  exact hlarger ⟨true, false, true, true⟩ (by decide) (by intro kind; cases kind <;> decide) hfound

end Reader

end LuaLiterals
