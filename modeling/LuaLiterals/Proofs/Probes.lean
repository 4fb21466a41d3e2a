import LuaLiterals.Session

/-!
Scans that find nothing. Such a scan may have skipped space, read half an opening bracket or gone
through the whole rest of a source in search of a closing one, and may have marked places on its
way; nothing of that is left behind it, and it has written nothing meanwhile
(`writes_of_scan`). A scan leaves a session as it was exactly if it reports no token
(`step_scan_eq_self_iff`). A host may therefore probe at any point for whatever it likes:
`probes_are_invisible` says that, as long as its probing scans find nothing, everything else that it
does comes to the same as without them.
-/

set_option autoImplicit false
set_option relaxedAutoImplicit false

namespace LuaLiterals

namespace Session

/-- What a host does: an act of its session, or a probing scan put between these. -/
inductive Turn
  | own (act : Act)
  | probe (offer : Offer)
deriving DecidableEq, Repr

def Turn.act : Turn → Act
  | own act => act
  | probe offer => .scan offer

/-- The act of the session behind a turn, if it is one. -/
def Turn.own? : Turn → Option Act
  | own act => some act
  | probe _ => none

/-- Each turn with its reply and the session behind it. -/
def course (session : Session) (turns : List Turn) : List (Turn × Reply × Session) :=
  turns.zip (session.run (turns.map Turn.act))

theorem course_cons (session : Session) (turn : Turn) (turns : List Turn) :
    session.course (turn :: turns) =
      (turn, session.step turn.act) :: (session.step turn.act).2.course turns := rfl

/-- A scan that reports a token goes to the end of it, and one that reports none changes nothing. -/
theorem step_scan_eq_self_iff (session : Session) (offer : Offer) :
    (session.step (.scan offer)).2 = session ↔ (session.step (.scan offer)).1 = .token none := by
  constructor
  · intro hsession
    rcases htoken : (session.reader.scan session.recognizer offer).token with _ | token
    · exact congrArg Reply.token htoken
    -- A token leaves fewer characters ahead.
    have hlt := Reader.length_ahead_lt_of_scan (Option.isSome_of_eq_some htoken)
    have hreader : (session.reader.scan session.recognizer offer).reader = session.reader :=
      congrArg Session.reader hsession
    rw [hreader] at hlt
    exact absurd hlt (Nat.lt_irrefl _)
  · intro hreply
    have htoken : (session.reader.scan session.recognizer offer).token = none :=
      Reply.token.inj hreply
    simp only [step, Reader.scan_of_found_none (Option.map_eq_none_iff.mp htoken)]

/-- Probing scans that find nothing, in any number and at any points, change neither a later reply
nor the session behind it. -/
theorem own_course_eq_run (session : Session) (turns : List Turn)
    (h : ∀ entry ∈ session.course turns, entry.1.own? = none → entry.2.1 = .token none) :
    ((session.course turns).filter fun entry ↦ entry.1.own?.isSome).map Prod.snd =
      session.run (turns.filterMap Turn.own?) := by
  induction turns generalizing session with
  | nil => rfl
  | cons turn turns ih =>
    rw [course_cons] at h ⊢
    obtain ⟨hturn, hturns⟩ := List.forall_mem_cons.mp h
    have hrest := ih (session.step turn.act).2 hturns
    cases turn with
    | own act =>
      have hown : (Turn.own act :: turns).filterMap Turn.own? =
          act :: turns.filterMap Turn.own? := List.filterMap_cons_some rfl
      rw [List.filter_cons_of_pos rfl, List.map_cons, hrest, hown]
      rfl
    | probe offer =>
      have hown : (Turn.probe offer :: turns).filterMap Turn.own? =
          turns.filterMap Turn.own? := List.filterMap_cons_none rfl
      have hsession : (session.step (Turn.probe offer).act).2 = session :=
        (step_scan_eq_self_iff session offer).mpr (hturn rfl)
      rw [List.filter_cons_of_neg Bool.false_ne_true, hrest, hown, hsession]

/-- A scan leaves the place, the open literal and the dialect as they were exactly if it reports no
token, and a host that probes without finding anything is answered as if it had not probed. -/
theorem probes_are_invisible (session : Session) :
    (∀ offer, (session.step (.scan offer)).2 = session ↔
      (session.step (.scan offer)).1 = .token none) ∧
    ∀ turns, (∀ entry ∈ session.course turns, entry.1.own? = none → entry.2.1 = .token none) →
      ((session.course turns).filter fun entry ↦ entry.1.own?.isSome).map Prod.snd =
        session.run (turns.filterMap Turn.own?) :=
  ⟨step_scan_eq_self_iff session, own_course_eq_run session⟩

/-- The first probe stops inside what only looks like an opening bracket, and the others read an
unfinished literal over its line feed to the end of the source. -/
theorem probes_are_invisible_of_unfinished :
    let session := ofSource ['[', '=', 'x', '[', '[', 'a', '\n', ']'] .initial
    let turns := [.probe .outside, .own .take, .own .take, .own .take, .own (.scan .outside),
      .probe .inside, .own .take, .probe .inside, .own .isAtLineEnd]
    (∀ entry ∈ session.course turns, entry.1.own? = none → entry.2.1 = .token none) ∧
      ((session.course turns).filter fun entry ↦ entry.1.own?.isSome).map Prod.snd =
        session.run [.take, .take, .take, .scan .outside, .take, .isAtLineEnd] := by
  intro session turns
  have hquiet : ∀ entry ∈ session.course turns, entry.1.own? = none → entry.2.1 = .token none := by
    decide
  exact ⟨hquiet, (probes_are_invisible session).2 turns hquiet⟩

end Session

end LuaLiterals
