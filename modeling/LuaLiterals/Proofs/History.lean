import LuaLiterals.Proofs.Sightings
import LuaLiterals.Session

/-!
The open literal and the tokens reported so far. A host may scan for anything at any time and step
over characters in between; it need not follow the grammar of Lua, and it may open a literal while
another one is open. Whatever it does, the last delimiter that was reported tells which literal is
open (`Session.Recalls`), and a token is reported only where that literal warrants it
(`Session.Warranted`). One step keeps the first (`Recalls.step`), and an induction on the steps
gives the main statement `opened_mirrors_tokens`.
-/

set_option autoImplicit false
set_option relaxedAutoImplicit false

namespace LuaLiterals

/-- The literal that an opening delimiter opens. -/
inductive Literal.WrittenAs : Literal → List Char → Prop
  | short (quote : Quote) : WrittenAs (.short quote) [quote.char]
  | long (count : Nat) : WrittenAs (.long (.ofCount count)) (openingBracket count)

/-- An opening or a closing delimiter. -/
def Token.isDelimiter (token : Token) : Bool :=
  token.kind = .opening || token.kind = .closing

namespace Session

/-- A step of a host that reads on. -/
inductive Move
  | scan (offer : Offer)
  /-- Over one character, outside a scan. -/
  | take
deriving DecidableEq, Repr

def Move.act : Move → Act
  | scan offer => .scan offer
  | take => .take

def Reply.token? : Reply → Option Token
  | .token found => found
  | _ => none

/-- The session behind a number of moves. -/
def behind (session : Session) : List Move → Session
  | [] => session
  | move :: moves => (session.step move.act).2.behind moves

/-- The tokens that the moves report, in their order. -/
def tokens (session : Session) : List Move → List Token
  | [] => []
  | move :: moves =>
    (session.step move.act).1.token?.toList ++ (session.step move.act).2.tokens moves

/-- The literal that is open, told by the last delimiter among the tokens reported: none behind a
closing one, and behind an opening one the literal that it opens. Without any delimiter it is the
one that was open at the beginning. -/
def Recalls (initial : Option Literal) (tokens : List Token) (opened : Option Literal) : Prop :=
  match (tokens.filter Token.isDelimiter).getLast? with
  | none => opened = initial
  | some token =>
    if token.kind = .closing then opened = none
    else ∃ literal, opened = some literal ∧ literal.WrittenAs token.text

/-- What a host can rely on if a scan with this offer reports a token, given the literal open in
front of it. -/
structure Warranted (offer : Offer) (opened : Option Literal) (token : Token) : Prop where
  accepts : offer.accepts token.kind = true
  /-- A part of a literal is reported only if one is open, and never to a host that recovers. -/
  inside : token.kind = .content ∨ token.kind = .closing →
    opened.isSome = true ∧ offer.isRecovery = false
  /-- A closing delimiter is the one of the literal that is open. -/
  closer : token.kind = .closing →
    ∃ literal, opened = some literal ∧ token.text = literal.closer

/-! ### What a scan reports -/

variable {dialect : Dialect} {recognizer : Recognizer} {offer : Offer} {ahead : List Char}
variable {opened initial : Option Literal} {token : Token} {history : List Token}

/-- Where no literal is gone on with, a comment stands ahead, or what opens a literal. -/
theorem comment_or_opener_of_sight? {seen : Sighting} (h : dialect.sight? ahead = some seen) :
    seen.found = .comment ∨
      ∃ literal, seen.found = .opening literal ∧ literal.WrittenAs seen.text := by
  obtain ⟨beginning, -, rfl⟩ := Option.map_eq_some_iff.mp h
  rcases beginning with rest | ⟨quote, rest⟩ | ⟨count, rest⟩
  · exact Or.inl rfl
  · exact Or.inr ⟨_, rfl, .short quote⟩
  · exact Or.inr ⟨_, rfl, .long count⟩

/-- A part of a literal that a scan sees belongs to the literal it goes on with. -/
theorem resumed_of_sight? {seen : Sighting} (h : recognizer.sight? offer ahead = some seen)
    (hinside : seen.found.kind = .content ∨ seen.found.kind = .closing) :
    ∃ literal, recognizer.resumed offer = some literal ∧
      (seen.found.kind = .closing → seen.text = literal.closer) := by
  unfold Recognizer.sight? at h
  cases hresumed : recognizer.resumed offer with
  | none =>
    rw [hresumed] at h
    rcases comment_or_opener_of_sight? h with hfound | ⟨literal, hfound, -⟩
    · rw [hfound] at hinside
      simp [Found.kind] at hinside
    · rw [hfound] at hinside
      simp [Found.kind] at hinside
  | some literal =>
    rw [hresumed] at h
    refine ⟨literal, rfl, fun hclosing ↦ ?_⟩
    rcases Literal.content_or_closer_of_sight? h with hfound | ⟨-, htext⟩
    · rw [hfound] at hclosing
      cases hclosing
    · exact htext

theorem warranted_of_sight? {seen : Sighting} (h : recognizer.sight? offer ahead = some seen)
    (haccepts : offer.accepts seen.found.kind = true) (hkind : token.kind = seen.found.kind)
    (htext : token.text = seen.text) : Warranted offer recognizer.opened token := by
  refine ⟨hkind ▸ haccepts, fun hinside ↦ ?_, fun hclosing ↦ ?_⟩
  · rw [hkind] at hinside
    obtain ⟨literal, hresumed, -⟩ := resumed_of_sight? h hinside
    obtain ⟨⟨-, hrecovery⟩, hopened⟩ := Recognizer.resumed_eq_some_iff.mp hresumed
    exact ⟨Option.isSome_iff_exists.mpr ⟨literal, hopened⟩, hrecovery⟩
  · rw [hkind] at hclosing
    obtain ⟨literal, hresumed, hcloser⟩ := resumed_of_sight? h (Or.inr hclosing)
    refine ⟨literal, (Recognizer.resumed_eq_some_iff.mp hresumed).2, ?_⟩
    rw [htext, hcloser hclosing]

/-- An opening delimiter that a scan sees is the one of the literal that it opens. -/
theorem writtenAs_of_sight? {seen : Sighting} {literal : Literal}
    (h : recognizer.sight? offer ahead = some seen) (hfound : seen.found = .opening literal) :
    literal.WrittenAs seen.text := by
  unfold Recognizer.sight? at h
  cases hresumed : recognizer.resumed offer with
  | none =>
    rw [hresumed] at h
    rcases comment_or_opener_of_sight? h with hcomment | ⟨other, hopening, hwritten⟩
    · rw [hfound] at hcomment
      cases hcomment
    · rw [hfound] at hopening
      cases hopening
      exact hwritten
  | some resumed =>
    rw [hresumed] at h
    rcases Literal.content_or_closer_of_sight? h with hcontent | ⟨hclosing, -⟩
    · rw [hfound] at hcontent
      cases hcontent
    · rw [hfound] at hclosing
      cases hclosing

/-- The literal open behind a token is told by that token, if it is a delimiter. -/
theorem recalls_of_sight? {seen : Sighting} (h : recognizer.sight? offer ahead = some seen)
    (hkind : token.kind = seen.found.kind) (htext : token.text = seen.text) :
    Recalls recognizer.opened [token] (seen.found.openedAfter recognizer.opened) := by
  unfold Recalls
  cases hfound : seen.found with
  | comment => simp [Token.isDelimiter, hkind, hfound, Found.kind, Found.openedAfter]
  | content => simp [Token.isDelimiter, hkind, hfound, Found.kind, Found.openedAfter]
  | closing => simp [Token.isDelimiter, hkind, hfound, Found.kind, Found.openedAfter]
  | opening literal =>
    have hwritten := writtenAs_of_sight? h hfound
    simp [Token.isDelimiter, hkind, htext, hfound, hwritten, Found.kind, Found.openedAfter]

/-! ### Runs -/

theorem recalls_nil (opened : Option Literal) : Recalls opened [] opened := rfl

/-- What later tokens tell counts before what earlier ones told. -/
theorem Recalls.trans {later : Option Literal} {tokens : List Token}
    (hearlier : Recalls initial history opened) (hlater : Recalls opened tokens later) :
    Recalls initial (history ++ tokens) later := by
  unfold Recalls at hlater ⊢
  rw [List.filter_append, List.getLast?_append]
  cases hlast : (tokens.filter Token.isDelimiter).getLast? with
  | none =>
    rw [hlast] at hlater
    rw [Option.none_or, show later = opened from hlater]
    exact hearlier
  | some token =>
    rw [hlast] at hlater
    exact hlater

/-- A scan reports a token that is warranted and tells what is open behind it, or it reports none
and leaves open what was. -/
theorem step_scan (session : Session) (offer : Offer) :
    (∀ token, (session.step (.scan offer)).1.token? = some token →
      Warranted offer session.recognizer.opened token) ∧
    Recalls session.recognizer.opened (session.step (.scan offer)).1.token?.toList
      (session.step (.scan offer)).2.recognizer.opened := by
  cases hfound : (session.recognizer.scan offer session.reader.ahead).found with
  | none =>
    simp only [step, Reader.scan_of_found_none hfound]
    refine ⟨fun token htoken ↦ ?_, recalls_nil _⟩
    cases htoken
  | some found =>
    have hsome : (session.recognizer.scan offer session.reader.ahead).found.isSome = true := by
      rw [hfound]
      rfl
    obtain ⟨seen, hsight, haccepts, hyields⟩ := Recognizer.exists_sighting hsome
    simp only [step, Reader.scan_of_yields hyields]
    refine ⟨fun token htoken ↦ ?_, recalls_of_sight? hsight rfl rfl⟩
    cases htoken
    exact warranted_of_sight? hsight haccepts rfl rfl

theorem Recalls.step (session : Session) (move : Move) :
    Recalls session.recognizer.opened (session.step move.act).1.token?.toList
      (session.step move.act).2.recognizer.opened := by
  cases move with
  | scan offer => exact (step_scan session offer).2
  | take => exact recalls_nil _

/-- The tokens that a run reports tell which literal is open behind it. -/
theorem recalls_behind (session : Session) (moves : List Move) :
    Recalls session.recognizer.opened (session.tokens moves)
      (session.behind moves).recognizer.opened := by
  induction moves generalizing session with
  | nil => exact recalls_nil _
  | cons move moves ih => exact (Recalls.step session move).trans (ih _)

/-- Behind any moves, the literal that is open is the one told by the tokens reported, and a scan
there reports only what that literal and the offer warrant. -/
theorem opened_mirrors_tokens (source : List Char) (recognizer : Recognizer) (moves : List Move) :
    let session := (ofSource source recognizer).behind moves
    Recalls recognizer.opened ((ofSource source recognizer).tokens moves)
        session.recognizer.opened ∧
      ∀ (offer : Offer) (token : Token), (session.step (.scan offer)).1 = .token (some token) →
        Warranted offer session.recognizer.opened token := by
  refine ⟨recalls_behind _ moves, fun offer token htoken ↦ ?_⟩
  exact (step_scan _ offer).1 token (congrArg Reply.token? htoken)

/-- A literal that is opened over an open one takes its place, and the quote of the latter does not
close it. -/
example :
    let session := ofSource ['"', '[', '=', '[', '"'] ⟨.plain, none⟩
    let moves := [.scan .outside, .scan .outside, .scan .inside, .take]
    (session.tokens moves).map Token.kind = [.opening, .opening] ∧
      (session.behind moves).recognizer.opened = some (.long 1) := by
  decide

end Session

end LuaLiterals
