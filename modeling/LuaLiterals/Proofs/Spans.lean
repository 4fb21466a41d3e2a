import LuaLiterals.Proofs.Whereabouts

/-!
Tokens as pieces of the source. A token that a scan reports is cut out of the source behind the
place where the scan began: it is not empty, it ends inside the source, neither of its ends lies
inside a character, and the reader goes on at the end of it (`Reader.StandsAt.cutFrom`). A comment
or an opening delimiter may have space in front of it, a part of a literal has nothing
(`Recognizer.gap_of_sight?`). Each scan of a session therefore begins no earlier than the token
before it has ended, and `Session.tokens_are_slices_in_order` says that the tokens of a session are
disjoint pieces of its source, one behind the other.
-/

set_option autoImplicit false
set_option relaxedAutoImplicit false

namespace LuaLiterals

/-- The bytes of a text in UTF-8. -/
def bytesOf (text : List Char) : List UInt8 := text.flatMap String.utf8EncodeChar

theorem bytesOf_append (first second : List Char) :
    bytesOf (first ++ second) = bytesOf first ++ bytesOf second := List.flatMap_append

/-- A text is at least as long in bytes as in characters. -/
theorem length_le_length_bytesOf (text : List Char) : text.length ≤ (bytesOf text).length := by
  induction text with
  | nil => exact Nat.le_refl 0
  | cons c text ih =>
    have hsize : 0 < c.utf8Size := c.utf8Size_pos
    simp only [bytesOf, List.flatMap_cons, List.length_append, String.length_utf8EncodeChar,
      List.length_cons] at ih ⊢
    omega

namespace Position

theorem byte_endOf (text : List Char) : (endOf text).byte = (bytesOf text).length := rfl

/-- Stepping over a text adds its bytes. -/
theorem byte_after (position : Position) (text : List Char) :
    (position.after text).byte = position.byte + (bytesOf text).length := by
  induction text generalizing position with
  | nil => rfl
  | cons c text ih =>
    rw [after_cons, ih]
    simp only [next, bytesOf, List.flatMap_cons, List.length_append, String.length_utf8EncodeChar]
    omega

theorem byte_le_after (position : Position) (text : List Char) :
    position.byte ≤ (position.after text).byte := by
  rw [byte_after]
  exact Nat.le_add_right _ _

theorem byte_lt_after (position : Position) {text : List Char} (h : text ≠ []) :
    position.byte < (position.after text).byte := by
  have hlength := length_le_length_bytesOf text
  have hpos := List.length_pos_iff.mpr h
  rw [byte_after]
  omega

end Position

/-- The token is a piece of the source behind the place where the scan for it began. -/
structure Token.CutFrom (token : Token) (source : List Char) (dialect : Dialect)
    (place : Position) : Prop where
  place_le : place.byte ≤ token.start.byte
  start_lt : token.start.byte < token.stop.byte
  stop_le : token.stop.byte ≤ (bytesOf source).length
  /-- Both ends lie between two characters of the source. -/
  ends : token.start.LiesIn source ∧ token.stop.LiesIn source
  slice : (bytesOf source).extract token.start.byte token.stop.byte = bytesOf token.text
  /-- Only space is passed over in front of what may begin behind space. -/
  space : token.kind = .comment ∨ token.kind = .opening →
    ∀ c ∈ source.extract place.char token.start.char, dialect.isSpace c = true
  /-- Nothing is passed over in front of a part of a literal. -/
  directly : token.kind = .content ∨ token.kind = .closing → token.start = place

/-- One token lies behind the other, and both ends of it do. -/
structure Token.Precedes (earlier later : Token) : Prop where
  disjoint : earlier.stop.byte ≤ later.start.byte
  start_lt : earlier.start.byte < later.start.byte
  stop_lt : earlier.stop.byte < later.stop.byte

/-! ### What stands in front of a token -/

section Gap

variable {recognizer : Recognizer} {dialect : Dialect} {literal : Literal} {offer : Offer}
variable {ahead : List Char} {seen : Sighting}

theorem Literal.gap_of_sight? (h : literal.sight? ahead = some seen) : seen.gap = [] := by
  cases literal with
  | short quote =>
    simp only [sight?] at h
    split at h
    next => cases h; rfl
    next =>
      split at h
      next => cases h; rfl
      next => cases h
  | long level =>
    obtain ⟨⟨body, rest⟩, -, rfl⟩ := Option.map_eq_some_iff.mp h
    by_cases hbody : body = []
    · simp [hbody]
    · simp [hbody]

theorem Dialect.gap_of_sight? (h : dialect.sight? ahead = some seen) :
    seen.gap = ahead.takeWhile dialect.isSpace := by
  obtain ⟨beginning, -, rfl⟩ := Option.map_eq_some_iff.mp h
  rfl

/-- In front of a comment or an opening delimiter there is only space, and in front of a part of a
literal there is nothing. -/
theorem Recognizer.gap_of_sight? (h : recognizer.sight? offer ahead = some seen) :
    (∀ c ∈ seen.gap, recognizer.dialect.isSpace c = true) ∧
      (seen.found.kind = .content ∨ seen.found.kind = .closing → seen.gap = []) := by
  unfold Recognizer.sight? at h
  cases hresumed : recognizer.resumed offer with
  | some literal =>
    rw [hresumed] at h
    have hgap := Literal.gap_of_sight? h
    rw [hgap]
    exact ⟨fun c hc ↦ absurd hc List.not_mem_nil, fun _ ↦ rfl⟩
  | none =>
    rw [hresumed] at h
    refine ⟨fun c hc ↦ ?_, fun hkind ↦ ?_⟩
    · rw [Dialect.gap_of_sight? h] at hc
      exact List.all_eq_true.mp List.all_takeWhile c hc
    · rcases Session.comment_or_opener_of_sight? h with hfound | ⟨opened, hfound, -⟩
      · simp [hfound, Found.kind] at hkind
      · simp [hfound, Found.kind] at hkind

end Gap

/-! ### One scan -/

theorem extract_between {α : Type} (front middle rest : List α) :
    (front ++ middle ++ rest).extract front.length (front ++ middle).length = middle := by
  simp

/-- A text between two others, with the space in front of it, is a piece of what they make up. -/
theorem Token.cutFrom_append {token : Token} {dialect : Dialect} {front gap rest : List Char}
    (hstart : token.start = (Position.endOf front).after gap)
    (hstop : token.stop = token.start.after token.text) (htext : token.text ≠ [])
    (hspace : ∀ c ∈ gap, dialect.isSpace c = true)
    (hdirectly : token.kind = .content ∨ token.kind = .closing → gap = []) :
    token.CutFrom (front ++ gap ++ token.text ++ rest) dialect (.endOf front) := by
  have hbegins : token.start = .endOf (front ++ gap) := by
    rw [hstart, Position.after_endOf]
  have hends : token.stop = .endOf (front ++ gap ++ token.text) := by
    rw [hstop, hbegins, Position.after_endOf]
  have hgap : (front ++ gap ++ token.text ++ rest).extract (Position.endOf front).char
      token.start.char = gap := by
    rw [hbegins, List.append_assoc (front ++ gap)]
    exact extract_between _ _ _
  refine ⟨?_, ?_, ?_, ⟨?_, ?_⟩, ?_, ?_, ?_⟩
  · rw [hstart]
    exact Position.byte_le_after _ gap
  · rw [hstop]
    exact Position.byte_lt_after _ htext
  · rw [hends, Position.byte_endOf, bytesOf_append _ rest, List.length_append]
    exact Nat.le_add_right _ _
  · rw [hbegins]
    exact Position.liesIn_endOf ⟨token.text ++ rest, (List.append_assoc _ _ _).symm⟩
  · rw [hends]
    exact Position.liesIn_endOf ⟨rest, rfl⟩
  · rw [hbegins, hends, Position.byte_endOf, Position.byte_endOf, bytesOf_append _ rest,
      bytesOf_append _ token.text]
    exact extract_between _ _ _
  · rw [hgap]
    exact fun _ ↦ hspace
  · intro hkind
    rw [hstart, hdirectly hkind, Position.after_nil]

namespace Reader

variable {reader rest : Reader} {recognizer : Recognizer} {offer : Offer} {token : Token}
variable {source gap : List Char} {count : Nat}

/-- A token that is reported is a piece of the source, and the reader goes to the end of it. -/
theorem StandsAt.cutFrom (h : reader.StandsAt source count)
    (htoken : (reader.scan recognizer offer).token = some token) :
    token.CutFrom source recognizer.dialect reader.position ∧
      (reader.scan recognizer offer).reader.position = token.stop := by
  have htext := (passes_of_scan htoken).text_ne_nil
  have hreports := recognizer.reports_sight? offer reader.ahead
  rw [scan_eq_pastSighting] at htoken ⊢
  cases hseen : Recognizer.offered offer (recognizer.sight? offer reader.ahead) with
  | none =>
    rw [hseen] at htoken
    cases htoken
  | some seen =>
    rw [hseen] at htoken hreports
    cases htoken
    obtain ⟨hspace, hdirectly⟩ := Recognizer.gap_of_sight? (Option.filter_eq_some_iff.mp hseen).1
    have hsource : source = source.take count ++ seen.gap ++ seen.text ++ seen.rest := by
      rw [List.append_assoc, List.append_assoc, ← List.append_assoc seen.gap, ← hreports.whole,
        h.ahead, List.take_append_drop]
    have hposition := h.position
    generalize source.take count = front at hsource hposition
    rw [hsource]
    refine ⟨?_, Position.after_append reader.position seen.gap seen.text⟩
    rw [hposition]
    exact Token.cutFrom_append rfl rfl htext hspace hdirectly

/-- A token lies between the place where the reader was and the place it goes to. -/
theorem Passes.bytes (h : reader.Passes gap token rest) :
    reader.position.byte ≤ token.start.byte ∧ token.start.byte < token.stop.byte ∧
      token.stop.byte = rest.position.byte := by
  rw [h.position, h.stop, h.start]
  exact ⟨Position.byte_le_after _ gap, Position.byte_lt_after _ h.text_ne_nil, rfl⟩

end Reader

namespace Session

variable {session : Session} {source : List Char} {recognizer : Recognizer} {acts : List Act}

/-! ### Sessions -/

/-- The session behind a number of acts. -/
def reached (session : Session) (acts : List Act) : Session :=
  acts.foldl (fun session act ↦ (session.step act).2) session

/-- A host that goes to what it has learned goes to places of the source. -/
theorem liesIn_of_goesBack (h : (ofSource source recognizer).GoesBack acts) {position : Position}
    (hact : .goTo position ∈ acts) : position.LiesIn source := by
  obtain ⟨i, hi⟩ := List.mem_iff_getElem?.mp hact
  rcases h i position hi with rfl | ⟨entry, hentry, hlearned⟩
  · exact Position.liesIn_start source
  · have hlocated := (placed_ofSource source recognizer).run acts fun i position hact ↦ by
      rcases h i position hact with rfl | hlearned
      · exact Or.inl (Position.liesIn_start source)
      · exact Or.inr hlearned
    exact (hlocated entry (List.mem_of_mem_take hentry)).liesIn hlearned

/-- Acts that go to places of the source only lead to a place of it. -/
theorem Placed.reached (h : session.Placed) (acts : List Act)
    (hgo : ∀ position, .goTo position ∈ acts → position.LiesIn session.source) :
    (session.reached acts).Placed ∧ (session.reached acts).source = session.source := by
  induction acts generalizing session with
  | nil => exact ⟨h, rfl⟩
  | cons act acts ih =>
    have hstep : (session.step act).2.Placed := h.step act fun position hact ↦
      hgo position (hact ▸ List.mem_cons_self)
    have hsource := source_step session act
    have hrest := ih hstep fun position hact ↦ by
      rw [hsource]
      exact hgo position (List.mem_cons_of_mem act hact)
    rwa [hsource] at hrest

/-- Where a move reports a token it leads to the end of it, and none leads back. -/
theorem byte_step_move (session : Session) (move : Move) :
    session.reader.position.byte ≤ (session.step move.act).2.reader.position.byte ∧
      ∀ token, (session.step move.act).1.token? = some token →
        session.reader.position.byte ≤ token.start.byte ∧ token.start.byte < token.stop.byte ∧
          token.stop.byte = (session.step move.act).2.reader.position.byte := by
  cases move with
  | take => exact ⟨Position.byte_le_after _ _, fun token htoken ↦ by cases htoken⟩
  | scan offer =>
    simp only [Move.act, step, Reply.token?]
    cases hfound : (session.reader.scan session.recognizer offer).token with
    | none =>
      rw [Reader.reader_scan_of_none hfound]
      exact ⟨Nat.le_refl _, fun token htoken ↦ by cases htoken⟩
    | some found =>
      obtain ⟨hbefore, hlt, hstop⟩ := (Reader.passes_of_scan hfound).bytes
      refine ⟨by omega, fun token htoken ↦ ?_⟩
      cases htoken
      exact ⟨hbefore, hlt, hstop⟩

/-- The tokens that moves report lie in front of the reader, one behind the other. -/
theorem tokens_pairwise (session : Session) (moves : List Move) :
    (∀ token ∈ session.tokens moves, session.reader.position.byte ≤ token.start.byte ∧
      token.start.byte < token.stop.byte) ∧
    (session.tokens moves).Pairwise Token.Precedes := by
  induction moves generalizing session with
  | nil => exact ⟨fun token htoken ↦ absurd htoken List.not_mem_nil, List.Pairwise.nil⟩
  | cons move moves ih =>
    obtain ⟨hforward, hstep⟩ := byte_step_move session move
    obtain ⟨hlater, hrest⟩ := ih (session.step move.act).2
    rw [tokens]
    cases hfound : (session.step move.act).1.token? with
    | none =>
      refine ⟨fun token htoken ↦ ?_, hrest⟩
      obtain ⟨hbehind, hlt⟩ := hlater token htoken
      exact ⟨Nat.le_trans hforward hbehind, hlt⟩
    | some first =>
      obtain ⟨hbefore, hfirst, hstop⟩ := hstep first hfound
      refine ⟨List.forall_mem_cons.mpr ⟨⟨hbefore, hfirst⟩, fun token htoken ↦ ?_⟩,
        List.pairwise_cons.mpr ⟨fun token htoken ↦ ?_, hrest⟩⟩
      · obtain ⟨hbehind, hlt⟩ := hlater token htoken
        exact ⟨Nat.le_trans hforward hbehind, hlt⟩
      · obtain ⟨hbehind, hlt⟩ := hlater token htoken
        exact ⟨by omega, by omega, by omega⟩

/-- Wherever the acts of a session have led, and whatever literal and dialect the recognizer holds
there, a token that a scan reports is a piece of the source behind that place, with nothing but
space in front of it, and the reader goes to the end of it. The tokens of any moves from there on
are disjoint and follow one another. -/
theorem tokens_are_slices_in_order (source : List Char) (initial recognizer : Recognizer)
    (acts : List Act) (h : (ofSource source initial).GoesBack acts) :
    let session := { (ofSource source initial).reached acts with recognizer }
    (∀ (offer : Offer) (token : Token),
      (session.step (.scan offer)).1 = .token (some token) →
        token.CutFrom source recognizer.dialect session.reader.position ∧
          (session.step (.scan offer)).2.reader.position = token.stop) ∧
    ∀ moves, (session.tokens moves).Pairwise Token.Precedes := by
  intro session
  obtain ⟨⟨⟨count, hreader⟩, -⟩, hsource⟩ := (placed_ofSource source initial).reached acts
    fun position hact ↦ liesIn_of_goesBack h hact
  rw [hsource] at hreader
  refine ⟨fun offer token htoken ↦ ?_, fun moves ↦ (tokens_pairwise session moves).2⟩
  exact hreader.cutFrom (Reply.token.inj htoken)

/-- The host comes back into a literal that it has left behind, and restores from bytes that the
literal was long. A near miss is part of its text. -/
theorem tokens_are_slices_in_order_of_restored :
    let source := ['é', ' ', '[', '=', '[', ']', 'ß', ']', '=', ']', ' ', '-', '-']
    let acts := [.take, .scan .outside, .remember, .scan .inside, .take, .goBack]
    let recognizer := (Recognizer.initial.restore [0, 1, 1, 0, 0, 0]).2
    let session := { (ofSource source .initial).reached acts with recognizer }
    let content : Token := ⟨.content, ⟨6, 5, 1, 6⟩, ⟨9, 7, 1, 8⟩, [']', 'ß']⟩
    (ofSource source .initial).GoesBack acts ∧
      (session.step (.scan .inside)).1 = .token (some content) ∧
      content.CutFrom source .plain ⟨6, 5, 1, 6⟩ ∧
      (session.tokens [.scan .inside, .scan .inside, .scan .outside]).map Token.kind =
        [.content, .closing, .comment] ∧
      (session.tokens [.scan .inside, .scan .inside, .scan .outside]).Pairwise Token.Precedes := by
  intro source acts recognizer session content
  have hgoes : (ofSource source .initial).GoesBack acts := by
    intro i position hact
    match i with
    | 0 | 1 | 2 | 3 | 4 | 5 | _ + 6 => cases hact
  have hcontent : (session.step (.scan .inside)).1 = .token (some content) := by decide
  obtain ⟨hcut, hordered⟩ := tokens_are_slices_in_order source .initial recognizer acts hgoes
  exact ⟨hgoes, hcontent, (hcut .inside content hcontent).1, by decide, hordered _⟩

end Session

end LuaLiterals
