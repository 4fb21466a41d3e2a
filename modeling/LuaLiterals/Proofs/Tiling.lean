import LuaLiterals.Proofs.Answers
import LuaLiterals.Proofs.Places

/-!
The lexemes of a source tile it. Each is the piece that follows what was handed out before it,
none is empty, and no text stands next to text; their places are the places counted out at the
ends of what they follow. They make up the whole source, or the front of it up to the place of
the fault that ends the run.

A splitter keeps three places in step: the one its reader has come to, the end of what was handed
out, and the beginning of a token held back. `Splitter.Covers` says how they hang together. Each
call keeps it (`Covers.lexeme`), so the run from there tiles what is left (`Covers.tiles`), and that
gives the main statement `run_tiles_source`.
-/

set_option autoImplicit false
set_option relaxedAutoImplicit false

namespace LuaLiterals

namespace Lexeme

/-! ### One lexeme -/

def start : Lexeme → Position
  | token found => found.start
  | text _ start => start

def isText : Lexeme → Bool
  | token _ => false
  | text _ _ => true

/-- The lexeme is the piece of the source that follows the text covered before it. -/
structure Follows (lexeme : Lexeme) (source covered : List Char) : Prop where
  chars_ne_nil : lexeme.chars ≠ []
  within : covered ++ lexeme.chars <+: source
  start : lexeme.start = .endOf covered
  stop : ∀ found, lexeme = .token found → found.stop = .endOf (covered ++ found.text)
  slice : ∀ found, lexeme = .token found →
    dropBytes found.start.byte source = found.text ++ dropBytes found.stop.byte source

end Lexeme

namespace Reader

variable {source covered ahead gap : List Char} {token : Token} {rest : Reader}

/-- Text that was passed over and handed out leaves the reader in front of the token. -/
theorem Passes.fromToken {reader : Reader} (h : reader.Passes gap token rest) :
    (Reader.mk (reader.position.after gap) (token.text ++ rest.ahead)).Passes [] token rest where
  ahead := rfl
  start := h.start
  stop := h.stop
  position := h.position
  text_ne_nil := h.text_ne_nil

/-- A token with nothing in front of it follows what was covered. -/
theorem Passes.follows (h : (Reader.mk (.endOf covered) ahead).Passes [] token rest)
    (hsource : source = covered ++ ahead) : (Lexeme.token token).Follows source covered := by
  have hahead : ahead = token.text ++ rest.ahead := h.ahead
  have hstart : token.start = .endOf covered := h.start
  have hstop : token.stop = .endOf (covered ++ token.text) := by
    rw [h.stop, hstart, Position.after_endOf]
  have hsplit : source = (covered ++ token.text) ++ rest.ahead := by
    rw [hsource, hahead, List.append_assoc]
  refine ⟨h.text_ne_nil, ⟨rest.ahead, hsplit.symm⟩, hstart, ?_, ?_⟩
  · intro found hfound
    cases hfound
    exact hstop
  · intro found hfound
    cases hfound
    have hbehind : dropBytes token.stop.byte source = rest.ahead := by
      rw [hstop, hsplit, dropBytes_endOf]
    rw [hbehind, hstart, hsource, dropBytes_endOf, hahead]

/-- The reader behind such a token stands at the end of it. -/
theorem Passes.reader_eq (h : (Reader.mk (.endOf covered) ahead).Passes [] token rest) :
    rest = ⟨.endOf (covered ++ token.text), rest.ahead⟩ := by
  have hposition : rest.position = .endOf (covered ++ token.text) := by
    rw [h.position, h.stop, h.start]
    exact Position.after_endOf covered token.text
  rw [← hposition]

/-- Text that was passed over follows what was covered. -/
theorem Passes.follows_gap (h : (Reader.mk (.endOf covered) ahead).Passes gap token rest)
    (hsource : source = covered ++ ahead) (hgap : gap ≠ []) :
    (Lexeme.text gap (.endOf covered)).Follows source covered := by
  refine ⟨hgap, ⟨token.text ++ rest.ahead, ?_⟩, rfl, nofun, nofun⟩
  have hahead : ahead = gap ++ token.text ++ rest.ahead := h.ahead
  rw [hsource, hahead]
  simp only [Lexeme.chars, List.append_assoc]

end Reader

namespace Splitter

variable {splitter rest : Splitter} {source covered : List Char}

/-! ### Seeking -/

/-- Seeking may come to a token and open a literal, and changes nothing else. -/
theorem soughtFrom_frame (splitter : Splitter) (position : Position) (ahead : List Char) :
    ∃ reader recognizer, (splitter.soughtFrom position ahead).2 =
      { splitter with reader, recognizer } := by
  induction ahead generalizing splitter position with
  | nil => exact ⟨_, _, rfl⟩
  | cons c ahead ih =>
    rw [soughtFrom]
    split
    next => exact ⟨_, _, rfl⟩
    next =>
      obtain ⟨reader, recognizer, heq⟩ :=
        ih (splitter.facing position (c :: ahead)).scanned (position.next c)
      exact ⟨reader, recognizer, heq⟩

/-- Seeking passes over text to the token it finds. -/
theorem passes_soughtFrom {position : Position} {ahead : List Char} {token : Token}
    {sought : Splitter} (h : splitter.soughtFrom position ahead = (some token, sought)) :
    ∃ gap, (Reader.mk position ahead).Passes gap token sought.reader := by
  induction ahead generalizing splitter position with
  | nil => cases h
  | cons c ahead ih =>
    rw [soughtFrom] at h
    split at h
    next found hseen =>
      cases h
      exact ⟨_, Reader.passes_of_scan hseen⟩
    next =>
      obtain ⟨gap, hpasses⟩ := ih h
      exact ⟨c :: gap, hpasses.behind⟩

/-- Where seeking finds nothing it comes to the end of the source. -/
theorem reader_soughtFrom {position : Position} {ahead : List Char} {sought : Splitter}
    (h : splitter.soughtFrom position ahead = (none, sought)) :
    sought.reader = ⟨position.after ahead, []⟩ := by
  induction ahead generalizing splitter position with
  | nil =>
    cases h
    rfl
  | cons c ahead ih =>
    rw [soughtFrom] at h
    split at h
    next => cases h
    next => exact ih h

/-- The text in front of the token sought is what leads up to its beginning. -/
theorem gap_of_sought {token : Token} {gap : List Char} (hfound : splitter.sought.1 = some token)
    (hstart : token.start = splitter.reader.position.after gap)
    (hbegins : gap <+: splitter.reader.ahead) : splitter.gap = gap := by
  obtain ⟨behind, hahead⟩ := hbegins
  rw [Splitter.gap, hfound]
  simp only [Option.map_some, Option.getD_some, Reader.upTo]
  rw [hstart, Position.char_after, Nat.add_sub_cancel_left, ← hahead, List.take_left]

theorem gap_of_none (hfound : splitter.sought.1 = none) :
    splitter.gap = splitter.reader.ahead := by
  have hreader := reader_soughtFrom (Prod.ext hfound rfl : splitter.sought = (none, _))
  rw [Splitter.gap, hfound]
  simp only [Option.map_none, Option.getD_none, Reader.upTo]
  rw [hreader, Position.char_after, Nat.add_sub_cancel_left, List.take_length]

/-! ### What each call keeps -/

/-- What was handed out is the front of the source, and more is to come. The reader stands at its
end, or behind the token held back, which then begins there. -/
def Covers (splitter : Splitter) (source covered : List Char) : Prop :=
  splitter.finished = false ∧ ∃ ahead, source = covered ++ ahead ∧
    match splitter.held with
    | none => splitter.reader = ⟨.endOf covered, ahead⟩
    | some token => (Reader.mk (.endOf covered) ahead).Passes [] token splitter.reader

theorem covers_ofSource (source : List Char) (dialect : Dialect) (suspends : Bool) :
    (ofSource source dialect suspends).Covers source [] :=
  ⟨rfl, source, rfl, rfl⟩

/-- A splitter that owes no text: a token is held back, or the source is at its end. -/
def OwesNoText (splitter : Splitter) : Prop :=
  splitter.held ≠ none ∨ splitter.due = .anything ∧ splitter.reader.ahead = []

/-- The splitter hands out the piece that follows what was covered, which is then covered too. -/
def HandsOut (lexeme : Lexeme) (rest : Splitter) (source covered : List Char) : Prop :=
  lexeme.Follows source covered ∧ rest.Covers source (covered ++ lexeme.chars) ∧
    (lexeme.isText = true → rest.OwesNoText)

/-- Handing out a token that nothing stands in front of. -/
theorem handsOut_token {token : Token} {ahead : List Char} (hfinished : splitter.finished = false)
    (hsource : source = covered ++ ahead)
    (hpasses : (Reader.mk (.endOf covered) ahead).Passes [] token splitter.reader) :
    HandsOut (.token token) (splitter.handOut token).2 source covered := by
  have hahead : ahead = token.text ++ splitter.reader.ahead := hpasses.ahead
  refine ⟨hpasses.follows hsource,
    ⟨hfinished, splitter.reader.ahead, ?_, hpasses.reader_eq⟩, nofun⟩
  rw [hsource, hahead, List.append_assoc]
  rfl

/-- Handing out the text in front of a token, which is held back. -/
theorem handsOut_gap {token : Token} {ahead gap : List Char}
    (hfinished : splitter.finished = false) (hsource : source = covered ++ ahead)
    (hpasses : (Reader.mk (.endOf covered) ahead).Passes gap token splitter.reader)
    (hgap : gap ≠ []) :
    HandsOut (.text gap (.endOf covered)) { splitter with held := some token } source covered := by
  have hahead : ahead = gap ++ token.text ++ splitter.reader.ahead := hpasses.ahead
  have hfrom := hpasses.fromToken
  rw [Position.after_endOf] at hfrom
  refine ⟨hpasses.follows_gap hsource hgap,
    ⟨hfinished, token.text ++ splitter.reader.ahead, ?_, hfrom⟩, fun _ ↦ Or.inl nofun⟩
  rw [hsource, hahead]
  simp only [Lexeme.chars, List.append_assoc]

/-- Handing out all that is left of the source. -/
theorem handsOut_rest {ahead : List Char} (hfinished : splitter.finished = false)
    (hsource : source = covered ++ ahead) (hne : ahead ≠ []) (hdue : splitter.due = .anything)
    (hreader : splitter.reader = ⟨.endOf source, []⟩) :
    HandsOut (.text ahead (.endOf covered)) { splitter with held := none } source covered := by
  have hwhole : source = (covered ++ ahead) ++ [] := by rw [hsource, List.append_nil]
  refine ⟨⟨hne, ⟨[], hwhole.symm⟩, rfl, nofun, nofun⟩, ⟨hfinished, [], hwhole, ?_⟩,
    fun _ ↦ Or.inr ⟨hdue, ?_⟩⟩
  · rw [← hsource] at hwhole
    simp only [Lexeme.chars]
    rw [hreader, hsource]
  · simp only [hreader]

/-- What a call may come to: a lexeme that follows what was covered, the end of the source once
all of it is covered, or a fault at the end of what was covered. -/
def Fits (source covered : List Char) : Except Fault (Option Lexeme × Splitter) → Prop
  | .ok (some lexeme, rest) => HandsOut lexeme rest source covered
  | .ok (none, _) => covered = source
  | .error fault =>
    fault.line = (Position.endOf covered).line ∧ fault.column = (Position.endOf covered).column

/-- The case that no literal is open and no token is held back. -/
theorem Covers.between (h : splitter.Covers source covered) (hheld : splitter.held = none)
    (hdue : splitter.due = .anything) : Fits source covered splitter.between := by
  obtain ⟨hfinished, ahead, hsource, hreader⟩ := h
  rw [hheld] at hreader
  have hposition : splitter.reader.position = .endOf covered := congrArg Reader.position hreader
  have hahead : splitter.reader.ahead = ahead := congrArg Reader.ahead hreader
  obtain ⟨_, _, hframe⟩ :=
    splitter.soughtFrom_frame splitter.reader.position splitter.reader.ahead
  have hsoughtDue : splitter.sought.2.due = .anything := by
    rw [← hdue, sought, hframe]
  have hsoughtFinished : splitter.sought.2.finished = false := by
    rw [← hfinished, sought, hframe]
  rw [between_eq_ok, hposition]
  cases hfound : splitter.sought.1 with
  | none =>
    have hend := reader_soughtFrom (Prod.ext hfound rfl : splitter.sought = (none, _))
    rw [hposition, hahead, Position.after_endOf, ← hsource] at hend
    rw [gap_of_none hfound, hahead]
    by_cases hnil : ahead = []
    · rw [if_pos hnil]
      change covered = source
      rw [hsource, hnil, List.append_nil]
    · rw [if_neg hnil]
      exact handsOut_rest hsoughtFinished hsource hnil hsoughtDue hend
  | some token =>
    obtain ⟨gap, hpasses⟩ :=
      passes_soughtFrom (Prod.ext hfound rfl : splitter.sought = (some token, _))
    have hbegins : gap <+: splitter.reader.ahead :=
      ⟨token.text ++ splitter.sought.2.reader.ahead,
        (List.append_assoc gap _ _).symm.trans hpasses.ahead.symm⟩
    rw [gap_of_sought hfound hpasses.start hbegins]
    rw [hposition, hahead] at hpasses
    by_cases hnil : gap = []
    · rw [if_pos hnil]
      subst hnil
      exact handsOut_token hsoughtFinished hsource hpasses
    · rw [if_neg hnil]
      exact handsOut_gap hsoughtFinished hsource hpasses hnil

/-- The case that the next part of a literal is due, so that nothing may begin. -/
theorem Covers.within (h : splitter.Covers source covered) (hheld : splitter.held = none)
    (hopens : splitter.due.offer.opens = false) : Fits source covered splitter.within := by
  obtain ⟨hfinished, ahead, hsource, hreader⟩ := h
  rw [hheld] at hreader
  have hposition : splitter.reader = ⟨.endOf covered, ahead⟩ := hreader
  rw [Splitter.within, scan_eq_ok]
  cases hseen : splitter.seen with
  | none =>
    have hback : splitter.scanned.reader = splitter.reader := Reader.reader_scan_of_none hseen
    simp only [Fits, fault]
    rw [hback, hposition]
    exact ⟨rfl, rfl⟩
  | some token =>
    have hpasses : splitter.reader.Passes [] token splitter.scanned.reader :=
      Reader.passes_nil_of_scan hopens hseen
    rw [hposition] at hpasses
    exact handsOut_token hfinished hsource hpasses

theorem Covers.lexeme (h : splitter.Covers source covered) :
    Fits source covered splitter.lexeme := by
  unfold Splitter.lexeme
  split
  next token _ hheld =>
    obtain ⟨hfinished, ahead, hsource, hpasses⟩ := h
    rw [hheld] at hpasses
    exact handsOut_token hfinished hsource hpasses
  next hheld hdue => exact h.between hheld hdue
  next hheld hdue =>
    refine h.within hheld ?_
    cases hcase : splitter.due with
    | anything => exact absurd hcase hdue
    | contentOrClosing => rfl
    | closing => rfl

/-- A splitter that owes no text hands out none. -/
theorem OwesNoText.lexeme (h : splitter.OwesNoText) (chars : List Char) (start : Position)
    (rest : Splitter) : splitter.lexeme ≠ .ok (some (.text chars start), rest) := by
  intro heq
  unfold Splitter.lexeme at heq
  split at heq
  next => cases heq
  next hheld hdue =>
    rcases h with hsome | ⟨-, hahead⟩
    · exact hsome hheld
    · have hsought : splitter.sought = (none, splitter.facing splitter.reader.position []) := by
        rw [sought, hahead, soughtFrom]
      have hnone : splitter.sought.1 = none := by rw [hsought]
      rw [between_eq_ok, gap_of_none hnone, hahead, if_pos rfl, hnone] at heq
      cases heq
  next hheld hdue =>
    rcases h with hsome | ⟨hanything, -⟩
    · exact hsome hheld
    · exact hdue hanything

/-! ### Whole runs -/

/-- Items that continue what was covered: lexemes each behind the other, no text next to text,
up to the end of the source or to a fault. -/
inductive Tiles (source : List Char) : List Char → List (Except Fault Lexeme) → Prop
  | whole : Tiles source source []
  | broken {covered : List Char} {fault : Fault} (within : covered <+: source)
      (line : fault.line = (Position.endOf covered).line)
      (column : fault.column = (Position.endOf covered).column) :
      Tiles source covered [.error fault]
  | lexeme {covered : List Char} {lexeme : Lexeme} {items : List (Except Fault Lexeme)}
      (follows : lexeme.Follows source covered)
      (apart : ∀ next, items.head? = some (.ok next) → lexeme.isText = true → next.isText = false)
      (behind : Tiles source (covered ++ lexeme.chars) items) :
      Tiles source covered (.ok lexeme :: items)

/-- The items of a run, without the literals open behind them. -/
def items (splitter : Splitter) : List (Except Fault Lexeme) := splitter.run.1.map Prod.fst

theorem items_eq (splitter : Splitter) :
    splitter.items =
      match splitter.next with
      | (none, _) => []
      | (some item, rest) => item :: rest.items := by
  rw [items, run]
  split
  next heq => rw [heq]; rfl
  next heq => rw [heq]; rfl

theorem items_of_finished (h : splitter.finished = true) : splitter.items = [] := by
  rw [items_eq, next_of_finished h]

/-- From a splitter that owes no text, the first item is no text. -/
theorem OwesNoText.items (h : splitter.OwesNoText) {lexeme : Lexeme}
    (hhead : splitter.items.head? = some (.ok lexeme)) : lexeme.isText = false := by
  rw [items_eq, next] at hhead
  cases lexeme with
  | token _ => rfl
  | text chars start =>
    exfalso
    split at hhead
    next hnext => cases hhead
    next item rest hnext =>
      cases hhead
      split at hnext
      next => cases hnext
      next =>
        split at hnext
        next hlexeme =>
          cases hnext
          exact h.lexeme chars start _ hlexeme
        next => cases hnext
        next => cases hnext

/-- The run from a splitter that covers a front of the source tiles the rest of it. -/
theorem Covers.tiles (h : splitter.Covers source covered) :
    Tiles source covered splitter.items := by
  -- Each item uses up the budget of the splitter, whatever kind of item it is.
  induction hbudget : splitter.budget using Nat.strongRecOn generalizing splitter covered with
  | ind budget ih =>
    have hfits := h.lexeme
    obtain ⟨hfinished, ahead, hsource, -⟩ := h
    rw [items_eq]
    rcases hlexeme : splitter.lexeme with fault | ⟨_ | lexeme, rest⟩
    · rw [hlexeme] at hfits
      rw [next_of_fault hfinished hlexeme]
      simp only
      rw [items_of_finished rfl]
      exact .broken ⟨ahead, hsource.symm⟩ hfits.1 hfits.2
    · rw [hlexeme] at hfits
      rw [next_of_end hfinished hlexeme, show covered = source from hfits]
      exact .whole
    · rw [hlexeme] at hfits
      obtain ⟨hfollows, hcovers, howes⟩ := hfits
      have hnext := next_of_lexeme hfinished hlexeme
      have hlt : rest.budget < budget := hbudget ▸ budget_lt_of_next hnext
      rw [hnext]
      refine .lexeme hfollows (fun next hhead htext ↦ (howes htext).items hhead) ?_
      exact ih rest.budget hlt hcovers rfl

/-- What a tiling says of its lexemes and its fault, each told by what stands in front of it. -/
structure Tiling (source covered : List Char) (lexemes : List Lexeme) (fault : Option Fault) :
    Prop where
  /-- Each lexeme follows all that stand in front of it. -/
  follows : ∀ before lexeme behind, lexemes = before ++ lexeme :: behind →
    lexeme.Follows source (covered ++ before.flatMap Lexeme.chars)
  /-- No text stands next to text. -/
  apart : ∀ before first second behind, lexemes = before ++ first :: second :: behind →
    first.isText = true → second.isText = false
  /-- Without a fault the lexemes make up the source. -/
  whole : fault = none → covered ++ lexemes.flatMap Lexeme.chars = source
  /-- A fault shows at the end of the lexemes, which make up a front of the source. -/
  broken : ∀ found, fault = some found → covered ++ lexemes.flatMap Lexeme.chars <+: source ∧
    found.line = (Position.endOf (covered ++ lexemes.flatMap Lexeme.chars)).line ∧
    found.column = (Position.endOf (covered ++ lexemes.flatMap Lexeme.chars)).column
  /-- There are at most as many lexemes as characters. -/
  length_le : covered.length + lexemes.length ≤ source.length

/-- One more lexeme in front of a tiling. -/
theorem Tiling.cons {lexeme : Lexeme} {lexemes : List Lexeme} {fault : Option Fault}
    (h : Tiling source (covered ++ lexeme.chars) lexemes fault)
    (hfollows : lexeme.Follows source covered)
    (hapart : ∀ next, lexemes.head? = some next → lexeme.isText = true → next.isText = false) :
    Tiling source covered (lexeme :: lexemes) fault := by
  have hflat : covered ++ (lexeme :: lexemes).flatMap Lexeme.chars =
      covered ++ lexeme.chars ++ lexemes.flatMap Lexeme.chars := by
    rw [List.flatMap_cons, List.append_assoc]
  refine ⟨?_, ?_, ?_, ?_, ?_⟩
  · rintro (_ | ⟨first, before⟩) found behind heq
    · cases heq
      rwa [List.flatMap_nil, List.append_nil]
    · obtain ⟨rfl, htail⟩ := List.cons.inj heq
      rw [List.flatMap_cons, ← List.append_assoc]
      exact h.follows before found behind htail
  · rintro (_ | ⟨first, before⟩) found second behind heq
    · obtain ⟨rfl, htail⟩ := List.cons.inj heq
      exact hapart second (by rw [htail]; rfl)
    · obtain ⟨rfl, htail⟩ := List.cons.inj heq
      exact h.apart before found second behind htail
  · rw [hflat]
    exact h.whole
  · rw [hflat]
    exact h.broken
  · have hpos : 0 < lexeme.chars.length := List.length_pos_iff.mpr hfollows.chars_ne_nil
    have hle := h.length_le
    simp only [List.length_append, List.length_cons] at hle ⊢
    omega

/-- Items that tile are lexemes and then at most one fault. -/
theorem Tiles.exists_tiling {items : List (Except Fault Lexeme)} (h : Tiles source covered items) :
    ∃ lexemes fault, items = lexemes.map .ok ++ fault.toList.map .error ∧
      Tiling source covered lexemes fault := by
  induction h with
  | whole =>
    refine ⟨[], none, rfl, ⟨?_, ?_, fun _ ↦ List.append_nil _, nofun, Nat.le_refl _⟩⟩
    · intro before _ _ heq
      simp at heq
    · intro before _ _ _ heq
      simp at heq
  | broken within line column =>
    refine ⟨[], some _, rfl, ⟨?_, ?_, nofun, ?_, within.length_le⟩⟩
    · intro before _ _ heq
      simp at heq
    · intro before _ _ _ heq
      simp at heq
    · intro found hfound
      cases hfound
      rw [List.flatMap_nil, List.append_nil]
      exact ⟨within, line, column⟩
  | @lexeme _ lexeme _ follows apart behind ih =>
    obtain ⟨lexemes, fault, rfl, htiling⟩ := ih
    refine ⟨lexeme :: lexemes, fault, rfl, htiling.cons follows fun next hnext ↦ ?_⟩
    refine apart next ?_
    cases lexemes with
    | nil => cases hnext
    | cons first lexemes =>
      cases hnext
      rfl

/-- The items of a run are lexemes that tile the source, and at most one fault behind them. No
call behind the last item brings another. -/
theorem run_tiles_source (source : List Char) (dialect : Dialect) (suspends : Bool) :
    ∃ lexemes fault,
      (ofSource source dialect suspends).run.1.map Prod.fst =
        lexemes.map .ok ++ fault.toList.map .error ∧
      Tiling source [] lexemes fault ∧
      ∀ call, lexemes.length + fault.toList.length ≤ call →
        ((ofSource source dialect suspends).answer call).1 = none := by
  obtain ⟨lexemes, fault, hitems, htiling⟩ :=
    (covers_ofSource source dialect suspends).tiles.exists_tiling
  refine ⟨lexemes, fault, hitems, htiling, fun call hcall ↦ ?_⟩
  have hlength : (ofSource source dialect suspends).run.1.length =
      lexemes.length + fault.toList.length := by
    have hcongr := congrArg List.length hitems
    simpa only [items, List.length_map, List.length_append] using hcongr
  have hbehind := getElem?_run (ofSource source dialect suspends) call
  rw [List.getElem?_eq_none (by omega)] at hbehind
  exact Option.map_eq_none_iff.mp hbehind.symm

end Splitter

end LuaLiterals
