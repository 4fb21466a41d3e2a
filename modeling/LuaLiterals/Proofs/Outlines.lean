import LuaLiterals.Proofs.Findings
import LuaLiterals.Proofs.Tiling

/-!
The outline of a run: what its items are, apart from their places. A splitter goes on from the
characters ahead, what is due, and the literal open, and from nothing else (`Splitter.Stands`).
Where no literal is open it hands out the text in front of the first token and that token
(`Stands.between`), and inside a literal the parts of it (`Stands.short`, `Stands.long`). An
induction over `Grammar.split` puts these together: the outline of a run is the sequence of parts
that the texts alone give, with levels as they can be counted (`Stands.outlines_eq`).
-/

set_option autoImplicit false
set_option relaxedAutoImplicit false

namespace LuaLiterals

namespace Grammar

/-! ### The text in front of a token -/

variable {dialect : Dialect} {beginning : Beginning} {c : Char} {text before : List Char}

/-- Space that a scan skips belongs to the text in front of the token. -/
theorem gap_of_beginning? (h : beginning? (text.dropWhile dialect.isSpace) = some beginning) :
    gap text = (text.takeWhile dialect.isSpace, some beginning) := by
  induction text with
  | nil => cases h
  | cons c text ih =>
    by_cases hspace : dialect.isSpace c = true
    · have hnone : beginning? (c :: text) = none := by
        rw [Option.eq_none_iff_forall_ne_some]
        intro other hother
        exact Bool.false_ne_true ((isSpace_of_beginning? dialect hother).symm.trans hspace)
      rw [List.dropWhile_cons_of_pos hspace] at h
      rw [gap_cons hnone, ih h, List.takeWhile_cons_of_pos hspace]
    · rw [List.dropWhile_cons_of_neg hspace] at h
      rw [gap, h, List.takeWhile_cons_of_neg hspace]

/-- Where a scan finds nothing, the next token begins further on. -/
theorem gap_of_no_beginning (h : beginning? ((c :: text).dropWhile dialect.isSpace) = none) :
    gap (c :: text) = (c :: (gap text).1, (gap text).2) := by
  refine gap_cons ?_
  by_cases hspace : dialect.isSpace c = true
  · rw [Option.eq_none_iff_forall_ne_some]
    intro other hother
    exact Bool.false_ne_true ((isSpace_of_beginning? dialect hother).symm.trans hspace)
  · rwa [List.dropWhile_cons_of_neg hspace] at h

end Grammar

namespace Lexeme

/-- What a lexeme is, apart from its place. -/
def part : Lexeme → Grammar.Part
  | token found => ⟨some found.kind, found.text⟩
  | text chars _ => ⟨none, chars⟩

end Lexeme

namespace Splitter

open Grammar

variable {splitter rest : Splitter}

/-! ### Outlines -/

/-- What an item is, apart from its place. -/
def outline : Except Fault Lexeme → Except Cause Grammar.Part
  | .ok lexeme => .ok lexeme.part
  | .error fault => .error fault.cause

def outlines (splitter : Splitter) : List (Except Cause Grammar.Part) := splitter.items.map outline

theorem outlines_of_lexeme {lexeme : Lexeme} (hfinished : splitter.finished = false)
    (h : splitter.lexeme = .ok (some lexeme, rest)) :
    splitter.outlines = .ok lexeme.part :: rest.outlines := by
  rw [outlines, items_eq, next_of_lexeme hfinished h]
  rfl

theorem outlines_of_end (hfinished : splitter.finished = false)
    (h : splitter.lexeme = .ok (none, rest)) : splitter.outlines = [] := by
  rw [outlines, items_eq, next_of_end hfinished h]
  rfl

theorem outlines_of_fault {fault : Fault} (hfinished : splitter.finished = false)
    (h : splitter.lexeme = .error fault) : splitter.outlines = [.error fault.cause] := by
  rw [outlines, items_eq, next_of_fault hfinished h]
  simp only
  rw [items_of_finished rfl]
  rfl

/-! ### One scan -/

variable {found : Found} {gap text behind : List Char}

theorem seen_of_yields
    (h : splitter.recognizer.Yields splitter.due.offer splitter.reader.ahead gap found text
      behind) :
    splitter.seen = some
      { kind := found.kind
        start := splitter.reader.position.after gap
        stop := (splitter.reader.position.after gap).after text
        text := text } := by
  rw [seen, Reader.scan_of_yields h]

theorem scanned_of_yields
    (h : splitter.recognizer.Yields splitter.due.offer splitter.reader.ahead gap found text
      behind) :
    splitter.scanned = { splitter with
      reader := ⟨splitter.reader.position.after (gap ++ text), behind⟩
      recognizer :=
        ⟨splitter.recognizer.dialect, found.openedAfter splitter.recognizer.opened⟩ } := by
  rw [scanned, Reader.scan_of_yields h]

/-- A scan that finds nothing leaves everything as it was. -/
theorem scanned_of_declines
    (h : (splitter.recognizer.scan splitter.due.offer splitter.reader.ahead).found = none) :
    splitter.seen = none ∧ splitter.scanned = splitter := by
  have hscan := Reader.scan_of_found_none h
  exact ⟨by rw [seen, hscan], by rw [scanned, hscan]⟩

/-- The splitter is to go on in front of this text, with what is due and this recognizer. -/
structure Stands (splitter : Splitter) (recognizer : Recognizer) (due : Due)
    (ahead : List Char) : Prop where
  finished : splitter.finished = false
  held : splitter.held = none
  recognizer : splitter.recognizer = recognizer
  due : splitter.due = due
  ahead : splitter.reader.ahead = ahead

theorem stands_ofSource (source : List Char) (dialect : Dialect) (suspends : Bool) :
    (ofSource source dialect suspends).Stands ⟨dialect, none⟩ .anything source :=
  ⟨rfl, rfl, rfl, rfl, rfl⟩

/-! ### Inside a literal -/

variable {recognizer : Recognizer} {due : Due} {ahead : List Char}

theorem Stands.lexeme_eq_within (h : splitter.Stands recognizer due ahead)
    (hdue : due ≠ .anything) : splitter.lexeme = splitter.within := by
  unfold Splitter.lexeme
  rw [h.held, h.due]
  rcases due with _ | _ | _
  · exact absurd rfl hdue
  · rfl
  · rfl

/-- A token that a scan yields is handed out at once. -/
theorem Stands.within_token (h : splitter.Stands recognizer due ahead) (hdue : due ≠ .anything)
    (hyields : recognizer.Yields due.offer ahead [] found text behind) :
    ∃ next : Splitter,
      next.Stands ⟨recognizer.dialect, found.openedAfter recognizer.opened⟩ (.after found.kind)
        behind ∧
      splitter.outlines = .ok ⟨some found.kind, text⟩ :: next.outlines := by
  have hlexeme := h.lexeme_eq_within hdue
  obtain ⟨hfinished, hheld, rfl, rfl, rfl⟩ := h
  rw [within, scan_eq_ok, seen_of_yields hyields, scanned_of_yields hyields] at hlexeme
  refine ⟨_, ?_, outlines_of_lexeme hfinished hlexeme⟩
  exact ⟨hfinished, rfl, rfl, rfl, rfl⟩

/-- Where a scan finds nothing the literal is not finished. -/
theorem Stands.within_fault (h : splitter.Stands recognizer due ahead) (hdue : due ≠ .anything)
    (hnone : (recognizer.scan due.offer ahead).found = none) :
    splitter.outlines = [.error splitter.unfinished] := by
  have hlexeme := h.lexeme_eq_within hdue
  obtain ⟨hfinished, hheld, rfl, rfl, rfl⟩ := h
  obtain ⟨hseen, hscanned⟩ := scanned_of_declines hnone
  rw [within, scan_eq_ok, hseen, hscanned] at hlexeme
  exact outlines_of_fault hfinished hlexeme

/-- What the items of a splitter come to: these parts, and then those of a splitter in front of
the rest where no literal is open, or the cause that ends the run. -/
def Comes (splitter : Splitter) (dialect : Dialect) :
    List Grammar.Part × Except Cause (List Char) → Prop
  | (parts, .ok rest) =>
    ∃ (opened : Option Literal) (next : Splitter), next.Stands ⟨dialect, opened⟩ .anything rest ∧
      splitter.outlines = parts.map .ok ++ next.outlines
  | (parts, .error cause) => splitter.outlines = parts.map .ok ++ [.error cause]

theorem Comes.append {dialect : Dialect} {outcome : List Grammar.Part × Except Cause (List Char)}
    (front : List Grammar.Part) (h : rest.Comes dialect outcome)
    (hfront : splitter.outlines = front.map .ok ++ rest.outlines) :
    splitter.Comes dialect (front ++ outcome.1, outcome.2) := by
  obtain ⟨parts, cause | behind⟩ := outcome
  · show splitter.outlines = _
    rw [hfront, show rest.outlines = _ from h, List.map_append, List.append_assoc]
  · obtain ⟨opened, next, hnext, hparts⟩ := h
    refine ⟨opened, next, hnext, ?_⟩
    rw [hfront, hparts, List.map_append, List.append_assoc]

theorem entry_inside {literal : Literal} (dialect : Dialect) (hdue : due ≠ .anything) :
    (Recognizer.mk dialect (some literal)).entry due.offer = literal.entry := by
  rcases due with _ | _ | _
  · exact absurd rfl hdue
  · rfl
  · rfl

theorem closing_inside (hdue : due ≠ .anything) : due.offer.closing = true := by
  rcases due with _ | _ | _
  · exact absurd rfl hdue
  · rfl
  · rfl

variable {dialect : Dialect}

/-- Behind the content of a short literal stands its closing quote, or it is not finished. -/
theorem Stands.short_end {quote : Quote} (hdue : due ≠ .anything)
    (h : splitter.Stands ⟨dialect, some (.short quote)⟩ due ahead)
    (hhead : ∀ c ∈ ahead.head?, c = quote.char ∨ c = '\n') :
    splitter.Comes dialect
      (if ahead.head? = some quote.char then ([⟨some .closing, [quote.char]⟩], .ok ahead.tail)
      else ([], .error (.unfinishedString due.expected))) := by
  by_cases hquote : ahead.head? = some quote.char
  · rw [if_pos hquote]
    obtain ⟨behind, rfl⟩ := List.head?_eq_some_iff.mp hquote
    obtain ⟨next, hnext, houtlines⟩ := h.within_token hdue
      (Recognizer.yields_short_closing (entry_inside dialect hdue) (closing_inside hdue))
    exact ⟨none, next, hnext, houtlines⟩
  · rw [if_neg hquote]
    have hfault := h.within_fault hdue
      (Recognizer.declines_short (entry_inside dialect hdue) (head_eq_line hhead hquote))
    rw [unfinished, opened, h.recognizer, h.due] at hfault
    exact hfault

theorem Stands.short {quote : Quote}
    (h : splitter.Stands ⟨dialect, some (.short quote)⟩ .contentOrClosing ahead) :
    splitter.Comes dialect (shortLiteral quote ahead) := by
  have hdue : Due.contentOrClosing ≠ .anything := nofun
  have hcontent : Due.contentOrClosing.offer.content = true := rfl
  have hhead := head_quotedBody quote ahead
  have happend := quotedBody_append quote ahead
  unfold shortLiteral
  by_cases hbody : (quotedBody quote ahead).1 = []
  · rw [hbody, List.nil_append] at happend
    rw [happend] at hhead
    simp only [hbody, happend, part, if_true, List.nil_append]
    exact h.short_end hdue hhead
  · have hentry : (Recognizer.mk dialect (some (.short quote))).entry Due.contentOrClosing.offer =
        .quoted quote false := entry_inside dialect hdue
    have hyields := Recognizer.yields_short_content hentry hcontent hbody
    obtain ⟨next, hnext, houtlines⟩ := h.within_token hdue hyields
    have hclosing : Due.closing ≠ .anything := nofun
    have hbehind : next.Stands ⟨dialect, some (.short quote)⟩ .closing (quotedBody quote ahead).2 :=
      hnext
    have hend := (hbehind.short_end hclosing hhead).append
      [⟨some .content, (quotedBody quote ahead).1⟩] houtlines
    by_cases hquote : (quotedBody quote ahead).2.head? = some quote.char
    · simp only [part, if_neg hbody, if_pos hquote] at hend ⊢
      exact hend
    · simp only [part, if_neg hbody, if_neg hquote] at hend ⊢
      exact hend

/-- Behind the content of a long literal stands its closing bracket. -/
theorem Stands.long_end {level : Level} (hdue : due ≠ .anything)
    (h : splitter.Stands ⟨dialect, some (.long level)⟩ due (closingBracket level.toNat ++ ahead)) :
    splitter.Comes dialect ([⟨some .closing, closingBracket level.toNat⟩], .ok ahead) := by
  obtain ⟨next, hnext, houtlines⟩ := h.within_token hdue
    (Recognizer.yields_long_closing (entry_inside dialect hdue) (closing_inside hdue))
  exact ⟨none, next, hnext, houtlines⟩

theorem Stands.long {count : Nat}
    (h : splitter.Stands ⟨dialect, some (.long (.ofCount count))⟩ .contentOrClosing ahead) :
    splitter.Comes dialect (longLiteral capped count ahead) := by
  have hdue : Due.contentOrClosing ≠ .anything := nofun
  have hcontent : Due.contentOrClosing.offer.content = true := rfl
  have hcapped : (Level.ofCount count).toNat = capped count := Level.toNat_ofCount count
  unfold longLiteral
  rw [← hcapped]
  rcases hbreak : breakOn? (closingBracket (Level.ofCount count).toNat) ahead with _ | ⟨body, rest⟩
  · have hfault := h.within_fault hdue
      (Recognizer.exhausts_long (entry_inside dialect hdue) hbreak).1
    rw [unfinished, opened, h.recognizer] at hfault
    exact hfault
  · have hwhole := eq_append_of_breakOn? hbreak
    by_cases hbody : body = []
    · rw [hbody, List.nil_append] at hwhole
      rw [hwhole] at h
      simp only [hbody, part, if_true, List.nil_append]
      exact h.long_end hdue
    · have hentry : (Recognizer.mk dialect (some (.long (.ofCount count)))).entry
          Due.contentOrClosing.offer = .body .string (.ofCount count) false :=
        entry_inside dialect hdue
      have hyields := Recognizer.yields_long_content hentry hcontent hbreak hbody
      obtain ⟨next, hnext, houtlines⟩ := h.within_token hdue hyields
      have hclosing : Due.closing ≠ .anything := nofun
      have hbehind : next.Stands ⟨dialect, some (.long (.ofCount count))⟩ .closing
          (closingBracket (Level.ofCount count).toNat ++ rest) := hnext
      have hend := (hbehind.long_end hclosing).append [⟨some .content, body⟩] houtlines
      simp only [part, if_neg hbody]
      exact hend

/-! ### Where no literal is open -/

variable {before : List Char} {beginning : Beginning}

theorem entry_anything (recognizer : Recognizer) :
    recognizer.entry Due.anything.offer = .gap := rfl

theorem accepts_anything (beginning : Beginning) :
    Due.anything.offer.accepts beginning.found.kind = true := by
  rcases beginning with _ | _ | _ <;> rfl

/-- A scan finds the token that begins behind the space, if one begins there. -/
theorem yields_facing (hdue : splitter.due = .anything) (position : Position)
    (h : beginning? (ahead.dropWhile splitter.recognizer.dialect.isSpace) = some beginning) :
    splitter.recognizer.Yields (splitter.facing position ahead).due.offer ahead
      (ahead.takeWhile splitter.recognizer.dialect.isSpace) beginning.found
      (beginning.token splitter.recognizer.dialect).1
      (beginning.token splitter.recognizer.dialect).2 := by
  rw [facing, hdue]
  exact Recognizer.yields_beginning (entry_anything _) h (accepts_anything beginning)

theorem declines_facing (hdue : splitter.due = .anything) (position : Position)
    (h : beginning? (ahead.dropWhile splitter.recognizer.dialect.isSpace) = none) :
    (splitter.facing position ahead).seen = none ∧
      (splitter.facing position ahead).scanned = splitter.facing position ahead := by
  refine scanned_of_declines ?_
  rw [facing, hdue]
  refine Recognizer.declines_gap (entry_anything _) fun beginning hbeginning ↦ ?_
  rw [h] at hbeginning
  cases hbeginning

/-- Seeking comes to the first token that the text ahead has. -/
theorem soughtFrom_beginning (hdue : splitter.due = .anything) (position : Position)
    (hgap : Grammar.gap ahead = (before, some beginning)) :
    splitter.soughtFrom position ahead =
      (some
        { kind := beginning.found.kind
          start := position.after before
          stop := (position.after before).after (beginning.token splitter.recognizer.dialect).1
          text := (beginning.token splitter.recognizer.dialect).1 },
      { splitter with
        reader :=
          ⟨position.after (before ++ (beginning.token splitter.recognizer.dialect).1),
            (beginning.token splitter.recognizer.dialect).2⟩
        recognizer :=
          ⟨splitter.recognizer.dialect,
            beginning.found.openedAfter splitter.recognizer.opened⟩ }) := by
  induction ahead generalizing splitter position before with
  | nil => cases hgap
  | cons c ahead ih =>
    rw [soughtFrom]
    rcases hfound : beginning? ((c :: ahead).dropWhile splitter.recognizer.dialect.isSpace)
      with _ | found
    · obtain ⟨hseen, hscanned⟩ := declines_facing hdue position hfound
      rw [gap_of_no_beginning hfound] at hgap
      obtain ⟨rfl, hrest⟩ := Prod.mk.inj hgap
      have hfacing : (splitter.facing position (c :: ahead)).due = .anything := hdue
      simp only [hseen, hscanned]
      exact ih hfacing (position.next c) (Prod.ext rfl hrest)
    · have hyields := yields_facing hdue position hfound
      rw [gap_of_beginning? hfound] at hgap
      cases hgap
      rw [seen_of_yields hyields, scanned_of_yields hyields]
      rfl

/-- Where the text ahead has no token, seeking finds none. -/
theorem soughtFrom_none (hdue : splitter.due = .anything) (position : Position)
    (hgap : (Grammar.gap ahead).2 = none) : (splitter.soughtFrom position ahead).1 = none := by
  induction ahead generalizing splitter position with
  | nil => rfl
  | cons c ahead ih =>
    rcases hfound : beginning? ((c :: ahead).dropWhile splitter.recognizer.dialect.isSpace)
      with _ | found
    · obtain ⟨hseen, hscanned⟩ := declines_facing hdue position hfound
      rw [gap_of_no_beginning hfound] at hgap
      have hfacing : (splitter.facing position (c :: ahead)).due = .anything := hdue
      rw [soughtFrom]
      simp only [hseen, hscanned]
      exact ih hfacing (position.next c) hgap
    · rw [gap_of_beginning? hfound] at hgap
      cases hgap

theorem Stands.lexeme_eq_between (h : splitter.Stands recognizer .anything ahead) :
    splitter.lexeme = splitter.between := by
  unfold Splitter.lexeme
  rw [h.held, h.due]

theorem Stands.outlines_nil (h : splitter.Stands recognizer .anything []) :
    splitter.outlines = [] := by
  have hlexeme := h.lexeme_eq_between
  have hsought : splitter.sought = (none, splitter.facing splitter.reader.position []) := by
    rw [sought, h.ahead, soughtFrom]
  have hfound : splitter.sought.1 = none := by rw [hsought]
  rw [between_eq_ok, gap_of_none hfound, h.ahead, if_pos rfl, hfound] at hlexeme
  exact outlines_of_end h.finished hlexeme

/-- Without a token all that is ahead is handed out as text, and then nothing. -/
theorem Stands.between_end (h : splitter.Stands recognizer .anything ahead)
    (hgap : (Grammar.gap ahead).2 = none) :
    splitter.outlines = (part none ahead).map .ok := by
  by_cases hnil : ahead = []
  · subst hnil
    exact h.outlines_nil
  have hlexeme := h.lexeme_eq_between
  have hfound : splitter.sought.1 = none := by
    rw [sought, h.ahead]
    exact soughtFrom_none h.due _ hgap
  obtain ⟨_, _, hframe⟩ :=
    splitter.soughtFrom_frame splitter.reader.position splitter.reader.ahead
  have hreader := reader_soughtFrom (Prod.ext hfound rfl : splitter.sought = (none, _))
  rw [between_eq_ok, gap_of_none hfound, h.ahead, if_neg hnil, hfound] at hlexeme
  have hbehind : ({ splitter.sought.2 with held := none } : Splitter).Stands
      splitter.sought.2.recognizer .anything [] := by
    refine ⟨?_, rfl, rfl, ?_, congrArg Reader.ahead hreader⟩
    · rw [← h.finished, sought, hframe]
    · rw [← h.due, sought, hframe]
  rw [outlines_of_lexeme h.finished hlexeme, hbehind.outlines_nil, part, if_neg hnil]
  rfl

/-- A token held back is the next to be handed out. -/
theorem outlines_of_held {token : Token} (hfinished : splitter.finished = false)
    (hheld : splitter.held = some token) :
    splitter.outlines =
      .ok ⟨some token.kind, token.text⟩ :: (splitter.handOut token).2.outlines := by
  have hlexeme : splitter.lexeme =
      .ok (some (.token token), (splitter.handOut token).2) := by
    unfold Splitter.lexeme
    rw [hheld]
    rfl
  exact outlines_of_lexeme hfinished hlexeme

/-- The text in front of a token that is sought is handed out before the token. -/
theorem outlines_of_sought {token : Token} {sought : Splitter}
    (hfinished : splitter.finished = false) (hlexeme : splitter.lexeme = splitter.between)
    (hsought : splitter.sought = (some token, sought)) (hrest : sought.finished = false) :
    splitter.outlines =
      (part none splitter.gap ++ [Grammar.Part.mk (some token.kind) token.text]).map .ok ++
        (sought.handOut token).2.outlines := by
  rw [between_eq_ok, hsought] at hlexeme
  by_cases hnil : splitter.gap = []
  · rw [if_pos hnil] at hlexeme
    rw [outlines_of_lexeme hfinished hlexeme, part, if_pos hnil]
    rfl
  · rw [if_neg hnil] at hlexeme
    have hheld : ({ sought with held := some token } : Splitter).outlines =
        .ok ⟨some token.kind, token.text⟩ :: (sought.handOut token).2.outlines :=
      outlines_of_held hrest rfl
    rw [outlines_of_lexeme hfinished hlexeme, part, if_neg hnil, hheld]
    rfl

theorem Stands.between_token (h : splitter.Stands recognizer .anything ahead)
    (hgap : Grammar.gap ahead = (before, some beginning)) :
    ∃ next : Splitter,
      next.Stands ⟨recognizer.dialect, beginning.found.openedAfter recognizer.opened⟩
        (.after beginning.found.kind) (beginning.token recognizer.dialect).2 ∧
      splitter.outlines =
        (part none before ++ [Grammar.Part.mk (some beginning.found.kind)
          (beginning.token recognizer.dialect).1]).map .ok ++ next.outlines := by
  have hlexeme := h.lexeme_eq_between
  have hsought : splitter.sought = _ := soughtFrom_beginning h.due _ (h.ahead ▸ hgap)
  obtain ⟨hfinished, hheld, rfl, hdue, rfl⟩ := h
  have hbefore : splitter.gap = before :=
    gap_of_sought (by rw [hsought]) rfl ⟨_, (gap_append hgap).symm⟩
  have houtlines := outlines_of_sought hfinished hlexeme hsought hfinished
  rw [hbefore] at houtlines
  refine ⟨_, ?_, houtlines⟩
  exact ⟨hfinished, rfl, rfl, rfl, rfl⟩

/-- Where no literal is open, a splitter hands out the text in front of the first token and the
parts of that token. -/
theorem Stands.between {opened : Option Literal}
    (h : splitter.Stands ⟨dialect, opened⟩ .anything ahead)
    (hgap : Grammar.gap ahead = (before, some beginning)) :
    splitter.Comes dialect (part none before ++ (beginning.parts capped dialect).1,
      (beginning.parts capped dialect).2) := by
  obtain ⟨next, hnext, houtlines⟩ := h.between_token hgap
  rcases beginning with rest | ⟨quote, rest⟩ | ⟨count, rest⟩
  · exact ⟨opened, next, hnext, houtlines⟩
  · have hshort : next.Stands ⟨dialect, some (.short quote)⟩ .contentOrClosing rest := hnext
    have hcomes := hshort.short.append _ houtlines
    rwa [List.append_assoc] at hcomes
  · have hlong : next.Stands ⟨dialect, some (.long (.ofCount count))⟩ .contentOrClosing rest :=
      hnext
    have hcomes := hlong.long.append _ houtlines
    rwa [List.append_assoc] at hcomes

/-- The outline of a run is what the text ahead falls into. -/
theorem Stands.outlines_eq {opened : Option Literal}
    (h : splitter.Stands ⟨dialect, opened⟩ .anything ahead) :
    splitter.outlines = (split capped dialect ahead).1.map .ok ++
      (split capped dialect ahead).2.toList.map .error := by
  -- Which literal was open last is of no account here, so it varies along the induction.
  fun_induction split capped dialect ahead generalizing splitter opened
  case case1 text before hgap =>
    have hself := gap_eq_self (congrArg Prod.snd hgap)
    rw [hgap] at hself
    rw [h.between_end (congrArg Prod.snd hgap), ← show before = text from hself]
    exact (List.append_nil _).symm
  case case2 text before beginning hgap parts rest hparts later ih =>
    have hcomes := h.between hgap
    rw [hparts] at hcomes
    obtain ⟨behind, next, hnext, houtlines⟩ := hcomes
    rw [houtlines, ih hnext, ← List.append_assoc, ← List.map_append]
  case case3 text before beginning hgap parts cause hparts =>
    have hcomes := h.between hgap
    rw [hparts] at hcomes
    exact hcomes

end Splitter

end LuaLiterals
