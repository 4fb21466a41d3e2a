import LuaLiterals.Proofs.LongBrackets

/-!
Comments, and where a token begins. Behind the two dashes a comment reaches as far as
`Grammar.commentBody` says (`finish_dashes`). In front of a token the automaton skips space
(`finish_gap_space`) and then takes the one beginning that stands there, if there is one and it is
offered: it finds what `Grammar.beginning?` finds (`delimits_gap`), and otherwise nothing
(`finish_gap_declined`).
-/

set_option autoImplicit false
set_option relaxedAutoImplicit false

namespace LuaLiterals

namespace Dialect

/-! ### What is no space -/

variable (dialect : Dialect)

theorem isSpace_dash : dialect.isSpace '-' = false := by
  simp [isSpace, isLuaSpace, isWhiteSpace, whiteSpaceRanges]

theorem isSpace_bracket : dialect.isSpace '[' = false := by
  simp [isSpace, isLuaSpace, isWhiteSpace, whiteSpaceRanges]

theorem isSpace_quote (quote : Quote) : dialect.isSpace quote.char = false := by
  rcases quote with _ | _ <;>
    simp [Quote.char, isSpace, isLuaSpace, isWhiteSpace, whiteSpaceRanges]

theorem isCommentBlank_bracket : dialect.isCommentBlank '[' = false := by
  simp [isCommentBlank, isLuaSpace]

/-- What stands behind the space ahead is no space. -/
theorem isSpace_head_dropWhile (text : List Char) :
    ∀ c ∈ (text.dropWhile dialect.isSpace).head?, dialect.isSpace c = false := by
  intro c hc
  have hfront := List.head?_dropWhile_not dialect.isSpace text
  rw [Option.mem_def.mp hc] at hfront
  simpa using hfront

end Dialect

namespace Grammar

/-! ### Behind the dashes -/

variable {mate : Nat → Nat} {dialect : Dialect} {c : Char} {text : List Char}

/-- Blank space belongs to the comment and changes nothing about its end. -/
theorem commentBody_blank (hblank : dialect.isCommentBlank c = true) :
    commentBody mate dialect (c :: text) =
      (c :: (commentBody mate dialect text).1, (commentBody mate dialect text).2) := by
  have hline : c ≠ '\n' := by
    rintro rfl
    simp [Dialect.isCommentBlank] at hblank
  unfold commentBody
  rw [List.dropWhile_cons_of_pos hblank, List.takeWhile_cons_of_pos hblank]
  split
  next count inside hbracket =>
    split
    next => rfl
    next => rfl
  next => simp [hline]

/-- Without a bracket the comment ends where its line does. -/
theorem commentBody_line (hblank : ∀ c ∈ text.head?, dialect.isCommentBlank c = false)
    (hbracket : bracket? text = none) :
    commentBody mate dialect text = (text.takeWhile (· ≠ '\n'), text.dropWhile (· ≠ '\n')) := by
  have hdrop : text.dropWhile dialect.isCommentBlank = text := by
    cases text with
    | nil => rfl
    | cons c text => exact List.dropWhile_cons_of_neg (by simp [hblank c rfl])
  unfold commentBody
  rw [hdrop, hbracket]

/-- Directly behind the dashes a long bracket makes the comment end where its closing one does. -/
theorem commentBody_bracket {count : Nat} {inside : List Char}
    (hbracket : bracket? ('[' :: text) = some (count, inside)) :
    commentBody mate dialect ('[' :: text) =
      match breakOn? (closingBracket (mate count)) inside with
      | some (body, rest) =>
        (openingBracket count ++ body ++ closingBracket (mate count), rest)
      | none => ('[' :: text, []) := by
  have hblank : ¬ dialect.isCommentBlank '[' = true := by
    simp [Dialect.isCommentBlank_bracket]
  unfold commentBody
  rw [List.dropWhile_cons_of_neg hblank, List.takeWhile_cons_of_neg hblank, hbracket]
  rfl

/-! ### Beginnings -/

/-- What is found where a token begins. -/
def Beginning.found : Beginning → Found
  | comment _ => .comment
  | short quote _ => .opening (.short quote)
  | long count _ => .opening (.long (.ofCount count))

/-- The text of the comment or the opening delimiter, and the text behind it. -/
def Beginning.token (dialect : Dialect) : Beginning → List Char × List Char
  | comment rest =>
    ('-' :: '-' :: (commentBody capped dialect rest).1, (commentBody capped dialect rest).2)
  | short quote rest => ([quote.char], rest)
  | long count rest => (openingBracket count, rest)

variable {beginning : Beginning}

/-- No token begins with space. -/
theorem isSpace_of_beginning? (dialect : Dialect) (h : beginning? (c :: text) = some beginning) :
    dialect.isSpace c = false := by
  have hopener := beginning?_eq_some_iff.mp h
  rcases beginning with rest | ⟨quote, rest⟩ | ⟨count, rest⟩
  · obtain ⟨rfl, -⟩ := List.cons.inj hopener
    exact dialect.isSpace_dash
  · obtain ⟨rfl, -⟩ := List.cons.inj hopener
    exact dialect.isSpace_quote quote
  · obtain ⟨rfl, -⟩ := List.cons.inj hopener
    exact dialect.isSpace_bracket

end Grammar

namespace Extent

/-- The extent behind a number of skipped characters. -/
def skipped (count : Nat) : Extent := ⟨count, count, false, none⟩

/-- A comment that goes on for so many characters, and the extent it leaves. -/
def comment (extent : Extent) (count : Nat) : Option Found × Extent :=
  (some .comment, extent.pass count (some (extent.read + count)))

theorem settle_comment (extent : Extent) (count : Nat) (mark : Option Nat) :
    Ending.comment.settle (extent.pass count mark) = extent.comment count := by
  simp [Ending.settle, Ending.comment, comment]

theorem comment_pass (extent : Extent) (count more : Nat) (mark : Option Nat) :
    (extent.pass count mark).comment more = extent.comment (count + more) := by
  simp [comment, Nat.add_assoc]

end Extent

namespace Phase

open Grammar

variable {demand : Demand} {text : List Char} {extent : Extent}

theorem finish_line (demand : Demand) (extent : Extent) (text : List Char) :
    line.finish demand extent text = extent.comment (text.takeWhile (· ≠ '\n')).length := by
  induction text generalizing extent with
  | nil => exact finish_nil
  | cons c text ih =>
    by_cases hline : c = '\n'
    · subst hline
      have hstep : line.step demand '\n' = .halt .comment := rfl
      exact finish_halt hstep
    · have hstep : line.step demand c = .consume false .line := by
        simp only [step, lineStep, if_neg hline]
      have htake : (c :: text).takeWhile (· ≠ '\n') = c :: text.takeWhile (· ≠ '\n') :=
        List.takeWhile_cons_of_pos (by simpa using hline)
      rw [finish_consume hstep, ih, Extent.comment_pass, htake, List.length_cons, Nat.add_comm]

/-- A comment with a long bracket ends where the closing one does, or with the input. -/
theorem finish_dashes_bracket {count : Nat} {inside : List Char}
    (hbracket : bracket? ('[' :: text) = some (count, inside)) :
    dashes.finish demand extent ('[' :: text) =
      extent.comment (commentBody capped demand.dialect ('[' :: text)).1.length := by
  have hstep : dashes.step demand '[' = .consume false (.bracket .comment 0) := by
    simp [step, dashesStep, Dialect.isCommentBlank_bracket]
  have hcapped : (Level.ofCount count).toNat = capped count := Level.toNat_ofCount count
  have hwhole : '[' :: text = openingBracket count ++ inside := bracket?_eq_some_iff.mp hbracket
  have hcloses := closes_body demand .comment (Level.ofCount count) false inside
    (extent.pass (count + 2) extent.mark)
  have hfinish : dashes.finish demand extent ('[' :: text) =
      (body .comment (Level.ofCount count) false).finish demand
        (extent.pass (count + 2) extent.mark) inside := by
    rw [finish_consume hstep, finish_bracket_of_some 0 hbracket, Nat.zero_add]
    simp only [Bool.false_eq_true, if_false, Extent.pass_pass, Extent.mark_pass]
    rw [Nat.add_comm 1 (count + 1)]
    rfl
  rw [hfinish, commentBody_bracket hbracket]
  unfold Closes at hcloses
  rw [hcapped] at hcloses
  cases hbreak : breakOn? (closingBracket (capped count)) inside with
  | none =>
    rw [hbreak] at hcloses
    obtain ⟨mark, houtcome⟩ := hcloses
    rw [houtcome]
    simp only [openEnding, Extent.settle_comment, Extent.comment_pass]
    rw [hwhole, List.length_append, length_openingBracket]
  | some found =>
    rw [hbreak] at hcloses
    rw [hcloses]
    simp only [closedEnding, Extent.settle_comment, Extent.comment_pass, List.length_append,
      length_openingBracket, length_closingBracket, Nat.add_assoc]

/-- Behind its dashes a comment reaches as far as its text says. -/
theorem finish_dashes (demand : Demand) (extent : Extent) (text : List Char) :
    dashes.finish demand extent text =
      extent.comment (commentBody capped demand.dialect text).1.length := by
  induction text generalizing extent with
  | nil => exact finish_nil
  | cons c text ih =>
    by_cases hblank : demand.dialect.isCommentBlank c = true
    · have hstep : dashes.step demand c = .consume false .dashes := by
        simp only [step, dashesStep, if_pos hblank]
      rw [finish_consume hstep, ih, Extent.comment_pass, commentBody_blank hblank,
        List.length_cons, Nat.add_comm]
    have hfront : ∀ d ∈ (c :: text).head?, demand.dialect.isCommentBlank d = false := by
      intro d hd
      rw [← Option.some.inj hd]
      exact Bool.eq_false_iff.mpr hblank
    by_cases hopen : c = '['
    · subst hopen
      cases hbracket : bracket? ('[' :: text) with
      | some found => exact finish_dashes_bracket hbracket
      | none =>
        have hstep : dashes.step demand '[' = .consume false (.bracket .comment 0) := by
          simp [step, dashesStep, Dialect.isCommentBlank_bracket]
        have hline : line.step demand '[' = .consume false .line := rfl
        rw [finish_consume hstep, finish_bracket_comment 0 hbracket, ← finish_consume hline,
          finish_line, commentBody_line hfront hbracket]
    · have hstep : dashes.step demand c = line.step demand c := by
        simp only [step, dashesStep, if_neg hblank, if_neg hopen]
      have hfinish : dashes.finish demand extent (c :: text) =
          line.finish demand extent (c :: text) := by
        simp only [finish, run, hstep]
      rw [hfinish, finish_line, commentBody_line hfront (bracket?_of_ne hopen)]

/-! ### In front of a token -/

theorem finish_gap_space (demand : Demand) (skipped : Nat) (text : List Char) :
    gap.finish demand (.skipped skipped) text =
      gap.finish demand (.skipped (skipped + (text.takeWhile demand.dialect.isSpace).length))
        (text.dropWhile demand.dialect.isSpace) := by
  induction text generalizing skipped with
  | nil => rfl
  | cons c text ih =>
    by_cases hspace : demand.dialect.isSpace c = true
    · have hstep : gap.step demand c = .skip .gap := by
        simp only [step, gapStep, if_pos hspace]
      have hskip : (Extent.skipped skipped).call .skip = .skipped (skipped + 1) := rfl
      rw [finish_skip hstep, hskip, ih, List.takeWhile_cons_of_pos hspace,
        List.dropWhile_cons_of_pos hspace, List.length_cons, Nat.add_assoc, Nat.add_comm 1]
    · rw [List.takeWhile_cons_of_neg hspace, List.dropWhile_cons_of_neg hspace]
      rfl

/-- The outcome is a token of so many characters, behind others that were skipped. -/
structure Delimits (outcome : Option Found × Extent) (found : Found) (skipped count : Nat) :
    Prop where
  found : outcome.1 = some found
  start : outcome.2.start = skipped
  stop : outcome.2.stop = skipped + count

theorem delimits_gap_comment {rest : List Char} (skipped : Nat) (hcomment : demand.offer.comment) :
    Delimits (gap.finish demand (.skipped skipped) ('-' :: '-' :: rest)) .comment skipped
      ((commentBody capped demand.dialect rest).1.length + 2) := by
  have hfirst : gap.step demand '-' = .consume false .dash := by
    simp [step, gapStep, Dialect.isSpace_dash, hcomment]
  have hsecond : dash.step demand '-' = .consume false .dashes := rfl
  rw [finish_consume hfirst, finish_consume hsecond, finish_dashes]
  simp only [Bool.false_eq_true, if_false, Extent.pass_pass, Extent.comment_pass]
  exact ⟨rfl, rfl, congrArg (skipped + ·) (Nat.add_comm _ _)⟩

theorem delimits_gap_short {rest : List Char} (quote : Quote) (skipped : Nat)
    (hopening : demand.offer.opening) :
    Delimits (gap.finish demand (.skipped skipped) (quote.char :: rest)) (.opening (.short quote))
      skipped 1 := by
  have hdash : quote.char ≠ '-' := by
    rcases quote with _ | _ <;> decide
  have hbracket : quote.char ≠ '[' := by
    rcases quote with _ | _ <;> decide
  have hstep : gap.step demand quote.char =
      .consume false (.settled ⟨false, some (.opening (.short quote))⟩) := by
    simp [step, gapStep, Dialect.isSpace_quote, hdash, hbracket, Quote.ofChar?_char, hopening]
  rw [finish_consume hstep, finish_settled]
  exact ⟨rfl, rfl, rfl⟩

theorem delimits_gap_long (rest : List Char) (count skipped : Nat)
    (hopening : demand.offer.opening) :
    Delimits (gap.finish demand (.skipped skipped) (openingBracket count ++ rest))
      (.opening (.long (.ofCount count))) skipped (count + 2) := by
  have hbracket := bracket?_eq_some_iff.mpr (rfl : openingBracket count ++ rest = _)
  rw [openingBracket_append] at hbracket ⊢
  have hstep : gap.step demand '[' = .consume false (.bracket .string 0) := by
    simp [step, gapStep, Dialect.isSpace_bracket, hopening]
  rw [finish_consume hstep, finish_bracket_of_some 0 hbracket, Nat.zero_add]
  simp only [openedBracket, finish_settled, Bool.false_eq_true, if_false, Extent.pass_pass]
  exact ⟨rfl, rfl, congrArg (skipped + ·) (Nat.add_comm 1 (count + 1))⟩

/-- Where a token begins that is offered, it is found. -/
theorem delimits_gap {beginning : Beginning} (skipped : Nat)
    (h : beginning? text = some beginning)
    (haccepts : demand.offer.accepts beginning.found.kind = true) :
    Delimits (gap.finish demand (.skipped skipped) text) beginning.found skipped
      (beginning.token demand.dialect).1.length := by
  obtain rfl := beginning?_eq_some_iff.mp h
  rcases beginning with rest | ⟨quote, rest⟩ | ⟨count, rest⟩
  · exact delimits_gap_comment skipped haccepts
  · exact delimits_gap_short quote skipped haccepts
  · have hlong := delimits_gap_long rest count skipped haccepts
    rwa [← length_openingBracket] at hlong

/-- Where no token begins that is offered, nothing is found. -/
theorem finish_gap_declined (hspace : ∀ c ∈ text.head?, demand.dialect.isSpace c = false)
    (h : ∀ beginning, beginning? text = some beginning →
      demand.offer.accepts beginning.found.kind = false) :
    (gap.finish demand extent text).1 = none := by
  rcases text with _ | ⟨c, text⟩
  · rfl
  have hc : demand.dialect.isSpace c = false := hspace c rfl
  by_cases hdash : c = '-' ∧ demand.offer.comment = true
  · obtain ⟨rfl, hcomment⟩ := hdash
    have hfirst : gap.step demand '-' = .consume false .dash := by
      simp [step, gapStep, hc, hcomment]
    rw [finish_consume hfirst]
    rcases text with _ | ⟨d, text⟩
    · rfl
    have hsecond : d ≠ '-' := by
      rintro rfl
      exact Bool.false_ne_true ((h (.comment text) rfl).symm.trans hcomment)
    have hstep : dash.step demand d = .halt .declined := by
      simp only [step, if_neg hsecond]
    rw [finish_halt hstep]
    rfl
  by_cases hbracket : c = '[' ∧ demand.offer.opening = true
  · obtain ⟨rfl, hopening⟩ := hbracket
    have hstep : gap.step demand '[' = .consume false (.bracket .string 0) := by
      simp [step, gapStep, hc, hopening]
    have hnone : bracket? ('[' :: text) = none := by
      rw [Option.eq_none_iff_forall_ne_some]
      intro found hfound
      have hlong : beginning? ('[' :: text) = some (.long found.1 found.2) := by
        rw [beginning?_bracket, hfound]
        rfl
      exact Bool.false_ne_true ((h _ hlong).symm.trans hopening)
    rw [finish_consume hstep]
    exact finish_bracket_string 0 hnone
  · have hquote : ∀ quote, Quote.ofChar? c = some quote → demand.offer.opening = false := by
      intro quote heq
      refine h (.short quote text) (beginning?_eq_some_iff.mpr ?_)
      rw [Quote.ofChar?_eq_some_iff.mp heq]
      rfl
    have hstep : gap.step demand c = .halt .declined := by
      simp only [step, gapStep, hc, Bool.and_eq_true, decide_eq_true_eq, if_neg hdash,
        if_neg hbracket, Bool.false_eq_true, if_false]
      split
      next quote heq hopening =>
        exact absurd ((hquote quote heq).symm.trans hopening) Bool.false_ne_true
      next => rfl
    rw [finish_halt hstep]
    rfl

end Phase

end LuaLiterals
