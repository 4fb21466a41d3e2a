import LuaLiterals.Grammar
import LuaLiterals.Proofs.Runs

/-!
Text between quotes. The automaton reads it character by character and keeps apart whether a
backslash stands in front of the next one; `Grammar.quotedBody` takes a backslash and the
character behind it at once. `finish_quoted` says that the two pass over the same text, and
`head_quotedBody` that what stands behind it is the closing quote, a line feed or nothing.
`finish_quoted_quote` and `finish_quoted_broken` tell the end of the run there.
-/

set_option autoImplicit false
set_option relaxedAutoImplicit false

namespace LuaLiterals

namespace Grammar

/-! ### The text itself -/

variable {quote : Quote} {text : List Char}

/-- A backslash is either the last character or has one behind it, and both are cases of their
own. -/
theorem ne_backslash_of_cases {c : Char} (hlone : c = '\\' → text = [] → False)
    (hpair : ∀ d rest, c = '\\' → text = d :: rest → False) : c ≠ '\\' := by
  rintro rfl
  cases text with
  | nil => exact hlone rfl rfl
  | cons d rest => exact hpair d rest rfl rfl

/-- Behind the text stands the closing quote, the end of the line, or nothing. -/
theorem head_quotedBody (quote : Quote) (text : List Char) :
    ∀ c ∈ (quotedBody quote text).2.head?, c = quote.char ∨ c = '\n' := by
  fun_induction quotedBody quote text with
  | case1 =>
    intro c hc
    cases hc
  | case2 =>
    intro c hc
    cases hc
  | case3 text =>
    intro c hc
    exact Or.inr (Option.some.inj hc).symm
  | case4 c text hline body rest heq ih =>
    rw [heq] at ih
    exact ih
  | case5 c text hlone hpair hstop =>
    intro d hd
    rwa [← Option.some.inj hd]
  | case6 c text hlone hpair hpass body rest heq ih =>
    rw [heq] at ih
    exact ih

/-- What stops a text, if it is not the closing quote, is the end of the line. -/
theorem head_eq_line (h : ∀ c ∈ text.head?, c = quote.char ∨ c = '\n')
    (hquote : text.head? ≠ some quote.char) : ∀ c ∈ text.head?, c = '\n' := by
  intro c hc
  rcases h c hc with rfl | rfl
  · exact absurd hc hquote
  · rfl

end Grammar

namespace Phase

open Grammar

variable {demand : Demand} {quote : Quote} {content : Bool} {text : List Char} {extent : Extent}

/-! ### Runs between quotes -/

theorem finish_quoted_pass {c : Char} (hstop : ¬ (c = quote.char ∨ c = '\n')) (hescape : c ≠ '\\') :
    (quoted quote content).finish demand extent (c :: text) =
      (quoted quote true).finish demand (extent.pass 1 extent.mark) text := by
  have hstep : (quoted quote content).step demand c = .consume false (.quoted quote true) := by
    simp only [not_or] at hstop
    simp only [step, quotedStep, if_neg hstop.1, if_neg hstop.2, if_neg hescape]
  exact finish_consume hstep

theorem char_ne_backslash (quote : Quote) : '\\' ≠ quote.char := by
  cases quote <;> decide

theorem finish_quoted_backslash :
    (quoted quote content).finish demand extent ('\\' :: text) =
      (escape quote).finish demand (extent.pass 1 extent.mark) text := by
  have hstep : (quoted quote content).step demand '\\' = .consume false (.escape quote) := by
    simp only [step, quotedStep, if_neg (char_ne_backslash quote)]
    rfl
  exact finish_consume hstep

theorem finish_escape_pass {c : Char} (hline : c ≠ '\n') :
    (escape quote).finish demand extent (c :: text) =
      (quoted quote true).finish demand (extent.pass 1 extent.mark) text := by
  have hstep : (escape quote).step demand c = .consume false (.quoted quote true) := by
    simp only [step, escapeStep, if_neg hline]
  exact finish_consume hstep

/-- A backslash that takes no character with it breaks off what stands in front of it. -/
theorem finish_escape_line :
    (escape quote).finish demand extent ('\n' :: text) =
      (quoted quote true).finish demand extent ('\n' :: text) := rfl

/-- The automaton passes over the text between the quotes, which is content unless it is empty. -/
theorem finish_quoted (demand : Demand) (quote : Quote) (content : Bool) (extent : Extent)
    (text : List Char) :
    (quoted quote content).finish demand extent text =
      (quoted quote (content || !(quotedBody quote text).1.isEmpty)).finish demand
        (extent.pass (quotedBody quote text).1.length extent.mark) (quotedBody quote text).2 := by
  fun_induction quotedBody quote text generalizing content extent with
  | case1 => simp [Extent.pass_zero]
  | case2 =>
    rw [finish_quoted_backslash]
    simp only [List.isEmpty_cons, Bool.not_false, Bool.or_true]
    rfl
  | case3 text =>
    rw [finish_quoted_backslash, finish_escape_line]
    simp only [List.isEmpty_cons, Bool.not_false, Bool.or_true]
    rfl
  | case4 c text hline body rest heq ih =>
    rw [heq] at ih
    rw [finish_quoted_backslash, finish_escape_pass hline, ih]
    simp [Nat.add_comm, Nat.add_left_comm]
  | case5 c text hlone hpair hstop => simp [Extent.pass_zero]
  | case6 c text hlone hpair hpass body rest heq ih =>
    rw [heq] at ih
    rw [finish_quoted_pass hpass (ne_backslash_of_cases hlone hpair), ih]
    simp [Nat.add_comm]

/-- In front of the closing quote the content ends, or the quote itself is the token. -/
theorem finish_quoted_quote :
    (quoted quote content).finish demand extent (quote.char :: text) =
      if content then (contentEnding demand.offer true).settle extent
      else if demand.offer.closing then
        Ending.settle ⟨true, some .closing⟩ (extent.pass 1 extent.mark)
      else Ending.declined.settle extent := by
  have hline : quote.char ≠ '\n' := by
    cases quote <;> decide
  have hstep : (quoted quote content).step demand quote.char =
      if content then .halt (contentEnding demand.offer true)
      else if demand.offer.closing then .consume false (.settled ⟨true, some .closing⟩)
      else .halt .declined := by
    simp only [step, quotedStep, if_neg hline, if_true]
  by_cases hcontent : content = true
  · rw [if_pos hcontent] at hstep ⊢
    exact finish_halt hstep
  rw [if_neg hcontent] at hstep ⊢
  by_cases hclosing : demand.offer.closing = true
  · rw [if_pos hclosing] at hstep ⊢
    rw [finish_consume hstep, finish_settled]
    rfl
  · rw [if_neg hclosing] at hstep ⊢
    exact finish_halt hstep

/-- At the end of the line or of the input a literal breaks off. -/
theorem finish_quoted_broken (h : ∀ c ∈ text.head?, c = '\n') :
    (quoted quote content).finish demand extent text =
      (brokenEnding demand.offer content).settle extent := by
  cases text with
  | nil => exact finish_nil
  | cons c text =>
    have hline : c = '\n' := h c rfl
    subst hline
    have hstep : (quoted quote content).step demand '\n' =
        .halt (brokenEnding demand.offer content) := rfl
    exact finish_halt hstep

/-- Content that is offered ends in front of whatever stops it. -/
theorem finish_quoted_content (hcontent : demand.offer.content = true)
    (h : ∀ c ∈ text.head?, c = quote.char ∨ c = '\n') :
    (quoted quote true).finish demand extent text = Ending.settle ⟨true, some .content⟩ extent := by
  by_cases hquote : text.head? = some quote.char
  · obtain ⟨rest, rfl⟩ := List.head?_eq_some_iff.mp hquote
    rw [finish_quoted_quote, if_pos rfl, contentEnding, if_pos hcontent]
  · rw [finish_quoted_broken (head_eq_line h hquote), brokenEnding, hcontent]
    rfl

end Phase

end LuaLiterals
