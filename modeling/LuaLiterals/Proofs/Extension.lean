import LuaLiterals.Proofs.Layout

/-!
Sources that are extended. All lexemes of a run but the last are settled: whatever is appended to
the source, they stay, with their places (`lexemes_of_extension`). A token that ends in front of the
end of the source does not depend on what follows it, so only the token that reaches the end can
change, and of that token what changes is its last part
(`Grammar.Beginning.dropLast_parts_prefix`). An induction over `Grammar.split` passes over the
tokens in front of it.
-/

set_option autoImplicit false
set_option relaxedAutoImplicit false

namespace LuaLiterals

namespace Grammar

variable {mate : Nat → Nat} {dialect : Dialect} {text before : List Char}
variable {beginning : Beginning} {front parts longer : List Part}

/-! ### The token that reaches the end -/

/-- All but the last of a list that goes on behind a front part. -/
theorem dropLast_append_prefix (h : parts.dropLast <+: longer) :
    (front ++ parts).dropLast <+: front ++ longer := by
  by_cases hnil : parts = []
  · rw [hnil, List.append_nil]
    exact (List.dropLast_prefix front).trans (List.prefix_append front longer)
  · rw [List.dropLast_append_of_ne_nil hnil]
    exact (List.prefix_append_right_inj front).mpr h

/-- Of a literal that breaks off, the opening delimiter is settled if content follows it. -/
theorem dropLast_broken_prefix (opening : Part) (body : List Char) :
    (opening :: part (some .content) body).dropLast <+: opening :: longer := by
  rw [part]
  split
  next => exact List.nil_prefix
  next => exact ⟨longer, rfl⟩

/-- Of a literal, the parts but the last are settled: all of them if it is finished, and otherwise
the opening delimiter. -/
theorem dropLast_literal_prefix {literal : List Char → List Part × Except Cause (List Char)}
    (hfinished : ∀ {parts rest}, literal text = (parts, .ok rest) →
      text = charsOf parts ++ rest ∧
        ∀ other, literal (charsOf parts ++ other) = (parts, .ok other))
    (hbroken : ∀ {parts cause}, literal text = (parts, .error cause) →
      ∃ body, parts = part (some .content) body)
    (opening : Part) (more : List Char) :
    (opening :: (literal text).1).dropLast <+: opening :: (literal (text ++ more)).1 := by
  rcases hliteral : literal text with ⟨parts, cause | rest⟩
  · obtain ⟨body, rfl⟩ := hbroken hliteral
    exact dropLast_broken_prefix opening body
  · obtain ⟨htext, hother⟩ := hfinished hliteral
    have hlonger : literal (text ++ more) = (parts, .ok (rest ++ more)) := by
      rw [htext, List.append_assoc, hother]
    rw [hlonger]
    exact List.dropLast_prefix _

/-- Whatever is appended behind a token, only the last of its parts can change. -/
theorem Beginning.dropLast_parts_prefix (beginning : Beginning) (more : List Char) :
    (beginning.parts mate dialect).1.dropLast <+:
      ((beginning.withRest (beginning.rest ++ more)).parts mate dialect).1 := by
  rcases beginning with text | ⟨quote, text⟩ | ⟨count, text⟩
  · exact List.nil_prefix
  · exact dropLast_literal_prefix shortLiteral_withRest shortLiteral_broken _ more
  · exact dropLast_literal_prefix longLiteral_withRest longLiteral_broken _ more

/-! ### The whole source -/

/-- The text in front of the first token, and that token, begin the source. -/
theorem split_begins (hgap : gap text = (before, some beginning)) :
    part none before ++ (beginning.parts mate dialect).1 <+: (split mate dialect text).1 := by
  rcases hparts : beginning.parts mate dialect with ⟨parts, cause | rest⟩
  · exact ⟨[], by rw [split_error hgap hparts, List.append_nil]⟩
  · rw [split_ok hgap hparts]
    exact List.prefix_append _ _

theorem dropLast_split_of_last (mate : Nat → Nat) (dialect : Dialect)
    (hgap : gap text = (before, some beginning)) (more : List Char) :
    (part none before ++ (beginning.parts mate dialect).1).dropLast <+:
      (split mate dialect (text ++ more)).1 := by
  have hlonger : gap (text ++ more) =
      (before, some (beginning.withRest (beginning.rest ++ more))) := by
    rw [gap_append hgap, List.append_assoc, List.append_assoc]
    exact gap_withRest hgap _
  have hlast : (part none before ++ (beginning.parts mate dialect).1).dropLast <+:
      part none before ++ _ := dropLast_append_prefix (beginning.dropLast_parts_prefix more)
  exact hlast.trans (split_begins hlonger)

/-- Whatever is appended to a source, only the last of its parts can change. -/
theorem dropLast_split_prefix (text more : List Char) :
    (split mate dialect text).1.dropLast <+: (split mate dialect (text ++ more)).1 := by
  fun_induction split mate dialect text with
  | case1 text before hgap =>
    rw [part]
    split <;> exact List.nil_prefix
  | case2 text before beginning hgap parts rest hparts later ih =>
    by_cases hrest : rest = []
    · have hlast := dropLast_split_of_last mate dialect hgap more
      rw [hparts] at hlast
      rw [show later = split mate dialect rest from rfl, hrest, split_nil, List.append_nil]
      exact hlast
    · obtain ⟨htext, hcut⟩ := split_behind hgap hparts
      have hhead : (rest ++ more).head? = rest.head? := by
        obtain ⟨c, tail, rfl⟩ := List.exists_cons_of_ne_nil hrest
        rfl
      have hlonger := hcut _ (Or.inr hhead)
      rw [← List.append_assoc (charsOf parts), ← List.append_assoc before, ← htext] at hlonger
      rw [hlonger]
      exact dropLast_append_prefix ih
  | case3 text before beginning hgap parts cause hparts =>
    have hlast := dropLast_split_of_last mate dialect hgap more
    rwa [hparts] at hlast

end Grammar

/-! ### Runs -/

open Grammar

theorem dropLast_lexemesBehind (covered : List Char) (parts : List Part) :
    (lexemesBehind covered parts).dropLast = lexemesBehind covered parts.dropLast := by
  rcases List.eq_nil_or_concat parts with rfl | ⟨init, last, rfl⟩
  · rfl
  · rw [List.concat_eq_append, lexemesBehind_append, List.dropLast_concat]
    exact List.dropLast_concat

theorem lexemesBehind_prefix {first second : List Part} (h : first <+: second)
    (covered : List Char) : lexemesBehind covered first <+: lexemesBehind covered second := by
  obtain ⟨behind, rfl⟩ := h
  rw [lexemesBehind_append]
  exact List.prefix_append _ _

theorem filterMap_toOption_itemsBehind (covered : List Char) (parts : List Part)
    (cause : Option Cause) :
    (itemsBehind covered parts cause).filterMap Except.toOption = lexemesBehind covered parts := by
  induction parts generalizing covered with
  | nil => cases cause <;> rfl
  | cons part parts ih =>
    rw [itemsBehind_cons, List.filterMap_cons]
    exact congrArg (part.lexeme covered :: ·) (ih _)

namespace Splitter

/-- The lexemes of a run, without the fault if it ends with one. -/
def lexemes (splitter : Splitter) : List Lexeme := splitter.items.filterMap Except.toOption

theorem lexemes_ofSource (source : List Char) (dialect : Dialect) (suspends : Bool) :
    (ofSource source dialect suspends).lexemes =
      lexemesBehind [] (split capped dialect source).1 := by
  rw [lexemes, items_ofSource, filterMap_toOption_itemsBehind]

/-- Whatever is appended to a source, all lexemes but the last stay, with their places. -/
theorem lexemes_of_extension (source more : List Char) (dialect : Dialect)
    (suspends again : Bool) :
    (ofSource source dialect suspends).lexemes.dropLast <+:
      (ofSource (source ++ more) dialect again).lexemes := by
  rw [lexemes_ofSource, lexemes_ofSource, dropLast_lexemesBehind]
  have hparts : (split capped dialect source).1.dropLast <+:
      (split capped dialect (source ++ more)).1 := dropLast_split_prefix source more
  exact lexemesBehind_prefix hparts []

end Splitter

end LuaLiterals
