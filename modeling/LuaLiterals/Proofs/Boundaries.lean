import LuaLiterals.Proofs.Locality

/-!
Boundaries between the parts of a source at which no string literal is open. Cutting a source there
changes nothing on either side: what stands in front falls into the parts in front of the boundary
and is finished, and what stands behind into the parts behind it (`split_of_openFree`). A boundary
lies between two tokens, or between a token and the text in front of it, and a token does not depend
on what follows it.
-/

set_option autoImplicit false
set_option relaxedAutoImplicit false

namespace LuaLiterals

namespace Grammar

/-- Among lexemes of these kinds every opening delimiter has its closing one behind it. Text outside
comments and literals has no kind. -/
def OpenFree (kinds : List (Option Kind)) : Prop :=
  ∀ before behind, kinds = before ++ some .opening :: behind → some .closing ∈ behind

variable {kinds first second : List (Option Kind)}

theorem OpenFree.of_append (h : OpenFree (first ++ second)) : OpenFree second := by
  intro before behind heq
  exact h (first ++ before) behind (by rw [heq, List.append_assoc])

theorem openFree_nil : OpenFree [] := by
  intro before behind heq
  exact absurd heq.symm (List.append_ne_nil_of_right_ne_nil before (List.cons_ne_nil _ _))

theorem openFree_cons {kind : Option Kind} :
    OpenFree (kind :: kinds) ↔
      (kind = some .opening → some .closing ∈ kinds) ∧ OpenFree kinds := by
  constructor
  · intro h
    refine ⟨?_, fun before behind heq ↦ h (kind :: before) behind (congrArg (kind :: ·) heq)⟩
    rintro rfl
    exact h [] kinds rfl
  · rintro ⟨hkind, hkinds⟩ before behind heq
    cases before with
    | nil =>
      obtain ⟨rfl, rfl⟩ := List.cons.inj heq
      exact hkind rfl
    | cons _ before => exact hkinds before behind (List.cons.inj heq).2

/-- Whether a literal is open behind lexemes can be computed from their kinds. -/
instance decidableOpenFree : (kinds : List (Option Kind)) → Decidable (OpenFree kinds)
  | [] => isTrue openFree_nil
  | kind :: kinds =>
    have := decidableOpenFree kinds
    decidable_of_iff ((kind = some .opening → some .closing ∈ kinds) ∧ OpenFree kinds)
      openFree_cons.symm

def kindsOf (parts : List Part) : List (Option Kind) := parts.map Part.kind

theorem kindsOf_append (first second : List Part) :
    kindsOf (first ++ second) = kindsOf first ++ kindsOf second := List.map_append

variable {mate : Nat → Nat} {dialect : Dialect} {text before rest : List Char}
variable {beginning : Beginning} {parts front back : List Part} {cause : Cause}

/-! ### Inside a token -/

/-- A comment is a single part. A finished literal has its delimiters, with content in between if
there is any. -/
theorem Beginning.parts_finished (h : beginning.parts mate dialect = (parts, .ok rest)) :
    (∃ chars, parts = [⟨some .comment, chars⟩]) ∨
      ∃ opener body closer,
        parts = ⟨some .opening, opener⟩ :: (part (some .content) body ++ [closer]) := by
  rcases beginning with text | ⟨quote, text⟩ | ⟨count, text⟩
  · cases h
    exact Or.inl ⟨_, rfl⟩
  · refine Or.inr ?_
    simp only [Beginning.parts, shortLiteral] at h
    split at h
    next => cases h; exact ⟨_, _, _, rfl⟩
    next => cases h
  · refine Or.inr ?_
    simp only [Beginning.parts, longLiteral] at h
    split at h
    next => cases h; exact ⟨_, _, _, rfl⟩
    next => cases h

theorem Beginning.parts_broken (h : beginning.parts mate dialect = (parts, .error cause)) :
    ∃ opener body, parts = ⟨some .opening, opener⟩ :: part (some .content) body := by
  rcases beginning with text | ⟨quote, text⟩ | ⟨count, text⟩
  · cases h
  · rcases hliteral : shortLiteral quote text with ⟨inner, outcome⟩
    simp only [Beginning.parts, hliteral] at h
    cases h
    obtain ⟨body, rfl⟩ := shortLiteral_broken hliteral
    exact ⟨_, body, rfl⟩
  · rcases hliteral : longLiteral mate count text with ⟨inner, outcome⟩
    simp only [Beginning.parts, hliteral] at h
    cases h
    obtain ⟨body, rfl⟩ := longLiteral_broken hliteral
    exact ⟨_, body, rfl⟩

theorem closing_notMem_content (chars : List Char) :
    some .closing ∉ kindsOf (part (some .content) chars) := by
  rw [part]
  split <;> simp [kindsOf]

/-- Behind an opening delimiter that only content follows, a literal is open. -/
theorem nil_of_openFree {opener body : List Char}
    (h : ⟨some .opening, opener⟩ :: part (some .content) body = front ++ back)
    (hfree : OpenFree (kindsOf front)) : front = [] := by
  cases front with
  | nil => rfl
  | cons first front =>
    obtain ⟨rfl, hbody⟩ := List.cons.inj h
    have hcontent := closing_notMem_content body
    rw [show part (some .content) body = front ++ back from hbody, kindsOf_append,
      List.mem_append, not_or] at hcontent
    exact absurd ((openFree_cons.mp hfree).1 rfl) hcontent.1

/-- Inside a finished token there is no boundary at which no literal is open. -/
theorem Beginning.nil_or_nil_of_openFree (h : beginning.parts mate dialect = (parts, .ok rest))
    (hparts : parts = front ++ back) (hfree : OpenFree (kindsOf front)) :
    front = [] ∨ back = [] := by
  rcases List.eq_nil_or_concat back with rfl | ⟨init, last, rfl⟩
  · exact Or.inr rfl
  refine Or.inl ?_
  rcases Beginning.parts_finished h with ⟨chars, rfl⟩ | ⟨opener, body, closer, rfl⟩
  · rw [List.concat_eq_append, ← List.append_assoc] at hparts
    exact (List.append_eq_nil_iff.mp (List.append_inj' (show [] ++ _ = _ from hparts) rfl).1.symm).1
  · rw [List.concat_eq_append, ← List.append_assoc, ← List.cons_append] at hparts
    exact nil_of_openFree (List.append_inj' hparts rfl).1 hfree

/-- Such a boundary lies in front of the token or behind it. -/
theorem Beginning.cut_of_openFree (h : beginning.parts mate dialect = (parts, .ok rest))
    {later : List Part} (hcut : parts ++ later = front ++ back)
    (hfree : OpenFree (kindsOf front)) :
    front = [] ∨ ∃ beyond, front = parts ++ beyond ∧ later = beyond ++ back := by
  rcases List.append_eq_append_iff.mp hcut with hbehind | ⟨left, hparts, hback⟩
  · exact Or.inr hbehind
  · rcases Beginning.nil_or_nil_of_openFree h hparts hfree with hnil | rfl
    · exact Or.inl hnil
    · rw [List.append_nil] at hparts
      exact Or.inr ⟨[], by rw [hparts, List.append_nil], hback.symm⟩

/-! ### Cutting a source -/

theorem split_nil : split mate dialect [] = ([], none) :=
  split_none (rfl : gap [] = ([], none))

/-- A list that goes on behind a part has nothing in front of a cut, or the whole of that part. -/
theorem part_append_cases {kind : Option Kind} {chars : List Char} {behind : List Part}
    (h : part kind chars ++ behind = front ++ back) :
    front = [] ∨ ∃ inner, front = part kind chars ++ inner ∧ behind = inner ++ back := by
  by_cases hnil : chars = []
  · rw [part, if_pos hnil] at h ⊢
    exact Or.inr ⟨front, rfl, h⟩
  · rw [part, if_neg hnil] at h ⊢
    cases front with
    | nil => exact Or.inl rfl
    | cons first front =>
      obtain ⟨rfl, hbehind⟩ := List.cons.inj h
      exact Or.inr ⟨front, rfl, hbehind⟩

theorem Beginning.withRest_rest (beginning : Beginning) :
    beginning.withRest beginning.rest = beginning := by
  cases beginning <;> rfl

/-- The text in front of a token can be cut off. -/
theorem split_of_gap (hgap : gap text = (before, some beginning)) :
    split mate dialect text =
      (part none before ++ (split mate dialect (beginning.opener ++ beginning.rest)).1,
        (split mate dialect (beginning.opener ++ beginning.rest)).2) := by
  have hopener := gap_opener_append beginning beginning.rest
  rw [Beginning.withRest_rest] at hopener
  rcases hparts : beginning.parts mate dialect with ⟨parts, cause | rest⟩
  · rw [split_error hgap hparts, split_error hopener hparts]
    rfl
  · rw [split_ok hgap hparts, split_ok hopener hparts, List.append_assoc]
    rfl

/-- What is cut off there is a source without a token. -/
theorem split_before (hgap : gap text = (before, some beginning)) :
    split mate dialect before = (part none before, none) := by
  have hself := gap_gap text
  rw [hgap] at hself
  exact split_none hself

/-- A source can be cut behind a finished token, if what stands behind it begins alike. -/
theorem split_behind (hgap : gap text = (before, some beginning))
    (hparts : beginning.parts mate dialect = (parts, .ok rest)) :
    text = before ++ (charsOf parts ++ rest) ∧
      ∀ other, other = [] ∨ other.head? = rest.head? →
        split mate dialect (before ++ (charsOf parts ++ other)) =
          (part none before ++ parts ++ (split mate dialect other).1,
            (split mate dialect other).2) := by
  obtain ⟨inside, hchars, hrest, hwithRest⟩ := Beginning.parts_withRest hparts
  refine ⟨?_, fun other hother ↦ ?_⟩
  · rw [hchars, gap_append hgap, hrest, List.append_assoc]
  · rw [hchars, List.append_assoc]
    exact split_ok (gap_withRest hgap (inside ++ other)) (hwithRest other hother)

/-- At a boundary where no literal is open, a source can be cut. -/
theorem split_of_openFree (h : (split mate dialect text).1 = front ++ back)
    (hfree : OpenFree (kindsOf front)) :
    split mate dialect (charsOf front) = (front, none) ∧
      ∃ rest, text = charsOf front ++ rest ∧
        split mate dialect rest = (back, (split mate dialect text).2) := by
  fun_induction split mate dialect text generalizing front back
  case case1 text before hgap =>
    have hself := gap_eq_self (congrArg Prod.snd hgap)
    rw [hgap] at hself
    obtain rfl : before = text := hself
    rcases part_append_cases ((List.append_nil _).trans h) with rfl | ⟨inner, rfl, hback⟩
    · exact ⟨split_nil, before, rfl, (split_none hgap).trans (Prod.ext h rfl)⟩
    · obtain ⟨rfl, rfl⟩ := List.append_eq_nil_iff.mp hback.symm
      rw [List.append_nil, charsOf_part]
      exact ⟨split_none hgap, [], (List.append_nil _).symm, split_nil⟩
  case case2 text before beginning hgap parts rest hparts later ih =>
    have hsplit : split mate dialect text = _ := split_ok hgap hparts
    rw [List.append_assoc] at h hsplit
    rcases part_append_cases h with rfl | ⟨inner, rfl, hinner⟩
    · exact ⟨split_nil, text, rfl, hsplit.trans (Prod.ext h rfl)⟩
    rw [kindsOf_append] at hfree
    rcases Beginning.cut_of_openFree hparts hinner hfree.of_append with rfl | ⟨front, rfl, hlater⟩
    · rw [List.append_nil, charsOf_part]
      refine ⟨split_before hgap, _, gap_append hgap, ?_⟩
      rw [split_of_gap hgap, Prod.mk.injEq] at hsplit
      exact Prod.ext ((List.append_cancel_left hsplit.1).trans hinner) hsplit.2
    · rw [kindsOf_append] at hfree
      obtain ⟨hfront, behind, hrest, hbehind⟩ := ih hlater hfree.of_append.of_append
      obtain ⟨htext, hcut⟩ := split_behind hgap hparts
      have hhead : charsOf front = [] ∨ (charsOf front).head? = rest.head? := by
        rw [hrest]
        cases charsOf front with
        | nil => exact Or.inl rfl
        | cons c chars => exact Or.inr rfl
      rw [charsOf_append, charsOf_part, charsOf_append]
      refine ⟨?_, behind, ?_, hbehind⟩
      · rw [hcut _ hhead, hfront, List.append_assoc]
      · rw [htext, hrest, List.append_assoc, List.append_assoc]
  case case3 text before beginning hgap parts cause hparts =>
    have hsplit : split mate dialect text = _ := split_error hgap hparts
    rcases part_append_cases h with rfl | ⟨inner, rfl, hinner⟩
    · exact ⟨split_nil, text, rfl, hsplit.trans (Prod.ext h rfl)⟩
    rw [kindsOf_append] at hfree
    obtain ⟨opener, body, rfl⟩ := Beginning.parts_broken hparts
    obtain rfl := nil_of_openFree hinner hfree.of_append
    rw [List.append_nil, charsOf_part]
    refine ⟨split_before hgap, _, gap_append hgap, ?_⟩
    rw [split_of_gap hgap, Prod.mk.injEq] at hsplit
    exact Prod.ext ((List.append_cancel_left hsplit.1).trans hinner) hsplit.2

end Grammar

end LuaLiterals
