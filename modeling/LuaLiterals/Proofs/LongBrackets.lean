import LuaLiterals.Grammar
import LuaLiterals.Proofs.Runs

/-!
Long brackets, told by the texts themselves. The automaton never goes back: a closing bracket
that fails to complete belongs to the text, and reading goes on at the character that shows it.
This finds the first closing bracket all the same, because none can begin inside one that failed:
only the first of its characters is a `]` (`breakOn?_of_mismatch`). The main statement
`closes_body` says that the text between long brackets ends where `Grammar.breakOn?` finds the
first closing bracket, with the mark in front of it, and that without one the run reads to the end.
Opening brackets are read to their end (`finish_bracket_of_some`); what looks like one and is none
is a part of the line in a comment, and no token elsewhere.
-/

set_option autoImplicit false
set_option relaxedAutoImplicit false

namespace LuaLiterals

namespace Grammar

/-! ### The first occurrence of a word -/

variable {word text : List Char} {c : Char}

theorem breakOn?_cons_of_not_prefix (h : ¬ word <+: c :: text) :
    breakOn? word (c :: text) = (breakOn? word text).map fun found ↦ (c :: found.1, found.2) := by
  rw [breakOn?, if_neg]
  rwa [List.isPrefixOf_iff_prefix]

theorem breakOn?_append_self (word text : List Char) (h : word ≠ []) :
    breakOn? word (word ++ text) = some ([], text) := by
  obtain ⟨c, word, rfl⟩ := List.exists_cons_of_ne_nil h
  have hbegins : c :: word <+: c :: (word ++ text) := List.prefix_append (c :: word) text
  rw [List.cons_append, breakOn?, if_pos (List.isPrefixOf_iff_prefix.mpr hbegins),
    ← List.cons_append, List.drop_left]

/-! ### Closing brackets -/

/-- A closing bracket begins with a bracket only. -/
theorem breakOn?_closing_cons {count : Nat} (h : c ≠ ']') :
    breakOn? (closingBracket count) (c :: text) =
      (breakOn? (closingBracket count) text).map fun found ↦ (c :: found.1, found.2) := by
  refine breakOn?_cons_of_not_prefix fun hbegins ↦ ?_
  exact h (List.cons_prefix_cons.mp hbegins).1.symm

theorem breakOn?_closing_signs {count : Nat} (signs : Nat) :
    breakOn? (closingBracket count) (List.replicate signs '=' ++ text) =
      (breakOn? (closingBracket count) text).map
        fun found ↦ (List.replicate signs '=' ++ found.1, found.2) := by
  induction signs with
  | zero =>
    simp only [List.replicate_zero, List.nil_append]
    exact Option.map_id'.symm
  | succ signs ih =>
    rw [List.replicate_succ, List.cons_append, breakOn?_closing_cons (by decide), ih,
      Option.map_map]
    rfl

/-- The front of a closing bracket, with so many of its equals signs. -/
def closerFront (signs : Nat) : List Char := ']' :: List.replicate signs '='

theorem length_closerFront (signs : Nat) : (closerFront signs).length = signs + 1 := by
  rw [closerFront, List.length_cons, List.length_replicate]

theorem closerFront_succ (signs : Nat) (text : List Char) :
    closerFront (signs + 1) ++ text = closerFront signs ++ '=' :: text := by
  rw [closerFront, closerFront, List.replicate_succ', List.cons_append, List.cons_append,
    List.append_assoc, List.singleton_append]

theorem closingBracket_ne_nil (signs : Nat) : closingBracket signs ≠ [] := nofun

theorem closingBracket_eq (signs : Nat) : closingBracket signs = closerFront signs ++ [']'] := rfl

/-- No closing bracket begins inside the front of one that fails at the next character. -/
theorem breakOn?_of_mismatch (signs : Nat) {left : Nat}
    (h : ¬ List.replicate left '=' ++ [']'] <+: text) :
    breakOn? (closingBracket (signs + left)) (closerFront signs ++ text) =
      (breakOn? (closingBracket (signs + left)) text).map
        fun found ↦ (closerFront signs ++ found.1, found.2) := by
  have hwhole : ¬ closingBracket (signs + left) <+: ']' :: (List.replicate signs '=' ++ text) := by
    intro hbegins
    apply h
    have hsplit : closingBracket (signs + left) =
        ']' :: (List.replicate signs '=' ++ (List.replicate left '=' ++ [']'])) := by
      rw [closingBracket, ← List.replicate_append_replicate, List.cons_append, List.append_assoc]
    rw [hsplit] at hbegins
    exact (List.prefix_append_right_inj _).mp (List.cons_prefix_cons.mp hbegins).2
  rw [closerFront, List.cons_append, breakOn?_cons_of_not_prefix hwhole, breakOn?_closing_signs,
    Option.map_map]
  rfl

end Grammar

namespace Phase

open Grammar

variable {demand : Demand} {purpose : Purpose} {level : Level} {text : List Char}
variable {extent : Extent}

/-! ### Behind the first character of an opening bracket -/

/-- A complete opening bracket is read to its end. -/
theorem finish_bracket_of_some {signs : Nat} {rest : List Char} (count : Nat)
    (h : bracket? ('[' :: text) = some (signs, rest)) :
    (bracket purpose count).finish demand extent text =
      (openedBracket purpose (Level.ofCount (count + signs))).finish demand
        (extent.pass (signs + 1) extent.mark) rest := by
  obtain rfl : text = List.replicate signs '=' ++ '[' :: rest := by
    have hwhole := bracket?_eq_some_iff.mp h
    rw [openingBracket_append] at hwhole
    exact (List.cons.inj hwhole).2
  clear h
  induction signs generalizing count extent with
  | zero =>
    have hstep : (bracket purpose count).step demand '[' =
        .consume false (openedBracket purpose (Level.ofCount count)) := rfl
    exact finish_consume hstep
  | succ signs ih =>
    have hstep : (bracket purpose count).step demand '=' =
        .consume false (.bracket purpose (count + 1)) := rfl
    rw [List.replicate_succ, List.cons_append, finish_consume hstep, ih]
    simp only [Bool.false_eq_true, if_false, Extent.pass_pass, Extent.mark_pass,
      Nat.add_comm 1, Nat.add_right_comm count 1, Nat.add_assoc]

/-- In a comment a bracket that is none is a part of the line. -/
theorem finish_bracket_comment (count : Nat) (h : bracket? ('[' :: text) = none) :
    (bracket .comment count).finish demand extent text = line.finish demand extent text := by
  induction text generalizing count extent with
  | nil => rw [finish_nil, finish_nil]; rfl
  | cons c text ih =>
    by_cases hsign : c = '='
    · subst hsign
      have hstep : (bracket .comment count).step demand '=' =
          .consume false (.bracket .comment (count + 1)) := rfl
      have hline : line.step demand '=' = .consume false .line := rfl
      rw [bracket?_sign, Option.map_eq_none_iff] at h
      rw [finish_consume hstep, finish_consume hline, ih (count + 1) h]
    · have hsecond : c ≠ '[' := by
        rintro rfl
        cases h
      have hstep : (bracket .comment count).step demand c = line.step demand c := by
        simp only [step, bracketStep, if_neg hsign, if_neg hsecond]
      simp only [finish, run, hstep]

/-- A literal does not begin with a bracket that is none. -/
theorem finish_bracket_string (count : Nat) (h : bracket? ('[' :: text) = none) :
    ((bracket .string count).finish demand extent text).1 = none := by
  induction text generalizing count extent with
  | nil => rfl
  | cons c text ih =>
    by_cases hsign : c = '='
    · subst hsign
      have hstep : (bracket .string count).step demand '=' =
          .consume false (.bracket .string (count + 1)) := rfl
      rw [bracket?_sign, Option.map_eq_none_iff] at h
      rw [finish_consume hstep]
      exact ih (count + 1) h
    · have hsecond : c ≠ '[' := by
        rintro rfl
        cases h
      have hstep : (bracket .string count).step demand c = .halt .declined := by
        simp only [step, bracketStep, if_neg hsign, if_neg hsecond]
      rw [finish_halt hstep]
      rfl

/-! ### Between long brackets -/

/-- How the text between long brackets ends where the input does. -/
def openEnding : Purpose → Ending
  | .comment => .comment
  | .string => .declined

/-- The outcome of reading a text between long brackets, from an extent on: it ends at the first
closing bracket, and that bracket is marked in front. Without one everything is read. -/
def Closes (demand : Demand) (purpose : Purpose) (level : Level) (content : Bool)
    (text : List Char) (extent : Extent) (outcome : Option Found × Extent) : Prop :=
  match breakOn? (closingBracket level.toNat) text with
  | some (before, _) =>
    outcome = (closedEnding demand.offer purpose (content || !before.isEmpty)).settle
      (extent.pass (before.length + level.toNat + 2) (some (extent.read + before.length)))
  | none => ∃ mark, outcome = (openEnding purpose).settle (extent.pass text.length mark)

/-- Text that no closing bracket begins in is passed over, and is content. -/
theorem Closes.append {content : Bool} {front : List Char} {mark : Option Nat}
    {outcome : Option Found × Extent} (hfront : front ≠ [])
    (hbreak : breakOn? (closingBracket level.toNat) (front ++ text) =
      (breakOn? (closingBracket level.toNat) text).map fun found ↦ (front ++ found.1, found.2))
    (h : Closes demand purpose level true text (extent.pass front.length mark) outcome) :
    Closes demand purpose level content (front ++ text) extent outcome := by
  unfold Closes at h ⊢
  rw [hbreak]
  cases hfound : breakOn? (closingBracket level.toNat) text with
  | none =>
    rw [hfound] at h
    obtain ⟨later, houtcome⟩ := h
    refine ⟨later, ?_⟩
    rw [houtcome, Extent.pass_pass, List.length_append]
  | some found =>
    obtain ⟨before, rest⟩ := found
    rw [hfound] at h
    have hne : (front ++ before).isEmpty = false := by
      simp [hfront]
    simp only [Option.map_some, hne, Bool.not_false, Bool.or_true]
    simp only [Bool.true_or] at h
    rw [h, Extent.pass_pass, Extent.read_pass, List.length_append]
    simp only [Nat.add_assoc]

theorem finish_closer_of_body {left : Nat} {content : Bool} {c : Char}
    (hsign : ¬ (c = '=' ∧ 0 < left)) (hbracket : ¬ (c = ']' ∧ left = 0)) :
    (closer purpose level left content).finish demand extent (c :: text) =
      (body purpose level true).finish demand extent (c :: text) := by
  have hstep : (closer purpose level left content).step demand c =
      (body purpose level true).step demand c := by
    simp only [step, closerStep, Bool.and_eq_true, decide_eq_true_eq, if_neg hsign,
      if_neg hbracket]
  simp only [finish, run, hstep]

/-- A character that begins no closing bracket is content. -/
theorem closes_body_cons {content : Bool} {c : Char} (hne : c ≠ ']')
    (h : ∀ content extent, Closes demand purpose level content text extent
      ((body purpose level content).finish demand extent text)) :
    Closes demand purpose level content (c :: text) extent
      ((body purpose level content).finish demand extent (c :: text)) := by
  have hstep : (body purpose level content).step demand c =
      .consume false (.body purpose level true) := by
    simp only [step, bodyStep, if_neg hne]
  rw [finish_consume hstep]
  exact Closes.append (List.cons_ne_nil c []) (breakOn?_closing_cons hne) (h true _)

/-- The front of a closing bracket at the end of the input closes nothing. -/
theorem closes_closer_nil {content : Bool} {signs left : Nat}
    (hlevel : signs + left = level.toNat) :
    Closes demand purpose level content (closerFront signs ++ []) extent
      ((closer purpose level left content).finish demand
        (extent.pass (signs + 1) (some extent.read)) []) := by
  have hnone : breakOn? (closingBracket level.toNat) (closerFront signs) = none := by
    rw [Option.eq_none_iff_forall_ne_some]
    intro found hfound
    have hlength := congrArg List.length (eq_append_of_breakOn? hfound)
    simp only [List.length_append, closingBracket_eq, length_closerFront,
      List.length_singleton] at hlength
    omega
  rw [List.append_nil]
  unfold Closes
  rw [hnone, length_closerFront]
  refine ⟨some extent.read, ?_⟩
  rw [finish_nil]
  cases purpose <;> rfl

/-- The last character of a closing bracket, behind a front with all its equals signs. -/
theorem closes_closer_last {content : Bool} {signs : Nat} (hlevel : signs = level.toNat) :
    Closes demand purpose level content (closerFront signs ++ ']' :: text) extent
      ((closer purpose level 0 content).finish demand
        (extent.pass (signs + 1) (some extent.read)) (']' :: text)) := by
  have hstep : (closer purpose level 0 content).step demand ']' =
      .consume false (.settled (closedEnding demand.offer purpose content)) := by
    simp [step, closerStep]
  have hfound : breakOn? (closingBracket level.toNat) (closerFront signs ++ ']' :: text) =
      some ([], text) := by
    have hword : closerFront signs ++ ']' :: text = closingBracket level.toNat ++ text := by
      rw [← hlevel, closingBracket_eq, List.append_assoc, List.singleton_append]
    rw [hword, breakOn?_append_self _ _ (closingBracket_ne_nil _)]
  rw [finish_consume hstep, finish_settled]
  unfold Closes
  rw [hfound]
  simp only [Bool.false_eq_true, if_false, Extent.pass_pass, Extent.mark_pass, List.length_nil,
    List.isEmpty_nil, Bool.not_true, Bool.or_false, Nat.zero_add, Nat.add_zero, ← hlevel]

/-- The run between long brackets ends where the first closing bracket does. The same holds behind
the front of a bracket that may close, if that front is counted to the text. -/
theorem closes_body_and_closer (demand : Demand) (purpose : Purpose) (level : Level)
    (text : List Char) :
    (∀ content extent, Closes demand purpose level content text extent
      ((body purpose level content).finish demand extent text)) ∧
    ∀ content extent signs left, signs + left = level.toNat →
      Closes demand purpose level content (closerFront signs ++ text) extent
        ((closer purpose level left content).finish demand
          (extent.pass (signs + 1) (some extent.read)) text) := by
  -- One induction for both: a failed bracket goes on as body at the character that shows it.
  induction text with
  | nil =>
    refine ⟨fun content extent ↦ ⟨extent.mark, ?_⟩, fun _ _ _ _ hlevel ↦ closes_closer_nil hlevel⟩
    rw [finish_nil, List.length_nil, Extent.pass_zero]
    cases purpose <;> rfl
  | cons c text ih =>
    obtain ⟨hbody, hcloser⟩ := ih
    have hbodyCons : ∀ content extent, Closes demand purpose level content (c :: text) extent
        ((body purpose level content).finish demand extent (c :: text)) := by
      intro content extent
      by_cases hbracket : c = ']'
      · subst hbracket
        have hstep : (body purpose level content).step demand ']' =
            .consume true (.closer purpose level level.toNat content) := rfl
        rw [finish_consume hstep]
        exact hcloser content extent 0 level.toNat (Nat.zero_add _)
      · exact closes_body_cons hbracket hbody
    refine ⟨hbodyCons, ?_⟩
    intro content extent signs left hlevel
    by_cases hsign : c = '=' ∧ 0 < left
    · obtain ⟨rfl, hleft⟩ := hsign
      have hstep : (closer purpose level left content).step demand '=' =
          .consume false (.closer purpose level (left - 1) content) := by
        simp [step, closerStep, hleft]
      rw [finish_consume hstep, ← closerFront_succ]
      simp only [Bool.false_eq_true, if_false, Extent.pass_pass, Extent.mark_pass]
      exact hcloser content extent (signs + 1) (left - 1) (by omega)
    by_cases hbracket : c = ']' ∧ left = 0
    · obtain ⟨rfl, rfl⟩ := hbracket
      exact closes_closer_last hlevel
    · have hmismatch : ¬ List.replicate left '=' ++ [']'] <+: c :: text := by
        intro hbegins
        rcases Nat.eq_zero_or_pos left with rfl | hleft
        · exact hbracket ⟨(List.cons_prefix_cons.mp hbegins).1.symm, rfl⟩
        · obtain ⟨more, rfl⟩ := Nat.exists_eq_succ_of_ne_zero (Nat.ne_of_gt hleft)
          exact hsign ⟨(List.cons_prefix_cons.mp hbegins).1.symm, hleft⟩
      have hbreak := breakOn?_of_mismatch signs hmismatch
      rw [hlevel] at hbreak
      have hrest : Closes demand purpose level true (c :: text)
          (extent.pass (closerFront signs).length (some extent.read))
          ((body purpose level true).finish demand (extent.pass (signs + 1) (some extent.read))
            (c :: text)) := by
        rw [length_closerFront]
        exact hbodyCons true _
      rw [finish_closer_of_body hsign hbracket]
      exact Closes.append (List.cons_ne_nil _ _) hbreak hrest

theorem closes_body (demand : Demand) (purpose : Purpose) (level : Level) (content : Bool)
    (text : List Char) (extent : Extent) :
    Closes demand purpose level content text extent
      ((body purpose level content).finish demand extent text) :=
  (closes_body_and_closer demand purpose level text).1 content extent

end Phase

end LuaLiterals
