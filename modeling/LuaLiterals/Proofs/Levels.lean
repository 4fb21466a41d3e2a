import LuaLiterals.Proofs.Outlines

/-!
Long literals of any level. Lua's manual sets no bound on the equals signs of a long bracket, and
the closing bracket has to repeat those of the opening one. A level is kept in 32 bits and counts no
further than it can, so an opening bracket beyond that has the greatest level, whatever its signs
(`Grammar.capped`). `Splitter.closes_iff_capped` follows this through every number of signs: a
literal with one candidate for its closing bracket is closed by it exactly if that has as many signs
as the level of the opening bracket. Up to the greatest level this is the manual's rule. Beyond, a
literal is not closed by the bracket that repeats its own, and is closed by a shorter one
(`Splitter.level_mistaken_beyond_greatest`).
-/

set_option autoImplicit false
set_option relaxedAutoImplicit false

namespace LuaLiterals

namespace Grammar

variable {body text : List Char} {count signs : Nat} {dialect : Dialect}

/-! ### A text with a single closing bracket -/

/-- No closing bracket begins in a text without its first character. -/
theorem breakOn?_closing_append (hbody : ']' ∉ body) :
    breakOn? (closingBracket count) (body ++ text) =
      (breakOn? (closingBracket count) text).map fun found ↦ (body ++ found.1, found.2) := by
  induction body with
  | nil => exact Option.map_id'.symm
  | cons c body ih =>
    rw [List.mem_cons, not_or] at hbody
    rw [List.cons_append, breakOn?_closing_cons (Ne.symm hbody.1), ih hbody.2, Option.map_map]
    rfl

theorem eq_of_closingBracket_begins (h : closingBracket count <+: closingBracket signs) :
    count = signs := by
  obtain ⟨rest, hrest⟩ := h
  have hsigns := congrArg (fun text ↦ (text.tail.takeWhile (· = '=')).length) hrest
  simpa [closingBracket] using hsigns

/-- The only closing bracket in a closing bracket is that bracket. -/
theorem breakOn?_closingBracket (count signs : Nat) :
    breakOn? (closingBracket count) (closingBracket signs) =
      if signs = count then some ([], []) else none := by
  by_cases heq : signs = count
  · have hself := breakOn?_append_self (closingBracket count) [] (closingBracket_ne_nil count)
    rw [List.append_nil] at hself
    rw [if_pos heq, heq, hself]
  · have hfront : ¬ closingBracket count <+: closingBracket signs :=
      fun h ↦ heq (eq_of_closingBracket_begins h).symm
    have hlast : ¬ closingBracket count <+: [']'] := by
      intro h
      have hlength := h.length_le
      rw [length_closingBracket, List.length_singleton] at hlength
      omega
    have hend : breakOn? (closingBracket count) [']'] = none := by
      have hskip : breakOn? (closingBracket count) [']'] = _ := breakOn?_cons_of_not_prefix hlast
      rw [hskip, breakOn?, if_neg (closingBracket_ne_nil count)]
      rfl
    have htail : breakOn? (closingBracket count) (List.replicate signs '=' ++ [']']) = none := by
      rw [breakOn?_closing_signs, hend]
      rfl
    have hskip : breakOn? (closingBracket count) (closingBracket signs) = _ :=
      breakOn?_cons_of_not_prefix hfront
    rw [if_neg heq, hskip]
    exact congrArg _ htail

/-- The parts of a source that is one opening bracket, a text, and a closing bracket. -/
theorem split_bracketed (hbody : ']' ∉ body) :
    split capped dialect (openingBracket count ++ body ++ closingBracket signs) =
      if signs = capped count then
        (⟨some .opening, openingBracket count⟩ :: part (some .content) body ++
          [⟨some .closing, closingBracket signs⟩], none)
      else ([⟨some .opening, openingBracket count⟩], some .unfinishedLongString) := by
  have hsource : openingBracket count ++ body ++ closingBracket signs =
      (Beginning.long count (body ++ closingBracket signs)).opener ++
        (body ++ closingBracket signs) := List.append_assoc _ _ _
  have hgap : gap (openingBracket count ++ body ++ closingBracket signs) =
      ([], some (.long count (body ++ closingBracket signs))) := by
    have hbeginning := beginning?_eq_some_iff.mpr hsource
    rw [hsource, Beginning.opener, openingBracket_append] at hbeginning ⊢
    rw [gap, hbeginning]
  have hbreak : breakOn? (closingBracket (capped count)) (body ++ closingBracket signs) =
      if signs = capped count then some (body, []) else none := by
    rw [breakOn?_closing_append hbody, breakOn?_closingBracket]
    split
    next => exact congrArg (fun text ↦ some (text, [])) (List.append_nil body)
    next => rfl
  by_cases heq : signs = capped count
  · rw [if_pos heq] at hbreak
    have hparts : (Beginning.long count (body ++ closingBracket signs)).parts capped dialect =
        (⟨some .opening, openingBracket count⟩ :: part (some .content) body ++
          [⟨some .closing, closingBracket signs⟩], .ok []) := by
      rw [Beginning.parts, longLiteral, hbreak, heq]
      rfl
    have hend : split capped dialect [] = (part none [], none) := split_none rfl
    rw [if_pos heq, split_ok hgap hparts, hend]
    exact congrArg (·, none) (List.append_nil _)
  · rw [if_neg heq] at hbreak
    have hparts : (Beginning.long count (body ++ closingBracket signs)).parts capped dialect =
        ([⟨some .opening, openingBracket count⟩], .error .unfinishedLongString) := by
      rw [Beginning.parts, longLiteral, hbreak]
    rw [if_neg heq, split_error hgap hparts]
    rfl

end Grammar

namespace Splitter

open Grammar

/-- A run reports a closing delimiter with this text. -/
def ClosesWith (splitter : Splitter) (text : List Char) : Prop :=
  ∃ token, .ok (.token token) ∈ splitter.items ∧ token.kind = .closing ∧ token.text = text

/-- A run ends with a long literal that is not finished. -/
def BreaksOff (splitter : Splitter) : Prop :=
  ∃ fault, splitter.items.getLast? = some (.error fault) ∧ fault.cause = .unfinishedLongString

variable {splitter : Splitter} {text body : List Char} {count signs : Nat}

/-! ### What a run reports, by its outline -/

theorem closesWith_iff_mem_outlines :
    splitter.ClosesWith text ↔ .ok ⟨some .closing, text⟩ ∈ splitter.outlines := by
  constructor
  · rintro ⟨token, htoken, hkind, rfl⟩
    refine List.mem_map.mpr ⟨_, htoken, ?_⟩
    rw [outline, Lexeme.part, hkind]
  · intro h
    obtain ⟨item, hitem, houtline⟩ := List.mem_map.mp h
    cases item with
    | error fault => cases houtline
    | ok lexeme =>
      cases lexeme with
      | text chars start => cases houtline
      | token found =>
        obtain ⟨hkind, htext⟩ := Grammar.Part.mk.inj (Except.ok.inj houtline)
        exact ⟨found, hitem, Option.some.inj hkind, htext⟩

theorem breaksOff_iff_getLast?_outlines :
    splitter.BreaksOff ↔ splitter.outlines.getLast? = some (.error .unfinishedLongString) := by
  rw [outlines, List.getLast?_map]
  constructor
  · rintro ⟨fault, hlast, hcause⟩
    rw [hlast, Option.map_some, outline, hcause]
  · intro h
    obtain ⟨item, hlast, houtline⟩ := Option.map_eq_some_iff.mp h
    cases item with
    | error fault => exact ⟨fault, hlast, Except.error.inj houtline⟩
    | ok lexeme => cases houtline

/-! ### One candidate for the closing bracket -/

section Bracketed

variable (count signs : Nat) (hbody : ']' ∉ body) (dialect : Dialect) (suspends : Bool)

include hbody

theorem outlines_bracketed :
    (ofSource (openingBracket count ++ body ++ closingBracket signs) dialect suspends).outlines =
      if signs = capped count then
        (Grammar.Part.mk (some .opening) (openingBracket count) :: part (some .content) body ++
          [Grammar.Part.mk (some .closing) (closingBracket signs)]).map .ok
      else [.ok ⟨some .opening, openingBracket count⟩, .error .unfinishedLongString] := by
  rw [(stands_ofSource _ dialect suspends).outlines_eq, split_bracketed hbody]
  split
  next => exact List.append_nil _
  next => rfl

/-- The bracket closes the literal exactly if it has as many signs as the level counts. -/
theorem closesWith_bracketed_iff :
    (ofSource (openingBracket count ++ body ++ closingBracket signs) dialect suspends).ClosesWith
      (closingBracket signs) ↔ signs = capped count := by
  rw [closesWith_iff_mem_outlines, outlines_bracketed count signs hbody]
  split
  next heq =>
    rw [List.map_append]
    exact iff_of_true (List.mem_append_right _ (List.mem_singleton_self _)) heq
  next hne => simp [hne]

/-- Otherwise the literal is not finished. -/
theorem breaksOff_bracketed_iff :
    (ofSource (openingBracket count ++ body ++ closingBracket signs) dialect suspends).BreaksOff ↔
      signs ≠ capped count := by
  rw [breaksOff_iff_getLast?_outlines, outlines_bracketed count signs hbody]
  split
  next heq =>
    rw [List.map_append, List.map_singleton, List.getLast?_concat]
    exact iff_of_false (fun h ↦ by cases h) (not_not_intro heq)
  next hne => exact iff_of_true rfl hne

end Bracketed

/-- Whatever the numbers of signs, a long literal with one candidate for its closing bracket is
closed by it if its signs are as many as the opening bracket has, counted up to the greatest level,
and is not finished otherwise. -/
theorem closes_iff_capped (count signs : Nat) (body : List Char) (hbody : ']' ∉ body)
    (dialect : Dialect) (suspends : Bool) :
    let splitter := ofSource (openingBracket count ++ body ++ closingBracket signs) dialect suspends
    (splitter.ClosesWith (closingBracket signs) ↔ signs = min count (UInt32.size - 1)) ∧
      (splitter.BreaksOff ↔ signs ≠ min count (UInt32.size - 1)) :=
  ⟨closesWith_bracketed_iff count signs hbody dialect suspends,
    breaksOff_bracketed_iff count signs hbody dialect suspends⟩

/-- A text that could begin another opening bracket, and a closing bracket that is a sign short. -/
theorem closes_iff_capped_of_level_two :
    ']' ∉ ['[', '=', '\n'] ∧
      (ofSource (openingBracket 2 ++ ['[', '=', '\n'] ++ closingBracket 2) .plain true).ClosesWith
        (closingBracket 2) ∧
      (ofSource (openingBracket 2 ++ ['[', '=', '\n'] ++ closingBracket 1) .plain
        true).BreaksOff := by
  have hbody : ']' ∉ ['[', '=', '\n'] := by decide
  exact ⟨hbody, (closes_iff_capped 2 2 _ hbody .plain true).1.mpr (by decide),
    (closes_iff_capped 2 1 _ hbody .plain true).2.mpr (by decide)⟩

/-- With one sign more than the greatest level has, a literal is closed by a bracket that is one
sign short, and is not finished where the closing bracket repeats the signs of its own. -/
theorem level_mistaken_beyond_greatest :
    UInt32.size - 1 ≠ UInt32.size ∧
      (ofSource (openingBracket UInt32.size ++ ['x'] ++ closingBracket (UInt32.size - 1)) .plain
        false).ClosesWith (closingBracket (UInt32.size - 1)) ∧
      (ofSource (openingBracket UInt32.size ++ ['x'] ++ closingBracket UInt32.size) .plain
        false).BreaksOff ∧
      ¬ (ofSource (openingBracket UInt32.size ++ ['x'] ++ closingBracket UInt32.size) .plain
        false).ClosesWith (closingBracket UInt32.size) := by
  have hbody : ']' ∉ ['x'] := by decide
  have hcapped : capped UInt32.size = UInt32.size - 1 := by decide
  have hne : UInt32.size ≠ capped UInt32.size := by decide
  exact ⟨by decide, (closesWith_bracketed_iff _ _ hbody .plain false).mpr hcapped.symm,
    (breaksOff_bracketed_iff _ _ hbody .plain false).mpr hne,
    mt (closesWith_bracketed_iff _ _ hbody .plain false).mp hne⟩

end Splitter

end LuaLiterals
