import LuaLiterals.Proofs.Outlines

/-!
Splitting a source is lexing it as Lua's manual says. A level that is kept in 32 bits counts no
more equals signs than that, so a closing bracket is told by the manual as long as no run of them
in the source is longer (`Grammar.Countable`); there the parts that a reader finds are those where
a closing bracket has as many equals signs as its opening one (`Grammar.split_capped`). The main
statement `outline_run_eq_split` says that the outline of a run is then the sequence of these
parts, with the cause that ends it early. It is the same whatever counts as space, since space
either belongs to the text in front of a token or stands inside one.
-/

set_option autoImplicit false
set_option relaxedAutoImplicit false

namespace LuaLiterals

namespace Grammar

variable {mate : Nat → Nat} {dialect : Dialect} {text before rest : List Char}
variable {beginning : Beginning} {parts : List Part}

/-! ### Runs of equals signs -/

/-- No run of equals signs in the text is longer than a level can count. -/
def Countable (text : List Char) : Prop :=
  ∀ count, List.replicate count '=' <:+: text → count < UInt32.size

theorem Countable.of_infix (h : Countable text) (hinside : rest <:+: text) : Countable rest :=
  fun count hcount ↦ h count (hcount.trans hinside)

theorem countable_of_length (h : text.length < UInt32.size) : Countable text := by
  intro count hcount
  have hle := hcount.length_le
  rw [List.length_replicate] at hle
  exact Nat.lt_of_le_of_lt hle h

/-- A countable opening bracket is closed by one with as many equals signs. -/
theorem Countable.capped_eq {count : Nat} (h : Countable (openingBracket count ++ text)) :
    capped count = count := by
  have hinside : List.replicate count '=' <:+: openingBracket count ++ text :=
    ⟨['['], '[' :: text, by simp [openingBracket_append]⟩
  have hlt := h count hinside
  exact Nat.min_eq_left (Nat.le_sub_one_of_lt hlt)

theorem Countable.commentBody_eq (h : Countable text) :
    commentBody capped dialect text = commentBody id dialect text := by
  unfold commentBody
  rcases hbracket : bracket? (text.dropWhile dialect.isCommentBlank) with _ | ⟨count, inside⟩
  · rfl
  · have hdrop := bracket?_eq_some_iff.mp hbracket
    have hbehind : Countable (openingBracket count ++ inside) :=
      h.of_infix (hdrop ▸ (List.dropWhile_suffix _).isInfix)
    simp only [hbehind.capped_eq, id_eq]

/-- The parts of a token with countable brackets, whatever counts as space. -/
theorem parts_capped {unicode spaced : Bool}
    (h : Countable (beginning.opener ++ beginning.rest)) :
    beginning.parts capped ⟨unicode, spaced⟩ = beginning.parts id ⟨false, spaced⟩ := by
  rcases beginning with text | ⟨quote, text⟩ | ⟨count, text⟩
  · have htext : Countable text := h.of_infix (List.suffix_append _ _).isInfix
    simp only [Beginning.parts, htext.commentBody_eq]
    rfl
  · rfl
  · simp only [Beginning.parts, longLiteral, h.capped_eq, id_eq]

/-- On a text with countable brackets nothing depends on how levels are kept. -/
theorem split_capped {unicode spaced : Bool} (h : Countable text) :
    split capped ⟨unicode, spaced⟩ text = split id ⟨false, spaced⟩ text := by
  fun_induction split capped ⟨unicode, spaced⟩ text with
  | case1 text before hgap =>
    rw [split_none hgap]
  | case2 text before beginning hgap parts rest hparts later ih =>
    have hbeginning := h.of_infix ⟨before, [], by rw [gap_append hgap, List.append_nil]⟩
    have hbehind := (suffix_of_parts hparts).trans (List.suffix_append beginning.opener _)
    have hrest := ih (hbeginning.of_infix hbehind.isInfix)
    rw [parts_capped hbeginning] at hparts
    rw [split_ok hgap hparts, ← hrest]
  | case3 text before beginning hgap parts cause hparts =>
    have hbeginning := h.of_infix ⟨before, [], by rw [gap_append hgap, List.append_nil]⟩
    rw [parts_capped hbeginning] at hparts
    rw [split_error hgap hparts]

end Grammar

namespace Splitter

open Grammar

/-- The outline of a run is what the source falls into, whatever counts as space and whether or
not the splitter suspends. -/
theorem outline_run_eq_split (source : List Char) (unicode spaced suspends : Bool)
    (hsource : Countable source) :
    (ofSource source ⟨unicode, spaced⟩ suspends).run.1.map (fun item ↦ outline item.1) =
      (split id ⟨false, spaced⟩ source).1.map .ok ++
        (split id ⟨false, spaced⟩ source).2.toList.map .error := by
  have houtlines := (stands_ofSource source ⟨unicode, spaced⟩ suspends).outlines_eq
  rw [split_capped hsource, outlines, items, List.map_map] at houtlines
  exact houtlines

/-- A comment that only the third bracket closes, and a literal that breaks off with the source. -/
theorem outline_run_of_near_miss :
    Countable ['f', '-', '-', '[', '=', '[', ']', ']', ']', '=', ']', '"', 'a'] ∧
      (ofSource ['f', '-', '-', '[', '=', '[', ']', ']', ']', '=', ']', '"', 'a'] ⟨true, false⟩
          true).run.1.map (fun item ↦ outline item.1) =
        [.ok ⟨none, ['f']⟩,
          .ok ⟨some .comment, ['-', '-', '[', '=', '[', ']', ']', ']', '=', ']']⟩,
          .ok ⟨some .opening, ['"']⟩, .ok ⟨some .content, ['a']⟩,
          .error (.unfinishedString .closing)] := by
  have hsource : Countable ['f', '-', '-', '[', '=', '[', ']', ']', ']', '=', ']', '"', 'a'] :=
    countable_of_length (by decide)
  have hgap : Grammar.gap ['f', '-', '-', '[', '=', '[', ']', ']', ']', '=', ']', '"', 'a'] =
      (['f'], some (.comment ['[', '=', '[', ']', ']', ']', '=', ']', '"', 'a'])) := rfl
  have hcomment : (Beginning.comment ['[', '=', '[', ']', ']', ']', '=', ']', '"', 'a']).parts id
      ⟨false, false⟩ = ([⟨some .comment, ['-', '-', '[', '=', '[', ']', ']', ']', '=', ']']⟩],
        .ok ['"', 'a']) := rfl
  have hquote : Grammar.gap ['"', 'a'] = ([], some (.short .double ['a'])) := rfl
  have hbroken : (Beginning.short .double ['a']).parts id ⟨false, false⟩ =
      ([⟨some .opening, ['"']⟩, ⟨some .content, ['a']⟩],
        .error (.unfinishedString .closing)) := rfl
  have houtline := outline_run_eq_split _ true false true hsource
  rw [split_ok hgap hcomment, split_error hquote hbroken] at houtline
  exact ⟨hsource, houtline⟩

end Splitter

end LuaLiterals
