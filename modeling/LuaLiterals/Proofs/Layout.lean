import LuaLiterals.Proofs.Boundaries
import LuaLiterals.Proofs.Outlines

/-!
The items of a run, laid out. Every item has its places from the text that the parts in front of it
make up, so a run is told in full by the parts that its source falls into and by the cause that ends
it early: `items_ofSource` says that its items are these parts, each as the lexeme that begins where
the parts before it end, and the cause as a fault at the end of them all.
-/

set_option autoImplicit false
set_option relaxedAutoImplicit false

namespace LuaLiterals

open Grammar

/-- A part as the lexeme that follows the text covered before it. -/
def Grammar.Part.lexeme (part : Part) (covered : List Char) : Lexeme :=
  match part.kind with
  | some kind => .token ⟨kind, .endOf covered, .endOf (covered ++ part.chars), part.chars⟩
  | none => .text part.chars (.endOf covered)

/-- Parts as the lexemes that follow one another behind the text covered. -/
def lexemesBehind (covered : List Char) : List Part → List Lexeme
  | [] => []
  | part :: parts => part.lexeme covered :: lexemesBehind (covered ++ part.chars) parts

/-- The fault that a cause makes at the end of the text covered. -/
def faultBehind (covered : List Char) (cause : Cause) : Fault where
  cause := cause
  line := (Position.endOf covered).line
  column := (Position.endOf covered).column

/-- The items that parts and a cause make behind the text covered. -/
def itemsBehind (covered : List Char) (parts : List Part) (cause : Option Cause) :
    List (Except Fault Lexeme) :=
  (lexemesBehind covered parts).map .ok ++
    cause.toList.map fun cause ↦ .error (faultBehind (covered ++ charsOf parts) cause)

variable {source covered : List Char} {parts : List Part} {cause : Option Cause}

theorem part_lexeme (part : Part) (covered : List Char) : (part.lexeme covered).part = part := by
  obtain ⟨kind, chars⟩ := part
  cases kind <;> rfl

theorem map_part_lexemesBehind (covered : List Char) (parts : List Part) :
    (lexemesBehind covered parts).map Lexeme.part = parts := by
  induction parts generalizing covered with
  | nil => rfl
  | cons part parts ih => rw [lexemesBehind, List.map_cons, part_lexeme, ih]

theorem lexemesBehind_append (covered : List Char) (first second : List Part) :
    lexemesBehind covered (first ++ second) =
      lexemesBehind covered first ++ lexemesBehind (covered ++ charsOf first) second := by
  induction first generalizing covered with
  | nil => exact congrArg (lexemesBehind · second) (List.append_nil covered).symm
  | cons part first ih =>
    rw [List.cons_append, lexemesBehind, ih, List.append_assoc]
    rfl

/-- The text of a lexeme is that of its part. -/
theorem flatMap_chars_lexemesBehind (covered : List Char) (parts : List Part) :
    (lexemesBehind covered parts).flatMap Lexeme.chars = charsOf parts := by
  induction parts generalizing covered with
  | nil => rfl
  | cons part parts ih =>
    have hpart : (part.lexeme covered).chars = part.chars := by
      obtain ⟨kind, chars⟩ := part
      cases kind <;> rfl
    rw [lexemesBehind, List.flatMap_cons, hpart, ih]
    rfl

theorem itemsBehind_cons (covered : List Char) (part : Part) (parts : List Part)
    (cause : Option Cause) :
    itemsBehind covered (part :: parts) cause =
      .ok (part.lexeme covered) :: itemsBehind (covered ++ part.chars) parts cause := by
  have hchars : covered ++ charsOf (part :: parts) = covered ++ part.chars ++ charsOf parts := by
    rw [List.append_assoc]
    rfl
  rw [itemsBehind, hchars]
  rfl

namespace Splitter

/-- A lexeme that follows the text covered is the one that its part makes there. -/
theorem lexeme_eq_of_follows {lexeme : Lexeme} (h : lexeme.Follows source covered) :
    lexeme = lexeme.part.lexeme covered := by
  cases lexeme with
  | token found =>
    obtain ⟨kind, start, stop, text⟩ := found
    have hstart : start = .endOf covered := h.start
    have hstop : stop = .endOf (covered ++ text) := h.stop _ rfl
    rw [hstart, hstop]
    rfl
  | text chars start =>
    have hstart : start = .endOf covered := h.start
    rw [hstart]
    rfl

/-- Items that tile a source are laid out as their outlines tell. -/
theorem Tiles.items_eq {items : List (Except Fault Lexeme)} (h : Tiles source covered items)
    (houtlines : items.map outline = parts.map .ok ++ cause.toList.map .error) :
    items = itemsBehind covered parts cause := by
  induction h generalizing parts with
  | whole =>
    obtain ⟨hparts, hcause⟩ := List.append_eq_nil_iff.mp houtlines.symm
    obtain rfl := List.map_eq_nil_iff.mp hparts
    obtain rfl := Option.toList_eq_nil_iff.mp (List.map_eq_nil_iff.mp hcause)
    rfl
  | @broken covered fault within line column =>
    cases parts with
    | cons part parts => cases houtlines
    | nil =>
      cases cause with
      | none => cases houtlines
      | some cause =>
        obtain ⟨found, faultLine, faultColumn⟩ := fault
        cases houtlines
        have hcovered : covered ++ charsOf [] = covered := List.append_nil covered
        simp only at line column
        rw [line, column, itemsBehind, hcovered]
        rfl
  | @lexeme covered lexeme items follows apart behind ih =>
    cases parts with
    | nil =>
      cases cause with
      | none => cases houtlines
      | some cause => cases houtlines
    | cons part parts =>
      obtain ⟨hpart, htail⟩ := List.cons.inj houtlines
      obtain rfl : lexeme.part = part := Except.ok.inj hpart
      have hchars : lexeme.part.chars = lexeme.chars := by
        cases lexeme <;> rfl
      rw [itemsBehind_cons, ← lexeme_eq_of_follows follows, hchars, ← ih htail]

/-- The items of a run are the parts that the source falls into, each behind the other, and a fault
at their end if a literal is not finished. -/
theorem items_ofSource (source : List Char) (dialect : Dialect) (suspends : Bool) :
    (ofSource source dialect suspends).items =
      itemsBehind [] (split capped dialect source).1 (split capped dialect source).2 :=
  (covers_ofSource source dialect suspends).tiles.items_eq
    (stands_ofSource source dialect suspends).outlines_eq

end Splitter

end LuaLiterals
