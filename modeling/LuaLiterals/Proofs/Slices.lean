import LuaLiterals.Proofs.Layout

/-!
Runs on parts of a source. A source can be cut wherever no literal is open: a run that starts afresh
behind the cut hands out what the whole run hands out there, and a run on what lies between two such
cuts hands out the lexemes between them, up to the places, which are counted from the cut
(`items_of_cut`). Which parts a piece of the source falls into is settled by
`Grammar.split_of_openFree`. The places follow the text covered, so here it remains to count them
from another start (`Position.endOf_relativeTo`, `lexemesBehind_relativeTo`).
-/

set_option autoImplicit false
set_option relaxedAutoImplicit false

namespace LuaLiterals

open Grammar

/-! ### Places counted from a cut -/

namespace Position

/-- A line counted from a cut, whose own line is the first. -/
def lineFrom (cut : Position) (line : Nat) : Nat := line - (cut.line - 1)

/-- A column counted from a cut. On the lines behind that of the cut it stays as it is. -/
def columnFrom (cut : Position) (line column : Nat) : Nat :=
  if line = cut.line then column - (cut.column - 1) else column

/-- A place as it is counted from a cut in front of it. -/
def relativeTo (place cut : Position) : Position where
  byte := place.byte - cut.byte
  char := place.char - cut.char
  line := cut.lineFrom place.line
  column := cut.columnFrom place.line place.column

variable (front text : List Char)

theorem lineFrom_endOf :
    (endOf front).lineFrom (endOf (front ++ text)).line = (endOf text).line := by
  simp only [lineFrom, endOf, List.count_append]
  omega

theorem columnFrom_endOf :
    (endOf front).columnFrom (endOf (front ++ text)).line (endOf (front ++ text)).column =
      (endOf text).column := by
  simp only [columnFrom, endOf, List.count_append, List.reverse_append]
  by_cases hfeed : '\n' ∈ text
  · -- the last line feed of the whole text stands behind the cut
    have hcount : 0 < text.count '\n' := List.count_pos_iff.mpr hfeed
    have hshort : (text.reverse.takeWhile (· ≠ '\n')).length ≠ text.reverse.length := by
      intro hlength
      have hwhole := (List.takeWhile_prefix (· ≠ '\n')).eq_of_length hlength
      have hpass := List.all_eq_true.mp List.all_takeWhile '\n'
        (hwhole ▸ List.mem_reverse.mpr hfeed)
      exact of_decide_eq_true hpass rfl
    rw [if_neg (by omega), List.takeWhile_append, if_neg hshort]
  · have hcount : text.count '\n' = 0 := List.count_eq_zero.mpr hfeed
    have hpass : ∀ c ∈ text.reverse, decide (c ≠ '\n') = true := by
      intro c hc
      refine decide_eq_true ?_
      rintro rfl
      exact hfeed (List.mem_reverse.mp hc)
    have hwhole : text.reverse.takeWhile (· ≠ '\n') = text.reverse := by
      rw [← List.append_nil text.reverse, List.takeWhile_append_of_pos hpass, List.takeWhile_nil]
    rw [if_pos (by omega), List.takeWhile_append_of_pos hpass, hwhole, List.length_append]
    omega

/-- Counted from the end of a text in front, a place is that of the text behind. -/
theorem endOf_relativeTo : (endOf (front ++ text)).relativeTo (endOf front) = endOf text := by
  rw [relativeTo, lineFrom_endOf, columnFrom_endOf]
  simp [endOf]

end Position

/-! ### Items counted from a cut -/

def Token.relativeTo (token : Token) (cut : Position) : Token :=
  { token with start := token.start.relativeTo cut, stop := token.stop.relativeTo cut }

def Lexeme.relativeTo (cut : Position) : Lexeme → Lexeme
  | token found => .token (found.relativeTo cut)
  | text chars start => .text chars (start.relativeTo cut)

def Fault.relativeTo (fault : Fault) (cut : Position) : Fault :=
  { fault with
    line := cut.lineFrom fault.line
    column := cut.columnFrom fault.line fault.column }

/-- An item of a run as its places are counted from a cut. -/
def itemRelativeTo (cut : Position) : Except Fault Lexeme → Except Fault Lexeme
  | .ok lexeme => .ok (lexeme.relativeTo cut)
  | .error fault => .error (fault.relativeTo cut)

variable {front covered : List Char} {parts : List Part} {cause : Option Cause}

theorem lexeme_relativeTo (part : Part) (front covered : List Char) :
    (part.lexeme (front ++ covered)).relativeTo (.endOf front) = part.lexeme covered := by
  obtain ⟨kind, chars⟩ := part
  cases kind with
  | none => simp only [Part.lexeme, Lexeme.relativeTo, Position.endOf_relativeTo]
  | some kind =>
    simp only [Part.lexeme, Lexeme.relativeTo, Token.relativeTo, List.append_assoc,
      Position.endOf_relativeTo]

theorem faultBehind_relativeTo (front covered : List Char) (cause : Cause) :
    (faultBehind (front ++ covered) cause).relativeTo (.endOf front) =
      faultBehind covered cause := by
  simp only [faultBehind, Fault.relativeTo, Position.lineFrom_endOf, Position.columnFrom_endOf]

/-- The items behind a text are those of a run that starts at its end. -/
theorem itemsBehind_relativeTo (front covered : List Char) (parts : List Part)
    (cause : Option Cause) :
    (itemsBehind (front ++ covered) parts cause).map (itemRelativeTo (.endOf front)) =
      itemsBehind covered parts cause := by
  induction parts generalizing covered with
  | nil =>
    cases cause with
    | none => rfl
    | some cause =>
      have hfault := faultBehind_relativeTo front (covered ++ charsOf []) cause
      rw [← List.append_assoc] at hfault
      exact congrArg (fun fault ↦ [Except.error fault]) hfault
  | cons part parts ih =>
    rw [itemsBehind_cons, itemsBehind_cons, List.map_cons, List.append_assoc, ih, itemRelativeTo,
      lexeme_relativeTo]

/-- Items can be cut where the parts they come from can. -/
theorem exists_of_itemsBehind_eq_append {lexemes : List Lexeme}
    {back : List (Except Fault Lexeme)}
    (h : itemsBehind covered parts cause = lexemes.map .ok ++ back) :
    ∃ first second, parts = first ++ second ∧ lexemes = lexemesBehind covered first ∧
      back = itemsBehind (covered ++ charsOf first) second cause := by
  induction lexemes generalizing covered parts with
  | nil =>
    refine ⟨[], parts, rfl, rfl, ?_⟩
    rw [show charsOf [] = [] from rfl, List.append_nil]
    exact h.symm
  | cons lexeme lexemes ih =>
    cases parts with
    | nil =>
      cases cause with
      | none => cases h
      | some cause => cases h
    | cons part parts =>
      rw [itemsBehind_cons] at h
      obtain ⟨hlexeme, htail⟩ := List.cons.inj h
      obtain rfl := Except.ok.inj hlexeme
      obtain ⟨first, second, rfl, rfl, rfl⟩ := ih htail
      refine ⟨part :: first, second, rfl, rfl, ?_⟩
      rw [List.append_assoc]
      rfl

/-- The kinds of lexemes. Text outside comments and literals has none. -/
def Lexeme.kind? (lexeme : Lexeme) : Option Kind := lexeme.part.kind

theorem map_kind?_lexemesBehind (covered : List Char) (parts : List Part) :
    (lexemesBehind covered parts).map Lexeme.kind? = kindsOf parts := by
  conv => rhs; rw [kindsOf, ← map_part_lexemesBehind covered parts, List.map_map]
  rfl

namespace Splitter

variable {source : List Char} {dialect : Dialect} {suspends : Bool}
variable {front : List Lexeme} {back : List (Except Fault Lexeme)}

/-- A run can be cut where no literal is open. A run that starts afresh behind the cut hands out
what the whole run hands out there, and a run on the text from this cut to another one hands out
the lexemes in between and comes to no fault. All places are counted from the cut. -/
theorem items_of_cut (again : Bool)
    (hrun : (ofSource source dialect suspends).items = front.map .ok ++ back)
    (hfront : OpenFree (front.map Lexeme.kind?)) :
    let cut := Position.endOf (front.flatMap Lexeme.chars)
    (ofSource (source.drop cut.char) dialect again).items = back.map (itemRelativeTo cut) ∧
      ∀ middle rest, back = middle.map .ok ++ rest →
        OpenFree ((front ++ middle).map Lexeme.kind?) →
          let stop := Position.endOf ((front ++ middle).flatMap Lexeme.chars)
          (ofSource ((source.take stop.char).drop cut.char) dialect again).items =
            middle.map fun lexeme ↦ .ok (lexeme.relativeTo cut) := by
  rw [items_ofSource] at hrun
  obtain ⟨first, second, hparts, rfl, rfl⟩ := exists_of_itemsBehind_eq_append hrun
  rw [map_kind?_lexemesBehind] at hfront
  obtain ⟨-, behind, hsource, hbehind⟩ := split_of_openFree hparts hfront
  intro cut
  have hcut : cut = .endOf (charsOf first) :=
    congrArg Position.endOf (flatMap_chars_lexemesBehind [] first)
  have hchar : cut.char = (charsOf first).length := congrArg Position.char hcut
  have hrelative (parts : List Part) (cause : Option Cause) :
      (itemsBehind ([] ++ charsOf first) parts cause).map (itemRelativeTo cut) =
        itemsBehind [] parts cause := by
    have hitems := itemsBehind_relativeTo (charsOf first) [] parts cause
    rwa [List.append_nil, ← hcut] at hitems
  refine ⟨?_, fun middle rest hmiddle hfree ↦ ?_⟩
  · rw [hchar, hsource, List.drop_left, items_ofSource, hbehind, hrelative, hsource]
  · obtain ⟨inner, beyond, rfl, rfl, -⟩ := exists_of_itemsBehind_eq_append hmiddle
    rw [List.map_append, map_kind?_lexemesBehind, map_kind?_lexemesBehind] at hfree
    obtain ⟨hslice, last, rfl, -⟩ := split_of_openFree (congrArg Prod.fst hbehind) hfree.of_append
    intro stop
    have hstop : stop.char = (charsOf first ++ charsOf inner).length := by
      refine congrArg List.length ?_
      rw [List.flatMap_append, flatMap_chars_lexemesBehind, flatMap_chars_lexemesBehind]
    rw [hchar, hstop, hsource, ← List.append_assoc, List.take_left, List.drop_left, items_ofSource,
      hslice, ← hrelative, itemsBehind, List.map_append, List.map_map]
    exact List.append_nil _

/-- A cut on the second line, with a comment and a literal that breaks off behind it. -/
theorem items_of_cut_behind_literal :
    let source := ['[', '[', '\n', ']', ']', '-', '-', 'é', '\n', '"']
    let literal : List Lexeme :=
      [.token ⟨.opening, ⟨0, 0, 1, 1⟩, ⟨2, 2, 1, 3⟩, ['[', '[']⟩,
        .token ⟨.content, ⟨2, 2, 1, 3⟩, ⟨3, 3, 2, 1⟩, ['\n']⟩,
        .token ⟨.closing, ⟨3, 3, 2, 1⟩, ⟨5, 5, 2, 3⟩, [']', ']']⟩]
    let behind : List (Except Fault Lexeme) :=
      [.ok (.token ⟨.comment, ⟨5, 5, 2, 3⟩, ⟨9, 8, 2, 6⟩, ['-', '-', 'é']⟩),
        .ok (.text ['\n'] ⟨9, 8, 2, 6⟩),
        .ok (.token ⟨.opening, ⟨10, 9, 3, 1⟩, ⟨11, 10, 3, 2⟩, ['"']⟩),
        .error ⟨.unfinishedString .content, 3, 2⟩]
    (ofSource source .plain false).items = literal.map .ok ++ behind ∧
      OpenFree (literal.map Lexeme.kind?) ∧
      (ofSource ['-', '-', 'é', '\n', '"'] .plain true).items =
        [.ok (.token ⟨.comment, ⟨0, 0, 1, 1⟩, ⟨4, 3, 1, 4⟩, ['-', '-', 'é']⟩),
          .ok (.text ['\n'] ⟨4, 3, 1, 4⟩),
          .ok (.token ⟨.opening, ⟨5, 4, 2, 1⟩, ⟨6, 5, 2, 2⟩, ['"']⟩),
          .error ⟨.unfinishedString .content, 2, 2⟩] ∧
      (ofSource ['-', '-', 'é'] .plain true).items =
        [.ok (.token ⟨.comment, ⟨0, 0, 1, 1⟩, ⟨4, 3, 1, 4⟩, ['-', '-', 'é']⟩)] := by
  intro source literal behind
  have hopener : Grammar.gap source =
      ([], some (.long 0 ['\n', ']', ']', '-', '-', 'é', '\n', '"'])) := rfl
  have hliteral : (Beginning.long 0 ['\n', ']', ']', '-', '-', 'é', '\n', '"']).parts capped
      .plain = ([⟨some .opening, ['[', '[']⟩, ⟨some .content, ['\n']⟩,
        ⟨some .closing, [']', ']']⟩], .ok ['-', '-', 'é', '\n', '"']) := rfl
  have hdashes : Grammar.gap ['-', '-', 'é', '\n', '"'] =
      ([], some (.comment ['é', '\n', '"'])) := rfl
  have hcomment : (Beginning.comment ['é', '\n', '"']).parts capped .plain =
      ([⟨some .comment, ['-', '-', 'é']⟩], .ok ['\n', '"']) := rfl
  have hquote : Grammar.gap ['\n', '"'] = (['\n'], some (.short .double [])) := rfl
  have hbroken : (Beginning.short .double []).parts capped .plain =
      ([⟨some .opening, ['"']⟩], .error (.unfinishedString .content)) := rfl
  have hrun : (ofSource source .plain false).items = literal.map .ok ++ behind := by
    rw [items_ofSource, split_ok hopener hliteral, split_ok hdashes hcomment,
      split_error hquote hbroken]
    rfl
  have hfree : OpenFree (literal.map Lexeme.kind?) := by decide
  obtain ⟨hbehind, hslices⟩ := items_of_cut true hrun hfree
  exact ⟨hrun, hfree, hbehind, hslices [_] _ rfl (by decide)⟩

end Splitter

end LuaLiterals
