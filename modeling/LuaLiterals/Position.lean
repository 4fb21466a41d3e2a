/-!
Places in a source text. A place is the end of the characters in front of it, so it can be
computed from them alone: their length in UTF-8 bytes, their number, the line reached and the
column in that line. Lines and columns count from one, and a column counts characters.
-/

set_option autoImplicit false
set_option relaxedAutoImplicit false

namespace LuaLiterals

structure Position where
  byte : Nat
  char : Nat
  line : Nat
  column : Nat
deriving DecidableEq, Repr

namespace Position

def start : Position := ⟨0, 0, 1, 1⟩

/-- The place behind one more character. Only a line feed begins a new line. -/
def next (p : Position) (c : Char) : Position where
  byte := p.byte + c.utf8Size
  char := p.char + 1
  line := if c = '\n' then p.line + 1 else p.line
  column := if c = '\n' then 1 else p.column + 1

/-- The place behind a piece of text that begins at `p`. -/
def after (p : Position) (text : List Char) : Position := text.foldl next p

@[simp] theorem after_nil (p : Position) : p.after [] = p := rfl

@[simp] theorem after_cons (p : Position) (c : Char) (text : List Char) :
    p.after (c :: text) = (p.next c).after text := rfl

theorem after_append (p : Position) (first second : List Char) :
    p.after (first ++ second) = (p.after first).after second := List.foldl_append

theorem char_after (p : Position) (text : List Char) :
    (p.after text).char = p.char + text.length := by
  induction text generalizing p with
  | nil => rfl
  | cons c text ih => simp only [after_cons, ih, next, List.length_cons]; omega

end Position

end LuaLiterals
