/-!
The two points on which readers of Lua differ. Characters that may stand between tokens are
Lua's six space characters, or in a dialect with Unicode space everything with the White_Space
property. In a dialect with spaced long comments, space may stand between the two dashes and
the long bracket of a comment.
-/

set_option autoImplicit false
set_option relaxedAutoImplicit false

namespace LuaLiterals

structure Dialect where
  unicodeSpace : Bool
  spacedLongComment : Bool
deriving DecidableEq, Repr

/-- Space, tab, line feed, vertical tab, form feed and carriage return. -/
def isLuaSpace (c : Char) : Bool := c = ' ' || (9 ≤ c.toNat && c.toNat ≤ 13)

/-- The first and last code points of each run of characters that have the White_Space
property. -/
def whiteSpaceRanges : List (Nat × Nat) :=
  [(0x9, 0xD), (0x20, 0x20), (0x85, 0x85), (0xA0, 0xA0), (0x1680, 0x1680), (0x2000, 0x200A),
    (0x2028, 0x2029), (0x202F, 0x202F), (0x205F, 0x205F), (0x3000, 0x3000)]

def isWhiteSpace (c : Char) : Bool :=
  whiteSpaceRanges.any fun range ↦ range.1 ≤ c.toNat && c.toNat ≤ range.2

namespace Dialect

/-- Lua as its manual describes it. -/
def plain : Dialect := ⟨false, false⟩

def isSpace (dialect : Dialect) (c : Char) : Bool :=
  if dialect.unicodeSpace then isWhiteSpace c else isLuaSpace c

/-- Blank space inside a line that may precede the long bracket of a comment. -/
def isCommentBlank (dialect : Dialect) (c : Char) : Bool :=
  dialect.spacedLongComment && c != '\n' && isLuaSpace c

end Dialect

end LuaLiterals
