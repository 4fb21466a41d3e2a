/-!
The four kinds of lexeme that make up Lua's comments and string literals. A host grammar
numbers them by symbol, from zero, and offers any set of them at a position; in a set of
bits a kind has the bit of its symbol.
-/

set_option autoImplicit false
set_option relaxedAutoImplicit false

namespace LuaLiterals

/-- A whole comment, or one of the three parts of a string literal: its opening delimiter,
what stands inside, and its closing delimiter. -/
inductive Kind
  | comment
  | opening
  | content
  | closing
deriving DecidableEq, Repr

namespace Kind

def all : List Kind := [comment, opening, content, closing]

def symbol : Kind → Nat
  | comment => 0
  | opening => 1
  | content => 2
  | closing => 3

def ofSymbol? (symbol : Nat) : Option Kind := all[symbol]?

def bit (kind : Kind) : Nat := 1 <<< kind.symbol

/-- The name a host grammar knows the kind by, also used in messages. -/
def name : Kind → String
  | comment => "comment"
  | opening => "string_start"
  | content => "string_content"
  | closing => "string_end"

end Kind

end LuaLiterals
