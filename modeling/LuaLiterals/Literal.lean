/-!
String literals by the way they are delimited. A short literal stands between two equal
quotes. A long one stands between long brackets: `[`, any number of `=`, `[` opens it, and `]`,
the same number of `=`, `]` closes it. That number is its level; a level is kept in 32 bits, and
an opening delimiter that has more `=` than that counts as the greatest level.
-/

set_option autoImplicit false
set_option relaxedAutoImplicit false

namespace LuaLiterals

inductive Quote
  | single
  | double
deriving DecidableEq, Repr

namespace Quote

def char : Quote → Char
  | single => '\''
  | double => '"'

def ofChar? (c : Char) : Option Quote :=
  if c = single.char then some single
  else if c = double.char then some double
  else none

theorem ofChar?_char (quote : Quote) : ofChar? quote.char = some quote := by
  cases quote <;> rfl

theorem ofChar?_eq_some_iff {c : Char} {quote : Quote} :
    ofChar? c = some quote ↔ c = quote.char := by
  constructor
  · intro h
    unfold ofChar? at h
    split at h
    · cases h; assumption
    · split at h
      · cases h; assumption
      · cases h
  · rintro rfl
    exact ofChar?_char quote

end Quote

abbrev Level := UInt32

/-- The level of a long bracket written with `count` equals signs. -/
def Level.ofCount (count : Nat) : Level := UInt32.ofNat (min count (UInt32.size - 1))

theorem Level.toNat_ofCount (count : Nat) :
    (Level.ofCount count).toNat = min count (UInt32.size - 1) := by
  simp only [Level.ofCount, UInt32.toNat_ofNat']
  exact Nat.mod_eq_of_lt (by simp only [UInt32.size]; omega)

inductive Literal
  | short (quote : Quote)
  | long (level : Level)
deriving DecidableEq, Repr

namespace Literal

/-- The one character that delimits a short literal. -/
def delimiter? : Literal → Option Char
  | short quote => some quote.char
  | long _ => none

def isLong : Literal → Bool
  | short _ => false
  | long _ => true

/-- The level of a long literal; a short one is at the lowest. -/
def level : Literal → Level
  | short _ => 0
  | long level => level

end Literal

end LuaLiterals
