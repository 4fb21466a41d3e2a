/-!
The pieces a JSON text is made of: punctuation, the three words, numbers and strings, with blank
space anywhere between them. A text is read one character at a time, in a mode that says what
kind of piece has been begun. A number is kept as it is spelled. A string is kept as its
characters, in which two escapes that form a surrogate pair stand for one character; a string
with a surrogate that is left alone is well formed, but has no characters.
-/

set_option autoImplicit false
set_option relaxedAutoImplicit false

namespace LuaLiterals

namespace Json

inductive Piece
  | openBrace
  | closeBrace
  | openBracket
  | closeBracket
  | comma
  | colon
  | null
  | bool (value : Bool)
  | number (spelling : List Char)
  | text (chars : Option (List Char))
deriving DecidableEq, Repr

/-- At least one digit, and no zero in front of others. -/
def isWhole : List Char → Bool
  | [] => false
  | ['0'] => true
  | c :: rest => c ≠ '0' && c.isDigit && rest.all Char.isDigit

/-- An exponent behind its letter: at least one digit, possibly behind a sign. -/
def isExponent : List Char → Bool
  | '+' :: digits | '-' :: digits => !digits.isEmpty && digits.all Char.isDigit
  | digits => !digits.isEmpty && digits.all Char.isDigit

/-- What may follow the whole part of a number: a fraction, an exponent, both or nothing. -/
def isNumberTail (tail : List Char) : Bool :=
  let tail? : Option (List Char) :=
    match tail with
    | '.' :: rest =>
      if (rest.takeWhile Char.isDigit).isEmpty then none else some (rest.dropWhile Char.isDigit)
    | rest => some rest
  match tail? with
  | none => false
  | some [] => true
  | some (e :: exponent) => (e = 'e' || e = 'E') && isExponent exponent

def isNumber (spelling : List Char) : Bool :=
  let unsigned := match spelling with
    | '-' :: rest => rest
    | rest => rest
  isWhole (unsigned.takeWhile Char.isDigit) && isNumberTail (unsigned.dropWhile Char.isDigit)

/-- A character that can stand in a number. -/
def isNumberChar (c : Char) : Bool :=
  c.isDigit || c = '-' || c = '+' || c = '.' || c = 'e' || c = 'E'

def isBlank (c : Char) : Bool := c = ' ' || c = '\n' || c = '\t' || c = '\r'

def hexValue? (c : Char) : Option Nat :=
  if c.isDigit then some (c.toNat - '0'.toNat)
  else if 'a' ≤ c && c ≤ 'f' then some (c.toNat - 'a'.toNat + 10)
  else if 'A' ≤ c && c ≤ 'F' then some (c.toNat - 'A'.toNat + 10)
  else none

/-- What a letter behind a backslash stands for. -/
def escaped? (c : Char) : Option Char :=
  match c with
  | '"' => some '"'
  | '\\' => some '\\'
  | '/' => some '/'
  | 'b' => some '\x08'
  | 'f' => some '\x0c'
  | 'n' => some '\n'
  | 'r' => some '\r'
  | 't' => some '\t'
  | _ => none

def isHighSurrogate (unit : Nat) : Bool := 0xD800 ≤ unit && unit < 0xDC00

def isLowSurrogate (unit : Nat) : Bool := 0xDC00 ≤ unit && unit < 0xE000

/-- The characters that code points and pairs of surrogates stand for. -/
def joinUnits : List Nat → Option (List Char)
  | [] => some []
  | [unit] =>
    if isHighSurrogate unit || isLowSurrogate unit then none else some [Char.ofNat unit]
  | high :: low :: units =>
    if isHighSurrogate high then
      if isLowSurrogate low then
        (joinUnits units).map
          (Char.ofNat (0x10000 + (high - 0xD800) * 0x400 + (low - 0xDC00)) :: ·)
      else none
    else if isLowSurrogate high then none
    else (joinUnits (low :: units)).map (Char.ofNat high :: ·)

def word? (letters : List Char) : Option Piece :=
  if letters = "null".toList then some .null
  else if letters = "true".toList then some (.bool true)
  else if letters = "false".toList then some (.bool false)
  else none

def punctuation? (c : Char) : Option Piece :=
  match c with
  | '\x7b' => some .openBrace
  | '\x7d' => some .closeBrace
  | '[' => some .openBracket
  | ']' => some .closeBracket
  | ',' => some .comma
  | ':' => some .colon
  | _ => none

/-- What has been begun. Characters and code points are kept with the latest first. -/
inductive Mode
  | between
  | word (letters : List Char)
  | number (spelling : List Char)
  | text (units : List Nat)
  /-- In a string, behind a backslash. -/
  | escape (units : List Nat)
  /-- In a string, in an escape with `left` more hexadecimal digits to come. -/
  | hex (units : List Nat) (value left : Nat)
deriving DecidableEq, Repr

namespace Mode

/-- The pieces completed where no more characters belong to what was begun. -/
def close : Mode → Option (List Piece)
  | between => some []
  | word letters => (word? letters.reverse).map ([·])
  | number spelling =>
    if isNumber spelling.reverse then some [.number spelling.reverse] else none
  | text _ | escape _ | hex _ _ _ => none

/-- The first character of a piece, or blank space. -/
def first (c : Char) : Option (List Piece × Mode) :=
  if isBlank c then some ([], between)
  else if c = '"' then some ([], text [])
  else if c = '-' || c.isDigit then some ([], number [c])
  else if c.isAlpha then some ([], word [c])
  else (punctuation? c).map fun piece ↦ ([piece], between)

/-- Closes what was begun, in front of a character that does not belong to it. -/
def turn (mode : Mode) (c : Char) : Option (List Piece × Mode) :=
  match mode.close, first c with
  | some done, some (pieces, next) => some (done ++ pieces, next)
  | _, _ => none

/-- Reads one character: the pieces completed by it, and the mode behind it. -/
def step : Mode → Char → Option (List Piece × Mode)
  | between, c => first c
  | word letters, c =>
    if c.isAlpha then some ([], word (c :: letters)) else (word letters).turn c
  | number spelling, c =>
    if isNumberChar c then some ([], number (c :: spelling)) else (number spelling).turn c
  | text units, c =>
    if c = '"' then some ([.text (joinUnits units.reverse)], between)
    else if c = '\\' then some ([], escape units)
    else if c.toNat < 0x20 then none
    else some ([], text (c.toNat :: units))
  | escape units, c =>
    if c = 'u' then some ([], hex units 0 4)
    else (escaped? c).map fun c ↦ ([], text (c.toNat :: units))
  | hex units value left, c =>
    (hexValue? c).map fun digit ↦
      let value := 16 * value + digit
      ([], if left = 1 then text (value :: units) else hex units value (left - 1))

/-- The pieces of a text, from a mode on. -/
def read (mode : Mode) : List Char → Option (List Piece)
  | [] => mode.close
  | c :: rest =>
    match mode.step c with
    | none => none
    | some (pieces, next) => (next.read rest).map (pieces ++ ·)

end Mode

namespace Piece

/-- The pieces of a text. -/
def ofChars? (text : List Char) : Option (List Piece) := Mode.between.read text

/-- Four hexadecimal digits. -/
def hexDigits (unit : Nat) : List Char :=
  [Nat.digitChar (unit / 4096), Nat.digitChar (unit / 256 % 16), Nat.digitChar (unit / 16 % 16),
    Nat.digitChar (unit % 16)]

/-- A character as it is written in a string. -/
def escape (c : Char) : List Char :=
  if c = '"' || c = '\\' then ['\\', c]
  else if c.toNat < 0x20 then '\\' :: 'u' :: hexDigits c.toNat
  else [c]

/-- A string without characters is written as one with a single surrogate. -/
def spelling : Piece → List Char
  | openBrace => ['\x7b']
  | closeBrace => ['\x7d']
  | openBracket => ['[']
  | closeBracket => [']']
  | comma => [',']
  | colon => [':']
  | null => "null".toList
  | bool true => "true".toList
  | bool false => "false".toList
  | number spelling => spelling
  | text (some chars) => '"' :: chars.flatMap escape ++ ['"']
  | text none => '"' :: '\\' :: 'u' :: hexDigits 0xD800 ++ ['"']

end Piece

end Json

end LuaLiterals
