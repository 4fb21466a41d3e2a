import LuaLiterals.Dialect
import LuaLiterals.Json.Value
import LuaLiterals.Kind
import LuaLiterals.Literal
import LuaLiterals.Position

/-!
The JSON forms in which settings, states and places are exchanged. A form writes a value and
reads it back. Writing knows one spelling for each value; reading is wider. A record is an
object that has each of its fields once, in any order and among others that mean nothing, or an
array of just its fields in order. A choice is the name of an alternative, or an object whose
only member is named for it and holds what it is applied to; an alternative that is applied to
nothing may have `null` there. A number has to be written as a whole number without a sign and
in range. The main statements say that each form reads what it writes.
-/

set_option autoImplicit false
set_option relaxedAutoImplicit false

namespace LuaLiterals

namespace Json

structure Form (α : Type) where
  write : α → Json
  read : Json → Option α

namespace Form

variable {α : Type}

/-- The text written for a value. -/
def chars (form : Form α) (value : α) : List Char := (form.write value).chars

/-- The value that a text spells in this form. -/
def ofChars? (form : Form α) (text : List Char) : Option α := (Json.ofChars? text).bind form.read

/-- The text written for the value that a text spells. -/
def respell? (form : Form α) (text : List Char) : Option (List Char) :=
  (form.ofChars? text).map form.chars

end Form

/-- A field of a record. It is an error if a field is there twice. -/
def field? (name : String) (members : List (Option (List Char) × Json)) : Option (Option Json) :=
  match members.filter fun member ↦ member.1 = some name.toList with
  | [] => some none
  | [member] => some (some member.2)
  | _ => none

/-- The fields of a record in the order of their names, each if it is there. The key of a member
has to have characters, even if it names no field. -/
def fields? (names : List String) : Json → Option (List (Option Json))
  | .object members =>
    if members.all (·.1.isSome) then names.mapM (field? · members) else none
  | .array items => if items.length = names.length then some (items.map some) else none
  | _ => none

/-- The name of an alternative, and what it is applied to. -/
def alternative? : Json → Option (List Char × Option Json)
  | .text (some name) => some (name, none)
  | .object [(some name, value)] => some (name, some value)
  | _ => none

/-- An alternative is applied to nothing. -/
def isBare : Option Json → Bool
  | none | some .null => true
  | _ => false

def record (fields : List (String × Json)) : Json :=
  .object (fields.map fun (name, value) ↦ (some name.toList, value))

namespace Form

/-- The form of a whole number below a limit. -/
def natural (limit : Nat) : Form Nat where
  write n := .number (Nat.toDigits 10 n)
  read
    | .number spelling =>
      let n := Nat.ofDigitChars 10 spelling 0
      if isWhole spelling && n < limit then some n else none
    | _ => none

def flag : Form Bool where
  write := .bool
  read
    | .bool value => some value
    | _ => none

/-- The form of values that are told by their names alone. -/
def named {α : Type} (values : List α) (name : α → String) : Form α where
  write value := .text (some (name value).toList)
  read json :=
    match alternative? json with
    | some (given, applied) =>
      if isBare applied then values.find? fun value ↦ (name value).toList = given else none
    | none => none

def quote : Form Quote := named [.single, .double] fun
  | .single => "Single"
  | .double => "Double"

def kind : Form Kind := named Kind.all fun
  | .comment => "Comment"
  | .opening => "StringStart"
  | .content => "StringContent"
  | .closing => "StringEnd"

def level : Form Level where
  write level := (natural UInt32.size).write level.toNat
  read json := ((natural UInt32.size).read json).map UInt32.ofNat

def literal : Form Literal where
  write
    | .short quote => record [("Short", Form.quote.write quote)]
    | .long level => record [("Long", record [("level", Form.level.write level)])]
  read json := do
    let (name, applied) ← alternative? json
    if name = "Short".toList then
      return .short (← Form.quote.read (← applied))
    if name = "Long".toList then
      match ← fields? ["level"] (← applied) with
      | [some level] => return .long (← Form.level.read level)
      | _ => none
    none

/-- The open literal as a record of its own, in which `null` or a missing field means that none
is open. -/
def opened : Form (Option Literal) where
  write opened := record [("open", opened.elim .null literal.write)]
  read json := do
    match ← fields? ["open"] json with
    | [none] | [some .null] => return none
    | [some value] => return some (← literal.read value)
    | _ => none

def dialect : Form Dialect where
  write dialect := record
    [("allow_unicode_whitespace", flag.write dialect.unicodeSpace),
      ("long_comment_after_whitespace", flag.write dialect.spacedLongComment)]
  read json := do
    match ← fields? ["allow_unicode_whitespace", "long_comment_after_whitespace"] json with
    | [some unicodeSpace, some spacedLongComment] =>
      return ⟨← flag.read unicodeSpace, ← flag.read spacedLongComment⟩
    | _ => none

/-- The form of a count that is kept in 64 bits. -/
def count : Form Nat := natural UInt64.size

def position : Form Position where
  write p := record
    [("byte", count.write p.byte), ("char", count.write p.char), ("line", count.write p.line),
      ("column", count.write p.column)]
  read json := do
    match ← fields? ["byte", "char", "line", "column"] json with
    | [some byte, some char, some line, some column] =>
      return ⟨← count.read byte, ← count.read char, ← count.read line, ← count.read column⟩
    | _ => none

end Form

end Json

end LuaLiterals
