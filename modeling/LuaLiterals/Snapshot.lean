import LuaLiterals.Literal

/-!
The bytes in which a host keeps the open literal between two tokens. Nothing open is no bytes at
all. Otherwise there are six: the quote of a short literal or zero, a flag that is one for a
long literal and zero for a short one, and the level with its least byte first. Hosts may hand
back more bytes than that, of which the first six count, or the three bytes of an older form
whose level is a single byte. The main statement is that reading gives back what was written,
whatever follows it.
-/

set_option autoImplicit false
set_option relaxedAutoImplicit false

namespace LuaLiterals

/-- The bytes of a level, least first. -/
def Level.bytes (level : Level) : List UInt8 :=
  let n := level.toNat
  [UInt8.ofNat n, UInt8.ofNat (n / 256), UInt8.ofNat (n / 65536), UInt8.ofNat (n / 16777216)]

/-- The level whose bytes, least first, are these. -/
def Level.ofBytes (b₀ b₁ b₂ b₃ : UInt8) : Level :=
  UInt32.ofNat (b₀.toNat + 256 * b₁.toNat + 65536 * b₂.toNat + 16777216 * b₃.toNat)

theorem Level.ofBytes_bytes (level : Level) :
    ofBytes (UInt8.ofNat level.toNat) (UInt8.ofNat (level.toNat / 256))
      (UInt8.ofNat (level.toNat / 65536)) (UInt8.ofNat (level.toNat / 16777216)) = level := by
  apply UInt32.toNat_inj.mp
  have hlevel : level.toNat < 2 ^ 32 := level.toNat_lt
  simp only [ofBytes, UInt8.toNat_ofNat', UInt32.toNat_ofNat']
  omega

def Quote.byte (quote : Quote) : UInt8 := quote.char.toUInt8

def Quote.ofByte? (byte : UInt8) : Option Quote := Quote.ofChar? (Char.ofUInt8 byte)

namespace Snapshot

/-- Why bytes are no snapshot. -/
inductive Defect
  /-- There are neither no bytes, nor three, nor `needed` of them. -/
  | badLength (needed found : Nat)
  /-- The flag says short, but the first byte is no quote. -/
  | badDelimiter (byte : UInt8)
  /-- The flag is neither zero nor one. -/
  | badFlag (byte : UInt8)
deriving DecidableEq, Repr

/-- The number of bytes written for an open literal. -/
def size : Nat := 6

def encode : Option Literal → List UInt8
  | none => []
  | some (.short quote) => quote.byte :: 0 :: Level.bytes 0
  | some (.long level) => 0 :: 1 :: level.bytes

/-- The literal that the first byte, the flag and the level stand for. -/
def interpret (delimiter flag : UInt8) (level : Level) : Except Defect (Option Literal) :=
  if flag = 1 then .ok (some (.long level))
  else if flag ≠ 0 then .error (.badFlag flag)
  else if delimiter = 0 then .ok none
  else match Quote.ofByte? delimiter with
    | some quote => .ok (some (.short quote))
    | none => .error (.badDelimiter delimiter)

def decode : List UInt8 → Except Defect (Option Literal)
  | [] => .ok none
  | [delimiter, flag, level] => interpret delimiter flag level.toUInt32
  | delimiter :: flag :: b₀ :: b₁ :: b₂ :: b₃ :: _ =>
    interpret delimiter flag (Level.ofBytes b₀ b₁ b₂ b₃)
  | bytes => .error (.badLength size bytes.length)

/-- Writes the snapshot over the front of a buffer, and says how many bytes it takes there. A
buffer that cannot hold it is left alone. -/
def write (opened : Option Literal) (buffer : List UInt8) : Nat × List UInt8 :=
  let bytes := encode opened
  if bytes.length ≤ buffer.length then (bytes.length, bytes ++ buffer.drop bytes.length)
  else (0, buffer)

/-- Two hexadecimal digits, in lower case. -/
def hexByte (byte : UInt8) : String :=
  String.ofList [Nat.digitChar (byte.toNat / 16), Nat.digitChar (byte.toNat % 16)]

def Defect.message : Defect → String
  | badLength needed found =>
    s!"serialized scanner state is {found} bytes, expected 0, 3 or at least {needed}"
  | badDelimiter byte => s!"invalid string delimiter byte 0x{hexByte byte}"
  | badFlag byte => s!"invalid multiline flag 0x{hexByte byte}"

theorem length_encode_some (literal : Literal) : (encode (some literal)).length = size := by
  cases literal <;> rfl

/-- In a buffer with room for it, what was written is the snapshot. -/
theorem take_write (opened : Option Literal) {buffer : List UInt8} (h : size ≤ buffer.length) :
    (write opened buffer).2.take (write opened buffer).1 = encode opened := by
  have hlength : (encode opened).length ≤ buffer.length := by
    cases opened with
    | none => exact Nat.zero_le _
    | some literal => rwa [length_encode_some]
  simp [write, hlength]

/-- What is read after a snapshot of an open literal, whatever bytes follow it. -/
theorem decode_encode_append (literal : Literal) (tail : List UInt8) :
    decode (encode (some literal) ++ tail) = .ok (some literal) := by
  cases literal with
  | short quote => cases quote <;> rfl
  | long level =>
    exact congrArg (fun l ↦ Except.ok (some (Literal.long l))) (Level.ofBytes_bytes level)

theorem decode_encode (opened : Option Literal) : decode (encode opened) = .ok opened := by
  cases opened with
  | none => rfl
  | some literal => simpa using decode_encode_append literal []

end Snapshot

end LuaLiterals
