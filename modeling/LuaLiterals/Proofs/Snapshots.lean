import LuaLiterals.Recognizer

/-!
What a host can rely on that keeps the open literal in bytes. `Snapshot.Reads` is the format, said
by the number of bytes and by what stands at each place among them: which bytes are a snapshot, of
what, and what is wrong with all others. Reading comes to the verdict of the format and to no other
(`decode_eq_iff`). Writing changes the front of a buffer only, and not even that if nothing is open
or there is no room (`writes`). The main statement `codec_is_lossless` puts the two together: what
was written is read back from whatever buffer it stands in, also by a recognizer that has another
literal open.
-/

set_option autoImplicit false
set_option relaxedAutoImplicit false

namespace LuaLiterals

namespace Snapshot

/-! ### The format -/

/-- There are the three bytes of the older form, or at least the six of the present one. -/
def Sized (bytes : List UInt8) : Prop := bytes.length = 3 ∨ 6 ≤ bytes.length

/-- The number that the bytes behind the flag make up, least first. The older form has one of them,
and in the present one the first four count. -/
def levelNumber (bytes : List UInt8) : Nat :=
  ((bytes.drop 2).take 4).foldr (fun byte higher ↦ byte.toNat + 256 * higher) 0

/-- The verdict on bytes. The length comes first, then the flag, and the first byte last. -/
inductive Reads (bytes : List UInt8) : Except Defect (Option Literal) → Prop
  | empty (hempty : bytes = []) : Reads bytes (.ok none)
  | badLength (hempty : bytes ≠ []) (hsized : ¬ Sized bytes) :
    Reads bytes (.error (.badLength 6 bytes.length))
  | long (hsized : Sized bytes) (hflag : bytes[1]? = some 1) :
    Reads bytes (.ok (some (.long (.ofNat (levelNumber bytes)))))
  | badFlag {flag : UInt8} (hsized : Sized bytes) (hflag : bytes[1]? = some flag)
    (hgreat : 1 < flag) : Reads bytes (.error (.badFlag flag))
  | nothing (hsized : Sized bytes) (hflag : bytes[1]? = some 0)
    (hdelimiter : bytes[0]? = some 0) : Reads bytes (.ok none)
  | short {quote : Quote} (hsized : Sized bytes) (hflag : bytes[1]? = some 0)
    (hdelimiter : bytes[0]? = some quote.byte) : Reads bytes (.ok (some (.short quote)))
  | badDelimiter {delimiter : UInt8} (hsized : Sized bytes) (hflag : bytes[1]? = some 0)
    (hdelimiter : bytes[0]? = some delimiter) (hzero : delimiter ≠ 0)
    (hquote : ∀ quote : Quote, delimiter ≠ quote.byte) :
    Reads bytes (.error (.badDelimiter delimiter))

/-- Bytes that are a snapshot: none at all, or enough of them with a flag that says long, or with
one that says short behind a quote or a zero. -/
def Accepted (bytes : List UInt8) : Prop :=
  bytes = [] ∨ Sized bytes ∧
    (bytes[1]? = some 1 ∨ bytes[1]? = some 0 ∧
      (bytes[0]? = some 0 ∨ ∃ quote : Quote, bytes[0]? = some quote.byte))

/-- What writing into a buffer comes to. -/
structure Writes (opened : Option Literal) (buffer : List UInt8) : Prop where
  untouched : opened = none ∨ buffer.length < 6 → write opened buffer = (0, buffer)
  /-- Six bytes are written over the front, and read back whatever follows them. -/
  front : opened ≠ none → 6 ≤ buffer.length → ∃ front, front.length = 6 ∧
    write opened buffer = (6, front ++ buffer.drop 6) ∧
      ∀ tail, decode (front ++ tail) = .ok opened

/-- What reading bytes comes to. -/
structure Judged (bytes : List UInt8) : Prop where
  verdict : ∀ verdict, decode bytes = verdict ↔ Reads bytes verdict
  accepted : (∃ opened, decode bytes = .ok opened) ↔ Accepted bytes
  /-- Bytes behind the sixth have no part in it. -/
  front : decode (bytes.take 6) = decode bytes
  /-- What was read can be written into any buffer with room for it, and read again. -/
  rewritten : ∀ opened buffer, decode bytes = .ok opened → 6 ≤ buffer.length →
    decode ((write opened buffer).2.take (write opened buffer).1) = .ok opened
  /-- A recognizer that reads the bytes forgets what it had open, and keeps its dialect. -/
  restored : ∀ recognizer opened, Reads bytes (.ok opened) →
    Recognizer.restore recognizer bytes = (none, ⟨recognizer.dialect, opened⟩)
  reset : ∀ recognizer defect, Reads bytes (.error defect) →
    Recognizer.restore recognizer bytes = (some defect, ⟨recognizer.dialect, none⟩)

/-! ### Reading -/

variable {bytes : List UInt8} {opened : Option Literal} {delimiter flag : UInt8} {level : Level}

theorem toUInt32_eq_ofBytes (byte : UInt8) : byte.toUInt32 = Level.ofBytes byte 0 0 0 := by
  apply UInt32.toNat_inj.mp
  have hbyte : byte.toNat < 2 ^ 8 := byte.toNat_lt
  simp only [Level.ofBytes, UInt8.toNat_toUInt32, UInt32.toNat_ofNat', UInt8.toNat_zero]
  omega

theorem exists_header (hsized : Sized bytes) :
    ∃ delimiter flag, bytes[0]? = some delimiter ∧ bytes[1]? = some flag := by
  have hlength : 2 ≤ bytes.length := by
    rcases hsized with hsized | hsized <;> omega
  exact ⟨bytes[0], bytes[1], List.getElem?_eq_getElem _, List.getElem?_eq_getElem _⟩

/-- The level that is read is the number its bytes make up, in either form. -/
theorem decode_of_sized (hsized : Sized bytes) (hdelimiter : bytes[0]? = some delimiter)
    (hflag : bytes[1]? = some flag) :
    decode bytes = interpret delimiter flag (.ofNat (levelNumber bytes)) := by
  match bytes, hsized, hdelimiter, hflag with
  | [], hsized, _, _ | [_], hsized, _, _ | [_, _], hsized, _, _ | [_, _, _, _], hsized, _, _
  | [_, _, _, _, _], hsized, _, _ => simp [Sized] at hsized
  | [_, _, byte], _, rfl, rfl =>
    rw [decode, toUInt32_eq_ofBytes]
    rfl
  | _ :: _ :: b₀ :: b₁ :: b₂ :: b₃ :: tail, _, rfl, rfl =>
    have hnumber : levelNumber (delimiter :: flag :: b₀ :: b₁ :: b₂ :: b₃ :: tail) =
        b₀.toNat + 256 * b₁.toNat + 65536 * b₂.toNat + 16777216 * b₃.toNat := by
      simp only [levelNumber, List.drop_succ_cons, List.drop_zero, List.take_succ_cons,
        List.take_zero, List.foldr_cons, List.foldr_nil]
      omega
    rw [decode, hnumber]
    rfl

theorem decode_of_not_sized (hempty : bytes ≠ []) (hsized : ¬ Sized bytes) :
    decode bytes = .error (.badLength 6 bytes.length) := by
  match bytes, hempty, hsized with
  | [], hempty, _ => exact absurd rfl hempty
  | [_], _, _ | [_, _], _, _ | [_, _, _, _], _, _ | [_, _, _, _, _], _, _ => rfl
  | [_, _, _], _, hsized => exact absurd (Or.inl rfl) hsized
  | _ :: _ :: _ :: _ :: _ :: _ :: tail, _, hsized =>
    exact absurd (Or.inr (Nat.le_add_left 6 tail.length)) hsized

theorem interpret_long : interpret delimiter 1 level = .ok (some (.long level)) := rfl

theorem interpret_badFlag (hgreat : 1 < flag) :
    interpret delimiter flag level = .error (.badFlag flag) := by
  have hone : flag ≠ 1 := (UInt8.ne_of_lt hgreat).symm
  have hzero : flag ≠ 0 := by
    rintro rfl
    exact absurd hgreat (by decide)
  rw [interpret, if_neg hone, if_pos hzero]

theorem interpret_short (quote : Quote) :
    interpret quote.byte 0 level = .ok (some (.short quote)) := by
  cases quote <;> rfl

theorem eq_byte_of_ofByte? {byte : UInt8} {quote : Quote} (h : Quote.ofByte? byte = some quote) :
    byte = quote.byte := by
  have hchar := Quote.ofChar?_eq_some_iff.mp h
  rw [Quote.byte, ← hchar]
  exact (UInt8.toUInt8_toUInt32 byte).symm

theorem interpret_badDelimiter (hzero : delimiter ≠ 0)
    (hquote : ∀ quote : Quote, delimiter ≠ quote.byte) :
    interpret delimiter 0 level = .error (.badDelimiter delimiter) := by
  have hnone : Quote.ofByte? delimiter = none := by
    rw [Option.eq_none_iff_forall_ne_some]
    exact fun quote hfound ↦ hquote quote (eq_byte_of_ofByte? hfound)
  rw [interpret, if_neg (by decide), if_neg (by decide), if_neg hzero, hnone]

/-- There is a verdict on all bytes. -/
theorem exists_reads (bytes : List UInt8) : ∃ verdict, Reads bytes verdict := by
  by_cases hempty : bytes = []
  · exact ⟨_, .empty hempty⟩
  by_cases hsized : Sized bytes
  · obtain ⟨delimiter, flag, hdelimiter, hflag⟩ := exists_header hsized
    rcases Nat.lt_trichotomy flag.toNat 1 with hlt | heq | hgreat
    · obtain rfl : flag = 0 := UInt8.toNat_inj.mp (Nat.lt_one_iff.mp hlt)
      by_cases hzero : delimiter = 0
      · subst hzero
        exact ⟨_, .nothing hsized hflag hdelimiter⟩
      by_cases hquote : ∃ quote : Quote, delimiter = quote.byte
      · obtain ⟨quote, rfl⟩ := hquote
        exact ⟨_, .short hsized hflag hdelimiter⟩
      · exact ⟨_, .badDelimiter hsized hflag hdelimiter hzero (not_exists.mp hquote)⟩
    · obtain rfl : flag = 1 := UInt8.toNat_inj.mp heq
      exact ⟨_, .long hsized hflag⟩
    · exact ⟨_, .badFlag hsized hflag (UInt8.lt_iff_toNat_lt.mpr hgreat)⟩
  · exact ⟨_, .badLength hempty hsized⟩

/-- Reading comes to each verdict that the format gives. -/
theorem Reads.decode_eq {verdict : Except Defect (Option Literal)} (h : Reads bytes verdict) :
    decode bytes = verdict := by
  cases h with
  | empty hempty => rw [hempty, decode]
  | badLength hempty hsized => exact decode_of_not_sized hempty hsized
  | long hsized hflag =>
    obtain ⟨delimiter, _, hdelimiter, -⟩ := exists_header hsized
    rw [decode_of_sized hsized hdelimiter hflag, interpret_long]
  | badFlag hsized hflag hgreat =>
    obtain ⟨delimiter, _, hdelimiter, -⟩ := exists_header hsized
    rw [decode_of_sized hsized hdelimiter hflag, interpret_badFlag hgreat]
  | nothing hsized hflag hdelimiter =>
    rw [decode_of_sized hsized hdelimiter hflag]
    rfl
  | short hsized hflag hdelimiter =>
    rw [decode_of_sized hsized hdelimiter hflag, interpret_short]
  | badDelimiter hsized hflag hdelimiter hzero hquote =>
    rw [decode_of_sized hsized hdelimiter hflag, interpret_badDelimiter hzero hquote]

theorem decode_eq_iff {verdict : Except Defect (Option Literal)} :
    decode bytes = verdict ↔ Reads bytes verdict := by
  refine ⟨?_, Reads.decode_eq⟩
  rintro rfl
  obtain ⟨verdict, hreads⟩ := exists_reads bytes
  rwa [hreads.decode_eq]

theorem exists_decode_iff : (∃ opened, decode bytes = .ok opened) ↔ Accepted bytes := by
  constructor
  · rintro ⟨opened, hdecode⟩
    cases decode_eq_iff.mp hdecode with
    | empty hempty => exact Or.inl hempty
    | long hsized hflag => exact Or.inr ⟨hsized, Or.inl hflag⟩
    | nothing hsized hflag hdelimiter =>
      exact Or.inr ⟨hsized, Or.inr ⟨hflag, Or.inl hdelimiter⟩⟩
    | short hsized hflag hdelimiter =>
      exact Or.inr ⟨hsized, Or.inr ⟨hflag, Or.inr ⟨_, hdelimiter⟩⟩⟩
  · rintro (hempty | ⟨hsized, hflag | ⟨hflag, hdelimiter | ⟨quote, hdelimiter⟩⟩⟩)
    · exact ⟨_, (Reads.empty hempty).decode_eq⟩
    · exact ⟨_, (Reads.long hsized hflag).decode_eq⟩
    · exact ⟨_, (Reads.nothing hsized hflag hdelimiter).decode_eq⟩
    · exact ⟨_, (Reads.short hsized hflag hdelimiter).decode_eq⟩

theorem decode_take (bytes : List UInt8) : decode (bytes.take 6) = decode bytes := by
  match bytes with
  | [] | [_] | [_, _] | [_, _, _] | [_, _, _, _] | [_, _, _, _, _] => rfl
  | _ :: _ :: _ :: _ :: _ :: _ :: _ => rfl

/-- The older form is the present one with the higher bytes of the level left out. -/
theorem decode_older (delimiter flag level : UInt8) (tail : List UInt8) :
    decode [delimiter, flag, level] = decode ([delimiter, flag, level, 0, 0, 0] ++ tail) := by
  rw [decode, toUInt32_eq_ofBytes]
  rfl

/-! ### Writing -/

theorem writes (opened : Option Literal) (buffer : List UInt8) : Writes opened buffer := by
  cases opened with
  | none =>
    refine ⟨fun _ ↦ ?_, fun hopened ↦ absurd rfl hopened⟩
    simp [write, encode]
  | some literal =>
    have hlength : (encode (some literal)).length = 6 := length_encode_some literal
    refine ⟨fun h ↦ ?_, fun _ hroom ↦ ⟨encode (some literal), hlength, ?_, ?_⟩⟩
    · obtain hnone | hroom := h
      · cases hnone
      · rw [write, hlength, if_neg (Nat.not_le_of_lt hroom)]
    · rw [write, hlength, if_pos hroom]
    · exact decode_encode_append literal

theorem judged (bytes : List UInt8) : Judged bytes where
  verdict _ := decode_eq_iff
  accepted := exists_decode_iff
  front := decode_take bytes
  rewritten opened buffer _ hroom := by
    rw [take_write opened hroom, decode_encode]
  restored recognizer opened hreads := by
    rw [Recognizer.restore, hreads.decode_eq]
  reset recognizer defect hreads := by
    rw [Recognizer.restore, hreads.decode_eq]
    rfl

/-- An open literal that is written into a buffer is read back from it, and the rest of the buffer
is left alone; bytes that nothing was written into are judged by the format, the older form like the
present one with zeros for what it leaves out. -/
theorem codec_is_lossless (opened : Option Literal) (buffer bytes : List UInt8)
    (delimiter flag level : UInt8) (tail : List UInt8) :
    Writes opened buffer ∧ Judged bytes ∧
      decode [delimiter, flag, level] = decode ([delimiter, flag, level, 0, 0, 0] ++ tail) :=
  ⟨writes opened buffer, judged bytes, decode_older delimiter flag level tail⟩

/-- Where both the flag and the first byte are wrong, the flag is reported. -/
example : decode [120, 2, 0] = .error (.badFlag 2) := rfl

end Snapshot

end LuaLiterals
