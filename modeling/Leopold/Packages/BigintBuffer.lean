import Leopold.Lib.Checked
import Leopold.Lib.Hex

/-!
# The bigint codec

Integers and buffers in both byte orders, through hexadecimal text.  A buffer is the list of its
bytes; its length is a safe integer, as every array's is.  How long a text and how wide an integer
can be is up to the engine; what is longer or wider throws.
-/

namespace Leopold.BigintBuffer

open Lib

/-- `Number.MAX_SAFE_INTEGER`. -/
def MAX_SAFE_INTEGER : Nat := 2 ^ 53 - 1

/-- The limits of the engine. -/
structure Engine where
  maxStringLength : Nat
  maxBigIntBits : Nat
  safe : maxStringLength ≤ MAX_SAFE_INTEGER

/-- A `bigint` of the engine. -/
structure BigInt (engine : Engine) where
  value : Int
  bounded : value.natAbs < 2 ^ engine.maxBigIntBits

structure Buffer where
  bytes : List UInt8
  safe : bytes.length ≤ MAX_SAFE_INTEGER
  deriving DecidableEq

/-- A width that was checked. -/
structure Width where
  bytes : Nat
  safe : bytes ≤ MAX_SAFE_INTEGER

inductive CodecError
  | rangeError (message : String)
  | syntaxError
  /-- A buffer that is longer than its text can be. -/
  | stringTooLong
  deriving DecidableEq, Repr

namespace Buffer

variable (buffer : Buffer)

def length : Nat := buffer.bytes.length

def reverse : Buffer where
  bytes := buffer.bytes.reverse
  safe := buffer.bytes.length_reverse ▸ buffer.safe

/-- `Buffer.from(text, "hex")`, for a text of at most two digits for each byte of a width. -/
def ofHex (text : List Char) (width : Width) (h : text.length ≤ width.bytes * 2) : Buffer where
  bytes := Hex.decode text
  safe := by
    have hdecode := Hex.length_decode_le text
    have hsafe := width.safe
    omega

end Buffer

section

variable (engine : Engine)

/-- `toString("hex")`. -/
def Buffer.toHex (buffer : Buffer) : Except CodecError (List Char) :=
  if buffer.length * 2 > engine.maxStringLength then .error .stringTooLong
  else .ok (Hex.spell (Hex.halves buffer.bytes))

/-- A text the engine builds. -/
def built (text : List Char) : Except CodecError (List Char) :=
  if text.length > engine.maxStringLength then .error (.rangeError "Invalid string length")
  else .ok text

/-- `0n`. -/
def BigInt.zero : BigInt engine := ⟨0, Nat.two_pow_pos _⟩

/-- `BigInt` of `0x` and a text. -/
def bigIntOfHex (text : List Char) : Except CodecError (BigInt engine) := do
  let _ ← built engine ('0' :: 'x' :: text)
  match text.mapM Hex.digitValue with
  | some (d :: digits) =>
    if h : Hex.value (d :: digits) < 2 ^ engine.maxBigIntBits then
      .ok ⟨Hex.value (d :: digits), h⟩
    else .error (.rangeError "Maximum BigInt size exceeded")
  | _ => .error .syntaxError

/-- `value.toString(16)`. -/
def toString16 (value : BigInt engine) : Except CodecError (List Char) :=
  match value.value with
  | .ofNat n => built engine (Nat.toDigits 16 n)
  | .negSucc n => built engine ('-' :: Nat.toDigits 16 (n + 1))

/-- The length is taken as a safe integer; the text is not built when it is too long. -/
def padStart (text : List Char) (length : Nat) (c : Char) : Except CodecError (List Char) :=
  let length := min length MAX_SAFE_INTEGER
  if length ≤ text.length then .ok text
  else if length > engine.maxStringLength then .error (.rangeError "Invalid string length")
  else .ok (List.replicate (length - text.length) c ++ text)

def toBigIntBE (input : Buffer) : Except CodecError (BigInt engine) := do
  let hex ← input.toHex engine
  if hex.length = 0 then return .zero engine else bigIntOfHex engine hex

def toBigIntLE (input : Buffer) : Except CodecError (BigInt engine) :=
  toBigIntBE engine input.reverse

def assertWidth (width : Int) : Except CodecError Width :=
  if h : 0 ≤ width ∧ width ≤ MAX_SAFE_INTEGER then .ok ⟨width.toNat, by omega⟩
  else .error (.rangeError "width must be a non-negative safe integer")

variable {engine}

def toBufferBE (value : BigInt engine) (width : Int) : Except CodecError Buffer := do
  let width ← assertWidth width
  let hex ← toString16 engine value
  let padded ← padStart engine hex (width.bytes * 2) '0'
  return .ofHex (padded.take (width.bytes * 2)) width (List.length_take_le _ _)

def toBufferLE (value : BigInt engine) (width : Int) : Except CodecError Buffer := do
  let bytes ← toBufferBE value width
  return bytes.reverse

end

/-! ### Both byte orders -/

variable {engine : Engine} {buffer : Buffer} {value : BigInt engine} {width : Nat}

theorem assertWidth_ok (h : width ≤ MAX_SAFE_INTEGER) :
    assertWidth width = .ok ⟨width, h⟩ := by
  have hwidth : (0 : Int) ≤ width ∧ (width : Int) ≤ MAX_SAFE_INTEGER := by omega
  rw [assertWidth, dif_pos hwidth]
  congr

theorem length_spell_halves : (Hex.spell (Hex.halves buffer.bytes)).length = 2 * buffer.length := by
  rw [Hex.spell, List.length_map, Hex.length_halves]
  rfl

/-- A buffer whose text can be built is read as the integer of its digits, if there is room for it. -/
theorem toBigIntBE_eq (htext : 2 * buffer.length + 2 ≤ engine.maxStringLength) :
    toBigIntBE engine buffer =
      if h : Hex.value (Hex.halves buffer.bytes) < 2 ^ engine.maxBigIntBits then
        .ok ⟨Hex.value (Hex.halves buffer.bytes), h⟩
      else .error (.rangeError "Maximum BigInt size exceeded") := by
  have hlength := @length_spell_halves buffer
  have hdigits := Hex.mapM_digitValue_spell (@Hex.halves_lt buffer.bytes)
  have hhex : buffer.toHex engine = .ok (Hex.spell (Hex.halves buffer.bytes)) :=
    if_neg (by omega)
  rw [toBigIntBE, hhex, bind_ok]
  cases hhalves : Hex.halves buffer.bytes with
  | nil =>
    have hzero : Hex.value [] < 2 ^ engine.maxBigIntBits := Nat.two_pow_pos _
    rw [dif_pos hzero]
    rfl
  | cons d digits =>
    rw [hhalves] at hlength hdigits
    have hpos : (Hex.spell (d :: digits)).length ≠ 0 := Nat.succ_ne_zero _
    have hbuilt : built engine ('0' :: 'x' :: Hex.spell (d :: digits)) =
        .ok ('0' :: 'x' :: Hex.spell (d :: digits)) := by
      refine if_neg ?_
      simp only [List.length_cons] at hlength hpos ⊢
      omega
    rw [if_neg hpos, bigIntOfHex, hbuilt, bind_ok, hdigits]

/-- What is read is the integer of the digits. -/
theorem toBigIntBE_ok (htext : 2 * buffer.length + 2 ≤ engine.maxStringLength)
    (h : toBigIntBE engine buffer = .ok value) :
    (Hex.value (Hex.halves buffer.bytes) : Int) = value.value := by
  rw [toBigIntBE_eq htext] at h
  split_ifs at h with hbits
  obtain rfl := Except.ok.inj h
  rfl

theorem value_halves_lt : Hex.value (Hex.halves buffer.bytes) < 256 ^ buffer.length := by
  have hlt := Hex.value_lt (@Hex.halves_lt buffer.bytes)
  rwa [Hex.length_halves, pow_mul] at hlt

/-- The digits an integer is written with, padded to two for each byte. -/
theorem exists_text (hroom : 2 * width + 2 ≤ engine.maxStringLength) (hvalue : 0 ≤ value.value)
    (hlt : value.value < 256 ^ width) : ∃ (hex padded : List Char) (bytes : List UInt8),
    toString16 engine value = .ok hex ∧ padStart engine hex (width * 2) '0' = .ok padded ∧
      padded.take (width * 2) = Hex.spell (Hex.halves bytes) ∧
      bytes.length = width ∧ (Hex.value (Hex.halves bytes) : Int) = value.value := by
  obtain ⟨n, hn⟩ := Int.eq_ofNat_of_zero_le hvalue
  have hlt' : n < 256 ^ width := by
    rw [hn] at hlt
    exact_mod_cast hlt
  have hmax := engine.safe
  have htarget : min (width * 2) MAX_SAFE_INTEGER = width * 2 := by omega
  obtain ⟨digits, hdigits, hwritten, hread⟩ := Hex.exists_digits n
  have hspell : (Hex.spell digits).length = digits.length := List.length_map _
  have htext : toString16 engine value = built engine (Hex.spell digits) := by
    rw [toString16, hn, ← hwritten]
  rcases Nat.eq_zero_or_pos width with rfl | hpos
  · obtain rfl : n = 0 := by simpa using hlt'
    have hone : (Hex.spell digits).length = 1 := by
      rw [← hwritten]
      rfl
    refine ⟨_, Hex.spell digits, [], htext.trans (if_neg (by omega)), ?_, ?_, rfl, hn.symm⟩
    · rw [padStart, htarget]
      exact if_pos (by omega)
    · rw [Nat.zero_mul]
      rfl
  have hshort : digits.length ≤ width * 2 := by
    have hle := (Nat.length_toDigits_le_iff (by decide : 1 < 16) (by omega : 0 < 2 * width)).2
      (by rwa [pow_mul])
    rw [hwritten, hspell] at hle
    omega
  have hpadded : ∀ d ∈ List.replicate (width * 2 - digits.length) 0 ++ digits, d < 16 := by
    intro d hd
    rcases List.mem_append.1 hd with hd | hd
    · rw [List.eq_of_mem_replicate hd]
      decide
    · exact hdigits d hd
  have hlength : (List.replicate (width * 2 - digits.length) 0 ++ digits).length = 2 * width := by
    rw [List.length_append, List.length_replicate]
    omega
  have hpad : padStart engine (Hex.spell digits) (width * 2) '0' =
      .ok (Hex.spell (List.replicate (width * 2 - digits.length) 0 ++ digits)) := by
    have hzeros : Hex.spell (List.replicate (width * 2 - digits.length) 0 ++ digits) =
        List.replicate (width * 2 - digits.length) '0' ++ Hex.spell digits := by
      rw [Hex.spell, Hex.spell, List.map_append, List.map_replicate]
      rfl
    rw [padStart, htarget, hspell, hzeros]
    split_ifs with hfull hlong
    · rw [Nat.sub_eq_zero_of_le hfull]
      rfl
    · omega
    · rfl
  obtain ⟨bytes, hbytes, hwidth⟩ := Hex.exists_halves hpadded hlength
  refine ⟨_, _, bytes, htext.trans (if_neg (by omega)), hpad, ?_, hwidth, ?_⟩
  · rw [hbytes, List.take_of_length_le]
    rw [Hex.spell, List.length_map, hlength]
    omega
  · rw [hbytes, Hex.value_replicate_zero_append, hread, hn]

/-- A buffer is written from its own integer. -/
theorem toBufferBE_of_value (hroom : 2 * width + 2 ≤ engine.maxStringLength)
    (hlength : buffer.length = width)
    (hvalue : (Hex.value (Hex.halves buffer.bytes) : Int) = value.value) :
    toBufferBE value width = .ok buffer := by
  have hsafe : width ≤ MAX_SAFE_INTEGER := hlength ▸ buffer.safe
  have hlt : value.value < 256 ^ width := by
    rw [← hvalue, ← hlength]
    exact_mod_cast value_halves_lt
  obtain ⟨hex, padded, bytes, htext, hpad, htake, hwidth, hread⟩ :=
    exists_text hroom (hvalue ▸ Int.natCast_nonneg _) hlt
  -- Two texts of the same length with one integer are the same.
  have hhalves : Hex.halves bytes = Hex.halves buffer.bytes := by
    refine Hex.eq_of_value_eq ?_ Hex.halves_lt Hex.halves_lt
      (by exact_mod_cast hread.trans hvalue.symm)
    rw [Hex.length_halves, Hex.length_halves, hwidth, ← hlength]
    rfl
  rw [toBufferBE, assertWidth_ok hsafe, bind_ok, htext, bind_ok, hpad, bind_ok]
  change Except.ok _ = Except.ok _
  congr 1
  rw [Buffer.ofHex]
  cases buffer with
  | mk own safe =>
    simp only [Buffer.mk.injEq]
    rw [htake, hhalves, Hex.decode_spell_halves]

/-- An integer that fits is written as the bytes it is read back from. -/
theorem exists_toBufferBE (hroom : 2 * width + 2 ≤ engine.maxStringLength)
    (hvalue : 0 ≤ value.value) (hlt : value.value < 256 ^ width) :
    ∃ buffer, toBufferBE value width = .ok buffer ∧ buffer.length = width ∧
      toBigIntBE engine buffer = .ok value := by
  have hmax := engine.safe
  obtain ⟨_, _, bytes, -, -, -, hwidth, hread⟩ := exists_text hroom hvalue hlt
  refine ⟨⟨bytes, by omega⟩, toBufferBE_of_value hroom hwidth hread, hwidth, ?_⟩
  have hbounded : Hex.value (Hex.halves bytes) < 2 ^ engine.maxBigIntBits := by
    have hvalue := value.bounded
    rwa [← hread, Int.natAbs_natCast] at hvalue
  rw [toBigIntBE_eq (by rwa [Buffer.length, hwidth]), dif_pos hbounded]
  cases value
  congr

theorem reverse_reverse : buffer.reverse.reverse = buffer := by
  cases buffer
  simp [Buffer.reverse]

theorem length_reverse : buffer.reverse.length = buffer.length := List.length_reverse

theorem toBufferLE_of_ok (h : toBufferBE value width = .ok buffer) :
    toBufferLE value width = .ok buffer.reverse := by
  rw [toBufferLE, h]
  rfl

/-- A buffer that is no wider than an integer can be is read. -/
theorem exists_toBigIntBE (hroom : 2 * buffer.length + 2 ≤ engine.maxStringLength)
    (hbits : 8 * buffer.length ≤ engine.maxBigIntBits) :
    ∃ value, toBigIntBE engine buffer = .ok value := by
  have hlt : Hex.value (Hex.halves buffer.bytes) < 2 ^ engine.maxBigIntBits := by
    refine value_halves_lt.trans_le ?_
    rw [show 256 = 2 ^ 8 from rfl, ← pow_mul]
    exact Nat.pow_le_pow_right (by decide) hbits
  exact ⟨_, (toBigIntBE_eq hroom).trans (dif_pos hlt)⟩

variable (engine) in
/-- **The codec is exact in both byte orders.**  For every width whose text can be built and every
integer that fits, both buffers have exactly that many bytes, each is the reverse of the other, and
each is read back as the integer; and every buffer of such a width is written from the integer that
is read from it, in both orders, and one is read if it is no wider than an integer can be. -/
theorem codec_exact :
    (∀ width : Nat, 2 * width + 2 ≤ engine.maxStringLength →
      ∀ value : BigInt engine, 0 ≤ value.value → value.value < 256 ^ width →
        ∃ be le, toBufferBE value width = .ok be ∧ toBufferLE value width = .ok le ∧
          be.length = width ∧ le.length = width ∧ le = be.reverse ∧ be = le.reverse ∧
          toBigIntBE engine be = .ok value ∧ toBigIntLE engine le = .ok value) ∧
    ∀ buffer : Buffer, 2 * buffer.length + 2 ≤ engine.maxStringLength →
      (∀ value, toBigIntBE engine buffer = .ok value →
        toBufferBE value buffer.length = .ok buffer) ∧
      (∀ value, toBigIntLE engine buffer = .ok value →
        toBufferLE value buffer.length = .ok buffer) ∧
      (8 * buffer.length ≤ engine.maxBigIntBits →
        (∃ value, toBigIntBE engine buffer = .ok value) ∧
          ∃ value, toBigIntLE engine buffer = .ok value) := by
  refine ⟨fun width hroom value hvalue hlt => ?_, fun buffer hroom => ⟨?_, ?_, ?_⟩⟩
  · obtain ⟨be, hbe, hlength, hread⟩ := exists_toBufferBE hroom hvalue hlt
    refine ⟨be, be.reverse, hbe, toBufferLE_of_ok hbe, hlength, length_reverse.trans hlength, rfl,
      reverse_reverse.symm, hread, ?_⟩
    rw [toBigIntLE, reverse_reverse, hread]
  · exact fun value hread => toBufferBE_of_value hroom rfl (toBigIntBE_ok hroom hread)
  · intro value hread
    have hbe := toBufferBE_of_value hroom length_reverse
      (toBigIntBE_ok (by rwa [length_reverse]) hread)
    rw [toBufferLE_of_ok hbe, reverse_reverse]
  · intro hbits
    exact ⟨exists_toBigIntBE hroom hbits,
      exists_toBigIntBE (by rwa [length_reverse]) (by rwa [length_reverse])⟩

/-- The limits of the engine on a 64-bit machine. -/
def engine64 : Engine := ⟨2 ^ 29 - 24, 2 ^ 30, by decide⟩

/-- An integer of 64 bits. -/
def BigInt.ofUInt64 (n : UInt64) : BigInt engine64 where
  value := n.toNat
  bounded := n.toNat_lt.trans_le (Nat.pow_le_pow_right (by decide) (by decide))

theorem codec_exact_eight : ∃ be le,
    toBufferBE (.ofUInt64 0x0102030405060708) 8 = .ok be ∧
      toBufferLE (.ofUInt64 0x0102030405060708) 8 = .ok le ∧
      be.length = 8 ∧ le.length = 8 ∧ le = be.reverse ∧ be = le.reverse ∧
      toBigIntBE engine64 be = .ok (.ofUInt64 0x0102030405060708) ∧
      toBigIntLE engine64 le = .ok (.ofUInt64 0x0102030405060708) :=
  (codec_exact engine64).1 8 (by decide) (.ofUInt64 0x0102030405060708) (by decide) (by decide)

/-- Not every width is written: one that is no safe integer is refused, and a text that is too long
is not built. -/
theorem wide_buffers_refused :
    toBufferBE (.ofUInt64 0) (2 ^ 53 : Nat) =
      .error (.rangeError "width must be a non-negative safe integer") ∧
    toBufferBE (.ofUInt64 0) (2 ^ 28 : Nat) = .error (.rangeError "Invalid string length") ∧
    ∀ width : Nat, (BigInt.ofUInt64 0).value < 256 ^ width ∧ 0 ≤ (BigInt.ofUInt64 0).value := by
  refine ⟨rfl, ?_, fun width => ⟨pow_pos (by decide) _, le_rfl⟩⟩
  rfl

end Leopold.BigintBuffer
