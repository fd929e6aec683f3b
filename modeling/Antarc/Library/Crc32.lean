import Antarc.Library.BigEndian
import Antarc.Library.ShiftRegister

/-! CRC-32 with the reflected polynomial of IEEE 802.3, as checksum libraries compute it:
one bit at a time, from all ones, and complemented at the end. Any four bytes of what is
hashed can be chosen, in one way, so that the whole has a given checksum. -/
namespace Antarc.Library

def crc32Bit (state : UInt32) : UInt32 :=
  if state &&& 1 = 1 then (state >>> 1) ^^^ 0xEDB88320 else state >>> 1

def crc32Bits : Nat → UInt32 → UInt32
  | 0, state => state
  | bits + 1, state => crc32Bits bits (crc32Bit state)

def crc32Byte (state : UInt32) (byte : UInt8) : UInt32 :=
  crc32Bits 8 (state ^^^ byte.toUInt32)

def ieeeCrc32 (bytes : List UInt8) : UInt32 :=
  bytes.foldl crc32Byte 0xFFFFFFFF ^^^ 0xFFFFFFFF

/-- The check value of the algorithm: the checksum of the digits one to nine. -/
example : ieeeCrc32 [0x31, 0x32, 0x33, 0x34, 0x35, 0x36, 0x37, 0x38, 0x39] = 0xCBF43926 := by
  decide +kernel

theorem ieeePolynomial_top : (0xEDB88320 : BitVec 32).msb = true := by decide

def ieeeRegister : ShiftRegister 32 :=
  ⟨0xEDB88320, ieeePolynomial_top⟩

theorem lowBit_iff (state : UInt32) : state &&& 1 = 1 ↔ state.toBitVec.getLsbD 0 = true := by
  have hbit : state.toBitVec.getLsbD 0 = decide (state.toNat % 2 = 1) := Nat.testBit_zero _
  rw [hbit, decide_eq_true_iff, ← UInt32.toNat_inj, UInt32.toNat_and]
  exact Eq.congr_left (Nat.and_one_is_mod _)

theorem crc32Bit_toBitVec (state : UInt32) :
    (crc32Bit state).toBitVec = ieeeRegister.step state.toBitVec := by
  unfold crc32Bit ShiftRegister.step
  by_cases h : state &&& 1 = 1
  · rw [if_pos h, if_pos ((lowBit_iff state).mp h)]
    rfl
  · rw [if_neg h, if_neg (mt (lowBit_iff state).mpr h)]
    rfl

theorem crc32Bits_toBitVec (bits : Nat) (state : UInt32) :
    (crc32Bits bits state).toBitVec = ieeeRegister.step^[bits] state.toBitVec := by
  induction bits generalizing state with
  | zero => rfl
  | succ bits ih => rw [crc32Bits, ih, crc32Bit_toBitVec, Function.iterate_succ_apply]

theorem crc32Bytes_toBitVec (bytes : List UInt8) (state : UInt32) :
    (bytes.foldl crc32Byte state).toBitVec =
      ieeeRegister.feed (bytes.map UInt8.toBitVec) state.toBitVec := by
  induction bytes generalizing state with
  | nil => rfl
  | cons byte bytes ih =>
    rw [List.foldl_cons, ih, crc32Byte, crc32Bits_toBitVec]
    rfl

theorem ieeeCrc32_toBitVec (bytes : List UInt8) :
    (ieeeCrc32 bytes).toBitVec =
      ieeeRegister.feed (bytes.map UInt8.toBitVec) 0xFFFFFFFF ^^^ 0xFFFFFFFF := by
  rw [ieeeCrc32, UInt32.toBitVec_xor, crc32Bytes_toBitVec]
  rfl

theorem valueOf_bytes (word : List UInt8) :
    BitVec.ofNat 32 (ShiftRegister.valueOf (word.map UInt8.toBitVec)) =
      (u32.reversed.decode word).toBitVec := by
  have hvalue : ShiftRegister.valueOf (word.map UInt8.toBitVec) = ofBigEndian word.reverse := by
    rw [ShiftRegister.valueOf, List.foldr_map, ofBigEndian, List.foldl_reverse]
    rfl
  rw [hvalue]
  rfl

/-- The four bytes that give a checksum, between the bytes before and after them. -/
def steeringWord (before after : List UInt8) (checksum : UInt32) : UInt32 :=
  ⟨ieeeRegister.feed (before.map UInt8.toBitVec) 0xFFFFFFFF ^^^
    ieeeRegister.stepBack^[32] (ieeeRegister.feedBack (after.map UInt8.toBitVec)
      (checksum.toBitVec ^^^ 0xFFFFFFFF))⟩

def steeringBytes (before after : List UInt8) (checksum : UInt32) : List UInt8 :=
  u32.reversed.encode (steeringWord before after checksum)

theorem length_steeringBytes (before after : List UInt8) (checksum : UInt32) :
    (steeringBytes before after checksum).length = 4 :=
  u32.reversed.length_encode _

theorem ieeeCrc32_eq_iff {word : List UInt8} (h : word.length = 4) (before after : List UInt8)
    (checksum : UInt32) :
    ieeeCrc32 (before ++ word ++ after) = checksum ↔ word = steeringBytes before after checksum := by
  have hlength : 8 * (word.map UInt8.toBitVec).length = 32 := by rw [List.length_map, h]
  rw [← UInt32.toBitVec_inj, ieeeCrc32_toBitVec, ShiftRegister.eq_xor_iff, List.map_append,
    List.map_append, ieeeRegister.feed_between hlength.le, hlength, valueOf_bytes]
  constructor
  · intro hword
    have hsteering : u32.reversed.decode word = steeringWord before after checksum :=
      UInt32.toBitVec_inj.mp hword
    rw [steeringBytes, ← hsteering, u32.reversed.encode_decode word h]
  · rintro rfl
    rw [steeringBytes, FixedWidth.decode_encode]
    rfl

/-- At the end of what is hashed, these bytes make the checksum of the whole zero. -/
theorem steeringBytes_zero (before : List UInt8) :
    steeringBytes before [] 0 = u32.reversed.encode (ieeeCrc32 before ^^^ 0x6DD90A9D) := by
  have hback : ieeeRegister.stepBack^[32] ((0 : UInt32).toBitVec ^^^ 0xFFFFFFFF) =
      0xFFFFFFFF ^^^ (0x6DD90A9D : UInt32).toBitVec := by
    decide +kernel
  have hword : steeringWord before [] 0 = ieeeCrc32 before ^^^ 0x6DD90A9D := by
    rw [← UInt32.toBitVec_inj, UInt32.toBitVec_xor, ieeeCrc32_toBitVec, BitVec.xor_assoc, ← hback]
    rfl
  rw [steeringBytes, hword]

/-- The bits of a byte string in the order in which the register takes them: each byte with its
least significant bit first. -/
def wireBits (bytes : List UInt8) : List (BitVec 1) :=
  bytes.flatMap fun byte => ShiftRegister.digits 1 8 byte.toNat

theorem wireBits_append (first second : List UInt8) :
    wireBits (first ++ second) = wireBits first ++ wireBits second :=
  List.flatMap_append

theorem ieeeCrc32_wireBits (bytes : List UInt8) :
    (ieeeCrc32 bytes).toBitVec = ieeeRegister.feed (wireBits bytes) 0xFFFFFFFF ^^^ 0xFFFFFFFF := by
  have hsize : 1 * 8 = 8 := rfl
  have hparts := ieeeRegister.feed_parts hsize (by decide) (bytes.map UInt8.toBitVec) 0xFFFFFFFF
  rw [ieeeCrc32_toBitVec, ← hparts, List.flatMap_map]
  rfl

/-- Byte strings that differ in no more than 32 bits in a row, from the first that differs to
the last, have different checksums. -/
theorem ieeeCrc32_burst {bytes other : List UInt8} {before word changed after : List (BitVec 1)}
    (hbytes : wireBits bytes = before ++ word ++ after)
    (hother : wireBits other = before ++ changed ++ after)
    (hlength : word.length = changed.length) (hshort : word.length ≤ 32) :
    ieeeCrc32 bytes = ieeeCrc32 other ↔ word = changed := by
  rw [← UInt32.toBitVec_inj, ieeeCrc32_wireBits, ieeeCrc32_wireBits, BitVec.xor_left_inj, hbytes,
    hother, ieeeRegister.feed_burst hlength (by omega)]

end Antarc.Library
