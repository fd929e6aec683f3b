import Mathlib.Data.List.Induction
import Mathlib.Tactic.Positivity
import Mathlib.Tactic.Ring

/-! Fixed-width big-endian codecs over byte lists. A codec packages both round
trips, so a layout that is assembled from codecs can be read back field by field
and re-encoded without looking at the digits again. -/
namespace Antarc.Library

/-- The `width` low base-256 digits of `value`, most significant first. -/
def bigEndian : Nat → Nat → List UInt8
  | 0, _ => []
  | width + 1, value => bigEndian width (value / 256) ++ [UInt8.ofNat value]

def ofBigEndian (bytes : List UInt8) : Nat :=
  bytes.foldl (fun value byte => value * 256 + byte.toNat) 0

@[simp] theorem length_bigEndian (width value : Nat) : (bigEndian width value).length = width := by
  induction width generalizing value with
  | zero => rfl
  | succ width ih => simp [bigEndian, ih]

@[simp] theorem ofBigEndian_append (bytes : List UInt8) (byte : UInt8) :
    ofBigEndian (bytes ++ [byte]) = ofBigEndian bytes * 256 + byte.toNat := by
  simp [ofBigEndian]

theorem ofBigEndian_bigEndian (width value : Nat) :
    ofBigEndian (bigEndian width value) = value % 256 ^ width := by
  induction width generalizing value with
  | zero => simp [bigEndian, ofBigEndian, Nat.mod_one]
  | succ width ih =>
    have hdigit : (UInt8.ofNat value).toNat = value % 256 := UInt8.toNat_ofNat'
    rw [bigEndian, ofBigEndian_append, ih, hdigit, pow_succ', Nat.mod_mul]
    ring

theorem bigEndian_ofBigEndian (bytes : List UInt8) :
    bigEndian bytes.length (ofBigEndian bytes) = bytes := by
  induction bytes using List.reverseRecOn with
  | nil => rfl
  | append_singleton bytes byte ih =>
    have hlt := byte.toNat_lt_size
    have hdiv : (ofBigEndian bytes * 256 + byte.toNat) / 256 = ofBigEndian bytes := by
      simp only [UInt8.size] at hlt
      omega
    have hbyte : UInt8.ofNat (ofBigEndian bytes * 256 + byte.toNat) = byte := by
      apply UInt8.toNat_inj.mp
      simp only [UInt8.size] at hlt
      rw [UInt8.toNat_ofNat']
      omega
    rw [List.length_append, List.length_singleton, bigEndian, ofBigEndian_append, hdiv, ih, hbyte]

theorem ofBigEndian_lt (bytes : List UInt8) : ofBigEndian bytes < 256 ^ bytes.length := by
  rw [← bigEndian_ofBigEndian bytes, length_bigEndian, ofBigEndian_bigEndian]
  exact Nat.mod_lt _ (by positivity)

/-- A canonical codec of one fixed width. -/
structure FixedWidth (α : Type) where
  width : Nat
  encode : α → List UInt8
  decode : List UInt8 → α
  length_encode : ∀ value, (encode value).length = width
  decode_encode : ∀ value, decode (encode value) = value
  encode_decode : ∀ bytes, bytes.length = width → encode (decode bytes) = bytes

attribute [simp] FixedWidth.length_encode FixedWidth.decode_encode

def FixedWidth.reversed (kind : FixedWidth α) : FixedWidth α where
  width := kind.width
  encode := fun value => (kind.encode value).reverse
  decode := fun bytes => kind.decode bytes.reverse
  length_encode := by simp
  decode_encode := by simp
  encode_decode := by
    intro bytes hlen
    rw [kind.encode_decode _ (by rw [List.length_reverse, hlen]), List.reverse_reverse]

def FixedWidth.ofNat {α : Type} (width : Nat) (toNat : α → Nat) (ofNat : Nat → α)
    (lt : ∀ value, toNat value < 256 ^ width) (ofNat_toNat : ∀ value, ofNat (toNat value) = value)
    (toNat_ofNat : ∀ n, toNat (ofNat n) = n % 256 ^ width) : FixedWidth α where
  width := width
  encode := fun value => bigEndian width (toNat value)
  decode := fun bytes => ofNat (ofBigEndian bytes)
  length_encode := by simp
  decode_encode := by
    intro value
    rw [ofBigEndian_bigEndian, Nat.mod_eq_of_lt (lt value), ofNat_toNat]
  encode_decode := by
    intro bytes hlen
    subst hlen
    rw [toNat_ofNat, Nat.mod_eq_of_lt (ofBigEndian_lt bytes), bigEndian_ofBigEndian]

def u8 : FixedWidth UInt8 :=
  FixedWidth.ofNat 1 UInt8.toNat UInt8.ofNat (fun value => value.toNat_lt_size)
    (fun _ => UInt8.ofNat_toNat) (fun _ => UInt8.toNat_ofNat')

def u16 : FixedWidth UInt16 :=
  FixedWidth.ofNat 2 UInt16.toNat UInt16.ofNat (fun value => value.toNat_lt_size)
    (fun _ => UInt16.ofNat_toNat) (fun _ => UInt16.toNat_ofNat')

def u32 : FixedWidth UInt32 :=
  FixedWidth.ofNat 4 UInt32.toNat UInt32.ofNat (fun value => value.toNat_lt_size)
    (fun _ => UInt32.ofNat_toNat) (fun _ => UInt32.toNat_ofNat')

@[simp] theorem u8_width : u8.width = 1 := rfl
@[simp] theorem u16_width : u16.width = 2 := rfl
@[simp] theorem u32_width : u32.width = 4 := rfl

end Antarc.Library
