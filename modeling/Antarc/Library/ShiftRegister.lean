import Mathlib.Logic.Function.Iterate
import Mathlib.Tactic.Ring

/-! Shift registers with feedback, of any width: the register moves to the right, and
when the bit that falls out is set, a polynomial is added in exclusive or. Reflected
cyclic redundancy checks feed their bytes to such a register. A step loses nothing, so
any bytes as wide as the register steer it from any state to any other, and in one way. -/
namespace Antarc.Library

/-- The polynomial has its top coefficient, so the bit that fell out can be seen after a step. -/
structure ShiftRegister (width : Nat) where
  polynomial : BitVec width
  top : polynomial.msb = true

namespace ShiftRegister

variable {width bits : Nat} (register : ShiftRegister width)

def step (state : BitVec width) : BitVec width :=
  if state.getLsbD 0 then (state >>> 1) ^^^ register.polynomial else state >>> 1

def stepBack (state : BitVec width) : BitVec width :=
  if state.msb then ((state ^^^ register.polynomial) <<< 1) ||| 1 else state <<< 1

theorem getLsbD_step (state : BitVec width) (i : Nat) :
    (register.step state).getLsbD i =
      (state.getLsbD (i + 1) ^^ (state.getLsbD 0 && register.polynomial.getLsbD i)) := by
  unfold step
  cases h : state.getLsbD 0 <;> simp [Nat.add_comm]

theorem getLsbD_top : register.polynomial.getLsbD (width - 1) = true := by
  rw [← BitVec.msb_eq_getLsbD_last]
  exact register.top

theorem width_pos (register : ShiftRegister width) : 0 < width := by
  obtain ⟨polynomial, top⟩ := register
  rcases Nat.eq_zero_or_pos width with rfl | hpos
  · simp [BitVec.of_length_zero] at top
  · exact hpos

theorem msb_step (state : BitVec width) : (register.step state).msb = state.getLsbD 0 := by
  have hpos := register.width_pos
  rw [BitVec.msb_eq_getLsbD_last, getLsbD_step, getLsbD_top, BitVec.getLsbD_of_ge _ _ (by omega)]
  simp

theorem getLsbD_stepBack_zero (state : BitVec width) :
    (register.stepBack state).getLsbD 0 = state.msb := by
  have hpos := register.width_pos
  unfold stepBack
  cases state.msb <;> simp [hpos]

theorem getLsbD_stepBack_succ (state : BitVec width) {i : Nat} (h : i + 1 < width) :
    (register.stepBack state).getLsbD (i + 1) =
      (state.getLsbD i ^^ (state.msb && register.polynomial.getLsbD i)) := by
  have hi : i < width := Nat.lt_of_succ_lt h
  unfold stepBack
  cases state.msb <;> simp [h, BitVec.getLsbD_eq_getElem hi]

theorem stepBack_step : Function.LeftInverse register.stepBack register.step := by
  intro state
  apply BitVec.eq_of_getLsbD_eq
  intro i hi
  cases i with
  | zero => rw [getLsbD_stepBack_zero, msb_step]
  | succ i => simp [getLsbD_stepBack_succ _ _ hi, msb_step, getLsbD_step]

theorem step_stepBack : Function.RightInverse register.stepBack register.step := by
  intro state
  apply BitVec.eq_of_getLsbD_eq
  intro i hi
  rw [getLsbD_step, getLsbD_stepBack_zero]
  by_cases hlast : i + 1 < width
  · rw [getLsbD_stepBack_succ _ _ hlast]
    simp
  · have hi' : i = width - 1 := by omega
    rw [BitVec.getLsbD_of_ge _ _ (by omega), hi', getLsbD_top, BitVec.msb_eq_getLsbD_last]
    simp

theorem step_xor (first second : BitVec width) :
    register.step (first ^^^ second) = register.step first ^^^ register.step second := by
  apply BitVec.eq_of_getLsbD_eq
  intro i hi
  simp only [getLsbD_step, BitVec.getLsbD_xor, Bool.and_xor_distrib_right, Bool.xor_assoc,
    Bool.xor_left_comm]

theorem steps_xor (count : Nat) (first second : BitVec width) :
    register.step^[count] (first ^^^ second) =
      register.step^[count] first ^^^ register.step^[count] second := by
  induction count generalizing first second with
  | zero => rfl
  | succ count ih => rw [Function.iterate_succ_apply, step_xor, ih]; rfl

theorem steps_ofNat (count value : Nat) (h : value * 2 ^ count < 2 ^ width) :
    register.step^[count] (BitVec.ofNat width (value * 2 ^ count)) = BitVec.ofNat width value := by
  induction count with
  | zero => simp
  | succ count ih =>
    have hdouble : value * 2 ^ (count + 1) = 2 * (value * 2 ^ count) := by ring
    have hlow : (BitVec.ofNat width (2 * (value * 2 ^ count))).getLsbD 0 = false := by
      simp [BitVec.getLsbD_ofNat]
    have hstep : register.step (BitVec.ofNat width (2 * (value * 2 ^ count))) =
        BitVec.ofNat width (value * 2 ^ count) := by
      apply BitVec.eq_of_toNat_eq
      rw [step, hlow, if_neg Bool.false_ne_true, BitVec.toNat_ushiftRight, BitVec.toNat_ofNat,
        BitVec.toNat_ofNat, Nat.mod_eq_of_lt (by omega), Nat.mod_eq_of_lt (by omega),
        Nat.shiftRight_eq_div_pow]
      omega
    rw [Function.iterate_succ_apply, hdouble, hstep]
    exact ih (by omega)

/-- Bytes of any size are added to the low end of the register, each before its own steps. -/
def feed (bytes : List (BitVec bits)) (state : BitVec width) : BitVec width :=
  bytes.foldl (fun state byte => register.step^[bits] (state ^^^ byte.setWidth width)) state

def feedBack (bytes : List (BitVec bits)) (state : BitVec width) : BitVec width :=
  bytes.foldr (fun byte state => register.stepBack^[bits] state ^^^ byte.setWidth width) state

@[simp] theorem feed_cons (byte : BitVec bits) (bytes : List (BitVec bits)) (state : BitVec width) :
    register.feed (byte :: bytes) state =
      register.feed bytes (register.step^[bits] (state ^^^ byte.setWidth width)) := rfl

theorem feed_append (before after : List (BitVec bits)) (state : BitVec width) :
    register.feed (before ++ after) state = register.feed after (register.feed before state) :=
  List.foldl_append

theorem steps_eq_iff {count : Nat} {state target : BitVec width} :
    register.step^[count] state = target ↔ state = register.stepBack^[count] target := by
  constructor
  · rintro rfl
    exact (register.stepBack_step.iterate count state).symm
  · rintro rfl
    exact register.step_stepBack.iterate count target

theorem eq_xor_iff {first second sum : BitVec width} :
    first ^^^ second = sum ↔ first = sum ^^^ second := by
  rw [← BitVec.xor_left_inj second, BitVec.xor_assoc, BitVec.xor_self, BitVec.xor_zero]

theorem feed_eq_iff {bytes : List (BitVec bits)} {state target : BitVec width} :
    register.feed bytes state = target ↔ state = register.feedBack bytes target := by
  induction bytes generalizing state with
  | nil => rfl
  | cons byte bytes ih => rw [feed_cons, ih, steps_eq_iff, eq_xor_iff]; rfl

def valueOf (bytes : List (BitVec bits)) : Nat :=
  bytes.foldr (fun byte value => value * 2 ^ bits + byte.toNat) 0

theorem valueOf_lt (bytes : List (BitVec bits)) : valueOf bytes < 2 ^ (bits * bytes.length) := by
  induction bytes with
  | nil => simp [valueOf]
  | cons byte bytes ih =>
    have hbyte := byte.isLt
    have hstep : valueOf (byte :: bytes) = valueOf bytes * 2 ^ bits + byte.toNat := rfl
    calc valueOf (byte :: bytes)
        < (valueOf bytes + 1) * 2 ^ bits := by rw [hstep, Nat.succ_mul]; omega
      _ ≤ 2 ^ (bits * bytes.length) * 2 ^ bits := Nat.mul_le_mul_right _ ih
      _ = 2 ^ (bits * (byte :: bytes).length) := by rw [← pow_add, List.length_cons]; ring

theorem ofNat_digit (value : Nat) (byte : BitVec bits) :
    BitVec.ofNat width (value * 2 ^ bits + byte.toNat) =
      byte.setWidth width ^^^ BitVec.ofNat width (value * 2 ^ bits) := by
  apply BitVec.eq_of_getLsbD_eq
  intro i hi
  have hsum : (value * 2 ^ bits + byte.toNat).testBit i =
      if i < bits then byte.getLsbD i else value.testBit (i - bits) := by
    rw [Nat.mul_comm]
    exact Nat.testBit_two_pow_mul_add value byte.isLt i
  simp only [BitVec.getLsbD_ofNat, BitVec.getLsbD_xor, BitVec.getLsbD_setWidth, hi, decide_true,
    Bool.true_and, hsum, Nat.testBit_mul_two_pow]
  by_cases hlow : i < bits
  · simp [hlow, Nat.not_le.mpr hlow]
  · simp [hlow, Nat.not_lt.mp hlow]

theorem feed_eq_steps {bytes : List (BitVec bits)} (h : bits * bytes.length ≤ width)
    (state : BitVec width) :
    register.feed bytes state =
      register.step^[bits * bytes.length] (state ^^^ BitVec.ofNat width (valueOf bytes)) := by
  induction bytes generalizing state with
  | nil => simp [feed, valueOf]
  | cons byte bytes ih =>
    have hcount : bits * (byte :: bytes).length = bits * bytes.length + bits := by
      rw [List.length_cons]; ring
    have hfits : valueOf bytes * 2 ^ bits < 2 ^ width := by
      calc valueOf bytes * 2 ^ bits
          < 2 ^ (bits * bytes.length) * 2 ^ bits :=
            Nat.mul_lt_mul_of_pos_right (valueOf_lt bytes) (Nat.two_pow_pos bits)
        _ = 2 ^ (bits * (byte :: bytes).length) := by rw [← pow_add, hcount]
        _ ≤ 2 ^ width := Nat.pow_le_pow_right (by decide) h
    have hvalue : BitVec.ofNat width (valueOf (byte :: bytes)) =
        byte.setWidth width ^^^ BitVec.ofNat width (valueOf bytes * 2 ^ bits) :=
      ofNat_digit (valueOf bytes) byte
    rw [feed_cons, ih (by omega), hcount, Function.iterate_add_apply, hvalue, ← BitVec.xor_assoc,
      register.steps_xor bits (state ^^^ byte.setWidth width), register.steps_ofNat bits _ hfits]

/-- Between given bytes there is one number that leads to a given state. -/
theorem feed_between {word : List (BitVec bits)} (h : bits * word.length ≤ width)
    (before after : List (BitVec bits)) {state target : BitVec width} :
    register.feed (before ++ word ++ after) state = target ↔
      BitVec.ofNat width (valueOf word) = register.feed before state ^^^
        register.stepBack^[bits * word.length] (register.feedBack after target) := by
  rw [feed_append, feed_append, feed_eq_iff, register.feed_eq_steps h, steps_eq_iff,
    BitVec.xor_comm, eq_xor_iff, BitVec.xor_comm]

theorem valueOf_inj {word other : List (BitVec bits)} (hlength : word.length = other.length)
    (h : valueOf word = valueOf other) : word = other := by
  induction word generalizing other with
  | nil => exact (List.length_eq_zero_iff.mp hlength.symm).symm
  | cons byte rest ih =>
    cases other with
    | nil => contradiction
    | cons byte' rest' =>
      have hvalue : valueOf rest * 2 ^ bits + byte.toNat =
          valueOf rest' * 2 ^ bits + byte'.toNat := h
      have hlow : byte.toNat = byte'.toNat := by
        have hmod := congrArg (fun value => value % 2 ^ bits) hvalue
        simpa [Nat.mul_comm _ (2 ^ bits), Nat.mul_add_mod, Nat.mod_eq_of_lt] using hmod
      have hhigh : valueOf rest = valueOf rest' := by
        rw [hlow, Nat.add_right_cancel_iff] at hvalue
        exact Nat.eq_of_mul_eq_mul_right (Nat.two_pow_pos bits) hvalue
      rw [BitVec.eq_of_toNat_eq hlow, ih (Nat.succ.inj hlength) hhigh]

/-- A burst that is no longer than the register does not go unnoticed: of the words of one
length between given bytes, no two lead from one state to one state. -/
theorem feed_burst {word other : List (BitVec bits)} (hlength : word.length = other.length)
    (h : bits * word.length ≤ width) (before after : List (BitVec bits)) (state : BitVec width) :
    register.feed (before ++ word ++ after) state = register.feed (before ++ other ++ after) state ↔
      word = other := by
  constructor
  · intro hsame
    have hword := (register.feed_between h before after).mp hsame
    have hother := (register.feed_between (hlength ▸ h) before after).mp
      (Eq.refl (register.feed (before ++ other ++ after) state))
    rw [← hlength, ← hword] at hother
    have hfits : ∀ either : List (BitVec bits), either.length = word.length →
        valueOf either < 2 ^ width := by
      intro either heither
      calc valueOf either
          < 2 ^ (bits * either.length) := valueOf_lt either
        _ ≤ 2 ^ width := Nat.pow_le_pow_right (by decide) (heither ▸ h)
    have hvalue := congrArg BitVec.toNat hother
    rw [BitVec.toNat_ofNat, BitVec.toNat_ofNat, Nat.mod_eq_of_lt (hfits other hlength.symm),
      Nat.mod_eq_of_lt (hfits word rfl)] at hvalue
    exact valueOf_inj hlength hvalue.symm
  · rintro rfl
    rfl

def digits (bits : Nat) : Nat → Nat → List (BitVec bits)
  | 0, _ => []
  | count + 1, value => BitVec.ofNat bits value :: digits bits count (value / 2 ^ bits)

@[simp] theorem length_digits (bits count value : Nat) :
    (digits bits count value).length = count := by
  induction count generalizing value with
  | zero => rfl
  | succ count ih => simp [digits, ih]

theorem valueOf_digits (bits count value : Nat) :
    valueOf (digits bits count value) = value % 2 ^ (bits * count) := by
  induction count generalizing value with
  | zero => simp [digits, valueOf, Nat.mod_one]
  | succ count ih =>
    have hstep : valueOf (digits bits (count + 1) value) =
        valueOf (digits bits count (value / 2 ^ bits)) * 2 ^ bits +
          (BitVec.ofNat bits value).toNat := rfl
    rw [hstep, ih, BitVec.toNat_ofNat, Nat.mul_succ, Nat.add_comm (bits * count), pow_add,
      Nat.mod_mul]
    ring

theorem feed_digits {size count : Nat} (hsize : bits * count = size) (hfits : size ≤ width)
    (byte : BitVec size) (state : BitVec width) :
    register.feed (digits bits count byte.toNat) state =
      register.step^[size] (state ^^^ byte.setWidth width) := by
  have hlength : bits * (digits bits count byte.toNat).length = size := by
    rw [length_digits, hsize]
  have hvalue : BitVec.ofNat width (valueOf (digits bits count byte.toNat)) =
      byte.setWidth width := by
    rw [valueOf_digits, hsize, Nat.mod_eq_of_lt byte.isLt]
    exact BitVec.eq_of_toNat_eq (by simp)
  rw [register.feed_eq_steps (hlength.trans_le hfits), hlength, hvalue]

theorem feed_parts {size count : Nat} (hsize : bits * count = size) (hfits : size ≤ width)
    (bytes : List (BitVec size)) (state : BitVec width) :
    register.feed (bytes.flatMap fun byte => digits bits count byte.toNat) state =
      register.feed bytes state := by
  induction bytes generalizing state with
  | nil => rfl
  | cons byte bytes ih =>
    rw [List.flatMap_cons, feed_append, register.feed_digits hsize hfits, ih, feed_cons]

end ShiftRegister

end Antarc.Library
