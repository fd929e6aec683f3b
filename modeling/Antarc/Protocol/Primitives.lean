import Mathlib.Tactic.NormNum
import Antarc.Library.BigEndian
import Antarc.Library.Execution

/-! The machine types under the protocol: checked arithmetic, non-zero integers,
durations and socket addresses. A call that panics stops the run; one that returns
`Err` hands its state back. Builds are taken with overflow checks and debug
assertions on, as the workspace's default profile has them. -/
namespace Antarc

open Library

inductive Panic where
  | overflow
  | index
  | unwrap
  | expect (message : String)
  | debugAssert
  | todo
  deriving DecidableEq, Repr

/-- A call that either returns or panics. -/
abbrev Exec := Except Panic

def debugAssert (condition : Prop) [Decidable condition] : Exec Unit :=
  if condition then .ok () else .error .debugAssert

def unwrap : Option α → Exec α
  | some value => .ok value
  | none => .error .unwrap

def expect (message : String) : Option α → Exec α
  | some value => .ok value
  | none => .error (.expect message)

theorem debugAssert_eq_ok {condition : Prop} [Decidable condition] {result : Unit} :
    debugAssert condition = .ok result ↔ condition := by
  unfold debugAssert
  split <;> simp_all

theorem unwrap_eq_ok {option : Option α} {value : α} :
    unwrap option = .ok value ↔ option = some value := by
  cases option <;> simp [unwrap]

theorem expect_eq_ok {message : String} {option : Option α} {value : α} :
    expect message option = .ok value ↔ option = some value := by
  cases option <;> simp [expect]

/-- `a - b` on `usize`. -/
def checkedSub (a b : Nat) : Exec Nat :=
  if b ≤ a then .ok (a - b) else .error .overflow

/-- `a + b` on `u64`. -/
def addU64 (a b : UInt64) : Exec UInt64 :=
  if a.toNat + b.toNat < UInt64.size then .ok (a + b) else .error .overflow

/-- `a + b` on `u32`. -/
def addU32 (a b : UInt32) : Exec UInt32 :=
  if a.toNat + b.toNat < UInt32.size then .ok (a + b) else .error .overflow

/-- `a + b` on `u16`. -/
def addU16 (a b : UInt16) : Exec UInt16 :=
  if a.toNat + b.toNat < UInt16.size then .ok (a + b) else .error .overflow

/-- `a - b` on `u8`. -/
def subU8 (a b : UInt8) : Exec UInt8 :=
  if b ≤ a then .ok (a - b) else .error .overflow

/-- `&xs[start..stop]`. -/
def slice (xs : List α) (start stop : Nat) : Exec (List α) :=
  if start ≤ stop ∧ stop ≤ xs.length then .ok ((xs.drop start).take (stop - start))
  else .error .index

/-- `Vec::drain`: the entries of a range, and what is left. -/
def drainRange (queue : List α) (start stop : Nat) : Exec (List α × List α) :=
  if start ≤ stop ∧ stop ≤ queue.length then
    .ok ((queue.drop start).take (stop - start), queue.take start ++ queue.drop stop)
  else .error .index

theorem slice_append (before middle after : List α) :
    slice (before ++ middle ++ after) before.length (before.length + middle.length) =
      .ok middle := by
  simp [slice]

structure NonZeroU32 where
  get : UInt32
  ne_zero : get ≠ 0
  deriving DecidableEq

structure NonZeroU16 where
  get : UInt16
  ne_zero : get ≠ 0
  deriving DecidableEq

abbrev NonZeroU32.one : NonZeroU32 := ⟨1, by decide⟩
abbrev NonZeroU32.two : NonZeroU32 := ⟨2, by decide⟩
abbrev NonZeroU16.one : NonZeroU16 := ⟨1, by decide⟩
abbrev NonZeroU16.two : NonZeroU16 := ⟨2, by decide⟩

def NonZeroU32.new (n : UInt32) : Option NonZeroU32 :=
  if h : n ≠ 0 then some ⟨n, h⟩ else none

def NonZeroU16.new (n : UInt16) : Option NonZeroU16 :=
  if h : n ≠ 0 then some ⟨n, h⟩ else none

@[ext] theorem NonZeroU32.ext {a b : NonZeroU32} (h : a.get = b.get) : a = b := by
  cases a
  cases b
  congr

@[ext] theorem NonZeroU16.ext {a b : NonZeroU16} (h : a.get = b.get) : a = b := by
  cases a
  cases b
  congr

@[simp] theorem NonZeroU32.new_get (n : NonZeroU32) : NonZeroU32.new n.get = some n := by
  simp [NonZeroU32.new, n.ne_zero]

@[simp] theorem NonZeroU16.new_get (n : NonZeroU16) : NonZeroU16.new n.get = some n := by
  simp [NonZeroU16.new, n.ne_zero]

theorem NonZeroU16.new_eq_some {n : UInt16} {m : NonZeroU16} :
    NonZeroU16.new n = some m ↔ m.get = n := by
  constructor
  · intro h
    unfold NonZeroU16.new at h
    split at h
    · cases h
      rfl
    · contradiction
  · rintro rfl
    exact NonZeroU16.new_get m

/-- `checked_add`: `None` past `u32::MAX`, and a sum that does not wrap is not zero. -/
def NonZeroU32.checkedAdd (n : NonZeroU32) (other : UInt32) : Option NonZeroU32 :=
  if h : n.get.toNat + other.toNat < UInt32.size then
    some ⟨n.get + other, by
      have hpos : n.get.toNat ≠ 0 := fun h0 => n.ne_zero (UInt32.toNat_inj.mp h0)
      intro hzero
      have hsum := congrArg UInt32.toNat hzero
      rw [UInt32.toNat_add, Nat.mod_eq_of_lt h] at hsum
      have : n.get.toNat + other.toNat = 0 := hsum
      omega⟩
  else none

theorem NonZeroU32.checkedAdd_one {n m : NonZeroU32} (h : n.checkedAdd 1 = some m) :
    m.get.toNat = n.get.toNat + 1 := by
  unfold NonZeroU32.checkedAdd at h
  split at h
  · next hlt =>
    cases h
    rw [UInt32.toNat_add, Nat.mod_eq_of_lt hlt]
    rfl
  · contradiction

theorem NonZeroU32.checkedAdd_one_isSome {n : NonZeroU32} (h : n.get.toNat + 1 < UInt32.size) :
    ∃ m, n.checkedAdd 1 = some m := by
  have hlt : n.get.toNat + (1 : UInt32).toNat < UInt32.size := h
  exact ⟨_, by rw [NonZeroU32.checkedAdd, dif_pos hlt]⟩

/-- `Duration` in nanoseconds: `u64` seconds and a sub-second part. -/
structure Duration where
  nanos : Nat
  inRange : nanos < 2 ^ 64 * 10 ^ 9
  deriving DecidableEq

instance : LT Duration := ⟨fun a b => a.nanos < b.nanos⟩
instance : LE Duration := ⟨fun a b => a.nanos ≤ b.nanos⟩
instance (a b : Duration) : Decidable (a < b) := inferInstanceAs (Decidable (a.nanos < b.nanos))
instance (a b : Duration) : Decidable (a ≤ b) := inferInstanceAs (Decidable (a.nanos ≤ b.nanos))

def Duration.zero : Duration := ⟨0, by norm_num⟩

/-- `Duration::MAX`. -/
def Duration.max : Duration := ⟨2 ^ 64 * 10 ^ 9 - 1, by norm_num⟩

/-- `Duration::from_secs` of a `u64`. -/
def Duration.fromSecs (secs : UInt64) : Duration :=
  ⟨secs.toNat * 10 ^ 9, by
    have := secs.toNat_lt
    omega⟩

/-- `Duration::from_nanos` of a `u64`. -/
def Duration.fromNanos (nanos : UInt64) : Duration :=
  ⟨nanos.toNat, by
    have := nanos.toNat_lt
    omega⟩

/-- `a + b` on durations. -/
def Duration.add (a b : Duration) : Exec Duration :=
  if h : a.nanos + b.nanos < 2 ^ 64 * 10 ^ 9 then .ok ⟨a.nanos + b.nanos, h⟩
  else .error .overflow

theorem Duration.add_eq_error {a b : Duration} {panic : Panic} (h : a.add b = .error panic) :
    panic = .overflow := by
  unfold Duration.add at h
  split at h
  · contradiction
  · exact (Except.error.inj h).symm

@[ext] theorem Duration.ext {a b : Duration} (h : a.nanos = b.nanos) : a = b := by
  cases a
  cases b
  congr

theorem Duration.add_eq_ok {a b sum : Duration} :
    a.add b = .ok sum ↔ sum.nanos = a.nanos + b.nanos := by
  unfold Duration.add
  split
  · rw [Except.ok.injEq]
    constructor
    · rintro rfl
      rfl
    · intro h
      exact Duration.ext h.symm
  · next hover =>
    constructor
    · intro h
      contradiction
    · intro h
      exact absurd (h ▸ sum.inRange) hover

inductive SocketAddr where
  | v4 (ip : BitVec 32) (port : UInt16)
  | v6 (ip : BitVec 128) (port : UInt16) (flowinfo scopeId : UInt32)
  deriving DecidableEq

end Antarc
