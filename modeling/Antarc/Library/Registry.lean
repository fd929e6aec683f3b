import Mathlib.Tactic.Common

/-! Numbers given out in order, each to a name that has none yet. The fields of a
registry are its guarantees, so a registry with a gap, a number given twice or a name
under two numbers cannot be built. -/
namespace Antarc.Library

structure Registry (Name : Type) where
  next : Nat
  holder : Nat → Option Name
  positive : 1 ≤ next
  numbered : ∀ n, (holder n).isSome = true ↔ 1 ≤ n ∧ n < next
  distinct : ∀ n m name, holder n = some name → holder m = some name → n = m

namespace Registry

variable {Name : Type}

def empty : Registry Name where
  next := 1
  holder := fun _ => none
  positive := Nat.le_refl 1
  numbered := fun n => ⟨fun h => by contradiction, fun h => by omega⟩
  distinct := fun _ _ _ h => by contradiction

theorem holder_next (registry : Registry Name) : registry.holder registry.next = none := by
  cases h : registry.holder registry.next with
  | none => rfl
  | some name =>
    have hrange := (registry.numbered registry.next).mp (by rw [h]; rfl)
    omega

def enroll (registry : Registry Name) (name : Name) (fresh : ∀ n, registry.holder n ≠ some name) :
    Registry Name where
  next := registry.next + 1
  holder := fun n => if n = registry.next then some name else registry.holder n
  positive := Nat.le_add_left 1 _
  numbered := by
    intro n
    have hpositive := registry.positive
    split
    · next h => simp only [Option.isSome_some, true_iff]; omega
    · next h =>
      rw [registry.numbered n]
      omega
  distinct := by
    intro n m other hn hm
    split at hn <;> split at hm
    · next hn' hm' => rw [hn', hm']
    · cases hn
      exact absurd hm (fresh m)
    · cases hm
      exact absurd hn (fresh n)
    · exact registry.distinct n m other hn hm

def Extends (registry later : Registry Name) : Prop :=
  ∀ n name, registry.holder n = some name → later.holder n = some name

theorem Extends.refl (registry : Registry Name) : registry.Extends registry :=
  fun _ _ h => h

theorem extends_enroll (registry : Registry Name) (name : Name)
    (fresh : ∀ n, registry.holder n ≠ some name) :
    registry.Extends (registry.enroll name fresh) := by
  intro n other h
  have hne : n ≠ registry.next := by
    intro heq
    rw [heq, registry.holder_next] at h
    contradiction
  exact (if_neg hne).trans h

end Registry

end Antarc.Library
