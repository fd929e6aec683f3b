import Mathlib.Data.Set.Insert
import Antarc.Library.Execution
import Antarc.Library.Registry

/-! Enrolment. Names ask for a number, a registrar gives each its own, the name takes its
number up, and the registrar learns that it has. A name reaches each stage from the one before
it, and never leaves it. -/
namespace Antarc.Library

structure Enrolment (Name : Type) where
  asked : Set Name
  registry : Registry Name
  joined : Set (Nat × Name)
  confirmed : Set (Nat × Name)

namespace Enrolment

variable {Name : Type} {enrolment next later : Enrolment Name}

def start : Enrolment Name :=
  ⟨∅, .empty, ∅, ∅⟩

/-- One name goes on by one stage. -/
inductive Step (enrolment : Enrolment Name) : Enrolment Name → Prop where
  | ask (name : Name) (first : name ∉ enrolment.asked) :
      Step enrolment { enrolment with asked := insert name enrolment.asked }
  | enroll (name : Name) (asked : name ∈ enrolment.asked)
      (fresh : ∀ n, enrolment.registry.holder n ≠ some name) :
      Step enrolment { enrolment with registry := enrolment.registry.enroll name fresh }
  | join (n : Nat) (name : Name) (held : enrolment.registry.holder n = some name)
      (first : (n, name) ∉ enrolment.joined) :
      Step enrolment { enrolment with joined := insert (n, name) enrolment.joined }
  | confirm (n : Nat) (name : Name) (joined : (n, name) ∈ enrolment.joined)
      (first : (n, name) ∉ enrolment.confirmed) :
      Step enrolment { enrolment with confirmed := insert (n, name) enrolment.confirmed }

def machine : Machine (Enrolment Name) where
  init enrolment := enrolment = start
  step := Step

structure InOrder (enrolment : Enrolment Name) : Prop where
  confirmed : ∀ n name, (n, name) ∈ enrolment.confirmed → (n, name) ∈ enrolment.joined
  joined : ∀ n name, (n, name) ∈ enrolment.joined → enrolment.registry.holder n = some name
  held : ∀ n name, enrolment.registry.holder n = some name → name ∈ enrolment.asked

theorem inOrder_start : InOrder (start : Enrolment Name) :=
  ⟨fun _ _ h => h, fun _ _ h => absurd h (Set.notMem_empty _), fun _ _ h => by contradiction⟩

theorem InOrder.step (order : InOrder enrolment) (h : Step enrolment next) : InOrder next := by
  cases h with
  | ask name first =>
    exact { order with held := fun n other hn => .inr (order.held n other hn) }
  | enroll name asked fresh =>
    refine ⟨order.confirmed, fun n other hn => ?_, fun n other hn => ?_⟩
    · exact enrolment.registry.extends_enroll name fresh n other (order.joined n other hn)
    · change (if n = _ then some name else _) = _ at hn
      split at hn
      · cases hn
        exact asked
      · exact order.held n other hn
  | join n name held first =>
    refine ⟨fun m other hm => .inr (order.confirmed m other hm), ?_, order.held⟩
    rintro m other (hm | hm)
    · cases hm
      exact held
    · exact order.joined m other hm
  | confirm n name joined first =>
    refine ⟨?_, order.joined, order.held⟩
    rintro m other (hm | hm)
    · cases hm
      exact joined
    · exact order.confirmed m other hm

theorem inOrder_of_reachable (h : machine.Reachable enrolment) : InOrder enrolment := by
  refine h.invariant InOrder ?_ fun _ _ _ => InOrder.step
  rintro _ rfl
  exact inOrder_start

structure Onward (enrolment later : Enrolment Name) : Prop where
  asked : enrolment.asked ⊆ later.asked
  registry : enrolment.registry.Extends later.registry
  joined : enrolment.joined ⊆ later.joined
  confirmed : enrolment.confirmed ⊆ later.confirmed

theorem Onward.refl (enrolment : Enrolment Name) : Onward enrolment enrolment :=
  ⟨subset_rfl, .refl _, subset_rfl, subset_rfl⟩

theorem Onward.trans (first : Onward enrolment next) (second : Onward next later) :
    Onward enrolment later where
  asked := first.asked.trans second.asked
  registry n name h := second.registry n name (first.registry n name h)
  joined := first.joined.trans second.joined
  confirmed := first.confirmed.trans second.confirmed

theorem Step.onward (h : Step enrolment next) : Onward enrolment next := by
  cases h with
  | ask name first => exact { Onward.refl enrolment with asked := Set.subset_insert _ _ }
  | enroll name asked fresh =>
    exact { Onward.refl enrolment with registry := enrolment.registry.extends_enroll name fresh }
  | join n name held first => exact { Onward.refl enrolment with joined := Set.subset_insert _ _ }
  | confirm n name joined first =>
    exact { Onward.refl enrolment with confirmed := Set.subset_insert _ _ }

theorem onward_of_steps (h : machine.Steps enrolment later) : Onward enrolment later := by
  induction h with
  | refl => exact .refl enrolment
  | tail _ hstep ih => exact ih.trans (Step.onward hstep)

end Enrolment

end Antarc.Library
