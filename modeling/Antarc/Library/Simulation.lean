import Antarc.Library.Execution

/-! Simulation. One machine answers another when each of the other's starts is met by one of
its own, and each step by any number of steps; what holds of its runs then holds of the
other's. -/
namespace Antarc.Library

variable {State Image Last : Type}

/-- The `image` machine answers what the `machine` does, step by step, in related states. -/
structure Machine.Answers (image : Machine Image) (machine : Machine State)
    (related : State → Image → Prop) : Prop where
  init : ∀ state, machine.init state → ∃ answer, image.init answer ∧ related state answer
  step : ∀ state next answer, machine.Reachable state → image.Reachable answer →
    related state answer → machine.step state next →
      ∃ later, image.Steps answer later ∧ related next later

/-- The `machine` does what the `image` machine allows: each of its steps shows as one step there
or as none. -/
structure Machine.Refines (machine : Machine State) (image : Machine Image)
    (related : State → Image → Prop) : Prop where
  init : ∀ state, machine.init state → ∃ answer, image.init answer ∧ related state answer
  step : ∀ state next answer, machine.Reachable state → related state answer →
    machine.step state next → ∃ later, Relation.ReflGen image.step answer later ∧ related next later

theorem Machine.Refines.answers {machine : Machine State} {image : Machine Image}
    {related : State → Image → Prop} (refines : machine.Refines image related) :
    image.Answers machine related where
  init := refines.init
  step state next answer hreachable _ hrelated hstep := by
    obtain ⟨later, hlater, hnext⟩ := refines.step state next answer hreachable hrelated hstep
    exact ⟨later, hlater.to_reflTransGen, hnext⟩

theorem Machine.Reachable.steps {machine : Machine State} {state later : State}
    (h : machine.Reachable state) (hsteps : machine.Steps state later) :
    machine.Reachable later := by
  obtain ⟨start, hinit, hstart⟩ := h
  exact ⟨start, hinit, hstart.trans hsteps⟩

theorem Machine.Answers.reachable {image : Machine Image} {machine : Machine State}
    {related : State → Image → Prop} (answers : image.Answers machine related) {state : State}
    (h : machine.Reachable state) : ∃ answer, image.Reachable answer ∧ related state answer := by
  refine h.invariant (fun state => ∃ answer, image.Reachable answer ∧ related state answer) ?_ ?_
  · intro state hinit
    obtain ⟨answer, hanswer, hrelated⟩ := answers.init state hinit
    exact ⟨answer, .start hanswer, hrelated⟩
  · rintro state next hreachable ⟨answer, hanswer, hrelated⟩ hstep
    obtain ⟨later, hsteps, hnext⟩ :=
      answers.step state next answer hreachable hanswer hrelated hstep
    exact ⟨later, hanswer.steps hsteps, hnext⟩

/-- What follows on a state of a run shows as a run from any answer to that state. -/
theorem Machine.Refines.steps {machine : Machine State} {image : Machine Image}
    {related : State → Image → Prop} (refines : machine.Refines image related) {state later : State}
    {answer : Image} (h : machine.Reachable state) (hrelated : related state answer)
    (hsteps : machine.Steps state later) :
    ∃ last, image.Steps answer last ∧ related later last := by
  induction hsteps with
  | refl => exact ⟨answer, .refl, hrelated⟩
  | tail hbefore hstep ih =>
    obtain ⟨middle, hmiddle, hmet⟩ := ih
    obtain ⟨last, hlast, hnext⟩ := refines.step _ _ middle (h.steps hbefore) hmet hstep
    exact ⟨last, hmiddle.trans hlast.to_reflTransGen, hnext⟩

theorem Machine.Reachable.view {image : Machine Image} {machine : Machine State}
    (view : State → Image) (hinit : ∀ state, machine.init state → image.init (view state))
    (hstep : ∀ state next, machine.step state next → image.step (view state) (view next))
    {state : State} (h : machine.Reachable state) : image.Reachable (view state) := by
  have answers : image.Answers machine (fun state answer => view state = answer) :=
    { init := fun state h => ⟨_, hinit state h, rfl⟩
      step := by
        rintro state next _ - - rfl h
        exact ⟨_, .single (hstep state next h), rfl⟩ }
  obtain ⟨_, hreachable, rfl⟩ := answers.reachable h
  exact hreachable

end Antarc.Library
