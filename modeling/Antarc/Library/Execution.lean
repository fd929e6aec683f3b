import Mathlib.Data.List.Basic
import Mathlib.Logic.Function.Iterate
import Mathlib.Logic.Relation

/-! Computations that may stop, and what holds of every state a machine reaches.
A step of a program is an `Except`: an error ends the run. The rules below turn a
successful run into the facts about its parts, once for binds, once for loops and
once for whole runs. -/
namespace Antarc.Library

section Partial

variable {ε α β σ : Type}

theorem bind_eq_ok {x : Except ε α} {f : α → Except ε β} {b : β} :
    (x >>= f) = .ok b ↔ ∃ a, x = .ok a ∧ f a = .ok b := by
  cases x with
  | error e => simp [bind, Except.bind]
  | ok a => simp [bind, Except.bind]

theorem bind_eq_error {x : Except ε α} {f : α → Except ε β} {e : ε} :
    (x >>= f) = .error e ↔ x = .error e ∨ ∃ a, x = .ok a ∧ f a = .error e := by
  cases x with
  | error e' => simp [bind, Except.bind]
  | ok a => simp [bind, Except.bind]

theorem map_eq_ok {x : Except ε α} {f : α → β} {b : β} :
    (f <$> x) = .ok b ↔ ∃ a, x = .ok a ∧ f a = b := by
  cases x with
  | error e => simp [Functor.map, Except.map]
  | ok a => simp [Functor.map, Except.map]

@[simp] theorem ok_bind (a : α) (f : α → Except ε β) : (Except.ok a >>= f) = f a := rfl

@[simp] theorem error_bind (e : ε) (f : α → Except ε β) :
    ((Except.error e : Except ε α) >>= f) = .error e := rfl

theorem mapM_eq_ok {f : α → Except ε β} {succeeds : α → Prop} {value : α → β}
    (hf : ∀ item result, f item = .ok result ↔ succeeds item ∧ value item = result)
    {items : List α} {results : List β} :
    items.mapM f = .ok results ↔ (∀ item ∈ items, succeeds item) ∧ items.map value = results := by
  induction items generalizing results with
  | nil => simp [pure, Except.pure]
  | cons item rest ih =>
    rw [List.mapM_cons, bind_eq_ok, List.forall_mem_cons, List.map_cons]
    constructor
    · rintro ⟨first, hfirst, h⟩
      obtain ⟨others, hothers, h⟩ := bind_eq_ok.mp h
      cases h
      obtain ⟨hitem, rfl⟩ := (hf _ _).mp hfirst
      obtain ⟨hrest, rfl⟩ := ih.mp hothers
      exact ⟨⟨hitem, hrest⟩, rfl⟩
    · rintro ⟨⟨hitem, hrest⟩, rfl⟩
      exact ⟨_, (hf _ _).mpr ⟨hitem, rfl⟩, bind_eq_ok.mpr ⟨_, ih.mpr ⟨hrest, rfl⟩, rfl⟩⟩

theorem exists_of_mapM_eq_error {f : α → Except ε β} {e : ε} {items : List α}
    (h : items.mapM f = .error e) : ∃ item ∈ items, f item = .error e := by
  induction items with
  | nil => contradiction
  | cons item rest ih =>
    rw [List.mapM_cons, bind_eq_error] at h
    rcases h with hitem | ⟨_, _, h⟩
    · exact ⟨item, List.mem_cons_self, hitem⟩
    · rcases bind_eq_error.mp h with hrest | ⟨_, _, h⟩
      · obtain ⟨failing, hmem, hfails⟩ := ih hrest
        exact ⟨failing, List.mem_cons_of_mem _ hmem, hfails⟩
      · contradiction

theorem foldlM_keeps {ι : Type*} {f : σ → ι → Except ε σ} (inv : σ → Prop)
    (keep : ∀ state item next, inv state → f state item = .ok next → inv next)
    {items : List ι} {start final : σ} (hstart : inv start)
    (hrun : items.foldlM f start = .ok final) : inv final := by
  induction items generalizing start with
  | nil =>
    cases hrun
    exact hstart
  | cons item rest ih =>
    obtain ⟨next, hnext, hrest⟩ := bind_eq_ok.mp hrun
    exact ih (keep start item next hstart hnext) hrest

def iterateM (step : σ → Except ε σ) : Nat → σ → Except ε σ
  | 0, state => pure state
  | count + 1, state => do
      let next ← step state
      iterateM step count next

theorem iterateM_keeps {step : σ → Except ε σ} (inv : σ → Prop)
    (keep : ∀ state next, inv state → step state = .ok next → inv next)
    {count : Nat} {start final : σ} (hstart : inv start)
    (hrun : iterateM step count start = .ok final) : inv final := by
  induction count generalizing start with
  | zero =>
    cases hrun
    exact hstart
  | succ count ih =>
    obtain ⟨next, hnext, hrest⟩ := bind_eq_ok.mp hrun
    exact ih (keep start next hstart hnext) hrest

theorem iterateM_eq_iterate {step : σ → Except ε σ} {next : σ → σ} (inv : σ → Prop)
    (hstep : ∀ state, inv state → step state = .ok (next state) ∧ inv (next state))
    (count : Nat) {start : σ} (hstart : inv start) :
    iterateM step count start = .ok (next^[count] start) := by
  induction count generalizing start with
  | zero => rfl
  | succ count ih =>
    obtain ⟨hnext, hinv⟩ := hstep start hstart
    rw [iterateM, hnext, ok_bind, ih hinv, Function.iterate_succ_apply]

/-- Both ways in which a computation can end meet their condition. -/
def Ensures (returned : α → Prop) (stopped : ε → Prop) : Except ε α → Prop
  | .ok a => returned a
  | .error e => stopped e

/-- Sequencing: what the first part ensures when it returns is what the second starts from. -/
theorem Ensures.bind {middle : α → Prop} {returned : β → Prop} {stopped : ε → Prop}
    {x : Except ε α} {f : α → Except ε β} (hx : Ensures middle stopped x)
    (hf : ∀ a, middle a → Ensures returned stopped (f a)) : Ensures returned stopped (x >>= f) := by
  cases x with
  | error e => exact hx
  | ok a => exact hf a hx

theorem Ensures.map {returned : β → Prop} {stopped : ε → Prop} {x : Except ε α} {f : α → β}
    (hx : Ensures (fun a => returned (f a)) stopped x) : Ensures returned stopped (f <$> x) := by
  cases x with
  | error e => exact hx
  | ok a => exact hx

theorem Ensures.mono {strong weak : α → Prop} {stopped : ε → Prop} {x : Except ε α}
    (hx : Ensures strong stopped x) (himp : ∀ a, strong a → weak a) : Ensures weak stopped x := by
  cases x with
  | error e => exact hx
  | ok a => exact himp a hx

/-- What holds when a computation returns, and what holds when it stops, proved apart. -/
theorem Ensures.also {returned weak : α → Prop} {stopped other : ε → Prop} {x : Except ε α}
    (hreturned : Ensures returned other x) (hstopped : Ensures weak stopped x) :
    Ensures returned stopped x := by
  cases x with
  | error e => exact hstopped
  | ok a => exact hreturned

theorem Ensures.and {returned : α → Prop} {stopped : ε → Prop} {x : Except ε α}
    (hx : Ensures returned stopped x) (more : α → Prop) (hmore : ∀ a, x = .ok a → more a) :
    Ensures (fun a => returned a ∧ more a) stopped x := by
  cases x with
  | error e => exact hx
  | ok a => exact ⟨hx, hmore a rfl⟩

/-- A step of a run keeps an invariant, and stops only where it may. -/
def Preserves (inv : σ → Prop) (stopped : ε → Prop) (step : σ → Except ε σ) : Prop :=
  ∀ state, inv state → Ensures inv stopped (step state)

theorem Preserves.comp {inv : σ → Prop} {stopped : ε → Prop} {first second : σ → Except ε σ}
    (h : Preserves inv stopped first) (h' : Preserves inv stopped second) :
    Preserves inv stopped fun state => first state >>= second :=
  fun state hinv => (h state hinv).bind h'

/-- Two computations end alike: with related values, or with one error. -/
inductive EndAlike {γ : Type} (related : α → γ → Prop) : Except ε α → Except ε γ → Prop where
  | returned {a : α} {c : γ} (h : related a c) : EndAlike related (.ok a) (.ok c)
  | stopped (e : ε) : EndAlike related (.error e) (.error e)

section Alike

variable {γ δ : Type} {related : α → γ → Prop} {x : Except ε α} {y : Except ε γ}

theorem EndAlike.bind {later : β → δ → Prop} {f : α → Except ε β} {g : γ → Except ε δ}
    (h : EndAlike related x y) (hlater : ∀ a c, related a c → EndAlike later (f a) (g c)) :
    EndAlike later (x >>= f) (y >>= g) := by
  cases h with
  | returned h => exact hlater _ _ h
  | stopped e => exact .stopped e

theorem EndAlike.and {holds : α → Prop} (h : EndAlike related x y)
    (hholds : ∀ a, x = .ok a → holds a) :
    EndAlike (fun a c => holds a ∧ related a c) x y := by
  cases h with
  | returned h => exact .returned ⟨hholds _ rfl, h⟩
  | stopped e => exact .stopped e

theorem EndAlike.mono {weak : α → γ → Prop} (h : EndAlike related x y)
    (himp : ∀ a c, related a c → weak a c) : EndAlike weak x y := by
  cases h with
  | returned h => exact .returned (himp _ _ h)
  | stopped e => exact .stopped e

theorem EndAlike.map (x : Except ε α) {f : α → β} {g : α → δ} {later : β → δ → Prop}
    (h : ∀ a, later (f a) (g a)) : EndAlike later (f <$> x) (g <$> x) := by
  cases x with
  | ok a => exact .returned (h a)
  | error e => exact .stopped e

end Alike

/-- A call that reports an error hands back the state it was given. -/
def Atomic {φ : Type} (call : σ → Except ε (Except φ α × σ)) : Prop :=
  ∀ state next error, call state = .ok (.error error, next) → next = state

end Partial

section Machines

structure Machine (State : Type) where
  init : State → Prop
  step : State → State → Prop

variable {State : Type}

def Machine.Steps (machine : Machine State) : State → State → Prop :=
  Relation.ReflTransGen machine.step

def Machine.Reachable (machine : Machine State) (state : State) : Prop :=
  ∃ start, machine.init start ∧ machine.Steps start state

theorem Machine.Reachable.start {machine : Machine State} {state : State}
    (h : machine.init state) : machine.Reachable state :=
  ⟨state, h, .refl⟩

theorem Machine.Reachable.next {machine : Machine State} {state next : State}
    (h : machine.Reachable state) (hstep : machine.step state next) : machine.Reachable next := by
  obtain ⟨start, hinit, hsteps⟩ := h
  exact ⟨start, hinit, hsteps.tail hstep⟩

/-- The induction behind every safety property: what holds at the start and is kept
by each step from a reachable state holds in every reachable state. -/
theorem Machine.Reachable.invariant {machine : Machine State} (inv : State → Prop)
    (base : ∀ state, machine.init state → inv state)
    (keep : ∀ state next, machine.Reachable state → inv state → machine.step state next → inv next)
    {state : State} (h : machine.Reachable state) : inv state := by
  obtain ⟨start, hinit, hsteps⟩ := h
  induction hsteps with
  | refl => exact base start hinit
  | tail hsteps hstep ih => exact keep _ _ ⟨start, hinit, hsteps⟩ ih hstep

end Machines

end Antarc.Library
