import Antarc.Library.Execution
import Mathlib.Data.List.Count

/-! Actions that each concern one part of a state. What they make of a part depends on the
actions for that part and on their order, and on nothing else; so actions for different parts
may be shuffled. -/
namespace Antarc.Library

section Shuffles

variable {α κ : Type} [DecidableEq κ] (key : α → Option κ)

def ofKey (items : List α) (k : κ) : List α :=
  items.filter fun item => key item = some k

theorem ofKey_append (items other : List α) (k : κ) :
    ofKey key (items ++ other) k = ofKey key items k ++ ofKey key other k :=
  List.filter_append ..

structure Shuffles (items other : List α) : Prop where
  perm : items.Perm other
  ofKey_eq : ∀ k, ofKey key items k = ofKey key other k

theorem Shuffles.swap {first second : α} (h : key first ≠ key second) (before after : List α) :
    Shuffles key (before ++ first :: second :: after) (before ++ second :: first :: after) where
  perm := (List.Perm.swap second first after).append_left before
  ofKey_eq := by
    intro k
    simp only [ofKey, List.filter_append, List.filter_cons]
    by_cases hfirst : key first = some k
    · have hsecond : key second ≠ some k := fun hsecond => h (hfirst.trans hsecond.symm)
      simp [hfirst, hsecond]
    · simp [hfirst]

/-- Lists that hold the same items of every key, and the same without one, are permutations. -/
theorem perm_of_ofKey [DecidableEq α] {items other : List α}
    (hkeys : ∀ k, ofKey key items k = ofKey key other k)
    (hrest : items.filter (fun item => key item = none) =
      other.filter fun item => key item = none) : items.Perm other := by
  rw [List.perm_iff_count]
  intro item
  cases hkey : key item with
  | none =>
    have hcount : ∀ list : List α, list.count item =
        (list.filter fun item => key item = none).count item := by
      intro list
      rw [List.count_filter (by simp [hkey])]
    rw [hcount items, hcount other, hrest]
  | some k =>
    have hcount : ∀ list : List α, list.count item = (ofKey key list k).count item := by
      intro list
      rw [ofKey, List.count_filter (by simp [hkey])]
    rw [hcount items, hcount other, hkeys k]

end Shuffles

section Parts

variable {ε State Action Part Local : Type} [DecidableEq Part]

/-- A state in parts: which part an action is for, what a part shows, and what the action makes
of what it shows. -/
structure Partition (State Action Part Local : Type) where
  part : Action → Option Part
  view : State → Part → Local
  act : Action → Local → Local

variable (partition : Partition State Action Part Local)

/-- An action changes the part that it is for, as follows from that part, and no other. -/
structure Partition.Moves (action : Action) (before after : State) : Prop where
  own : ∀ k, partition.part action = some k →
    partition.view after k = partition.act action (partition.view before k)
  others : ∀ k, partition.part action ≠ some k → partition.view after k = partition.view before k

def Partition.acts (actions : List Action) (shown : Local) : Local :=
  actions.foldl (fun shown action => partition.act action shown) shown

/-- Every step that the invariant allows moves the part of its action, and it depends on the
action alone whether it returns. -/
structure Partition.Steps (step : State → Action → Except ε State) (inv : State → Prop)
    (fits answered : Action → Prop) : Prop where
  moves : ∀ state action next, inv state → fits action → step state action = .ok next →
    inv next ∧ partition.Moves action state next
  returns : ∀ state action, inv state → fits action →
    ((∃ next, step state action = .ok next) ↔ answered action)

variable {step : State → Action → Except ε State} {inv : State → Prop}
  {fits answered : Action → Prop} {partition}

/-- The run lemma: a part shows what the actions for it have made of it. -/
theorem Partition.Steps.run (steps : partition.Steps step inv fits answered)
    {actions : List Action} (hfits : ∀ action ∈ actions, fits action) {start final : State}
    (hinv : inv start) (h : actions.foldlM step start = .ok final) :
    inv final ∧ ∀ k, partition.view final k =
      partition.acts (ofKey partition.part actions k) (partition.view start k) := by
  induction actions generalizing start with
  | nil =>
    cases h
    exact ⟨hinv, fun k => rfl⟩
  | cons action rest ih =>
    obtain ⟨next, hnext, hrest⟩ := bind_eq_ok.mp h
    obtain ⟨hinv', hmoves⟩ := steps.moves start action next hinv (hfits action List.mem_cons_self)
      hnext
    obtain ⟨hfinal, hviews⟩ :=
      ih (fun other hmem => hfits other (List.mem_cons_of_mem _ hmem)) hinv' hrest
    refine ⟨hfinal, fun k => ?_⟩
    rw [hviews k]
    by_cases hpart : partition.part action = some k
    · rw [hmoves.own k hpart, ofKey, ofKey, List.filter_cons_of_pos (by simpa using hpart)]
      rfl
    · rw [hmoves.others k hpart, ofKey, ofKey, List.filter_cons_of_neg (by simpa using hpart)]

omit [DecidableEq Part] in
theorem Partition.Steps.returns_iff (steps : partition.Steps step inv fits answered)
    {actions : List Action} (hfits : ∀ action ∈ actions, fits action) {start : State}
    (hinv : inv start) :
    (∃ final, actions.foldlM step start = .ok final) ↔ ∀ action ∈ actions, answered action := by
  induction actions generalizing start with
  | nil => exact iff_of_true ⟨start, rfl⟩ (List.forall_mem_nil _)
  | cons action rest ih =>
    have hrest := fun other hmem => hfits other (List.mem_cons_of_mem action hmem)
    have hfirst := hfits action List.mem_cons_self
    have hkeeps := fun next hnext => (steps.moves start action next hinv hfirst hnext).1
    rw [List.forall_mem_cons, ← steps.returns start action hinv hfirst]
    constructor
    · rintro ⟨final, h⟩
      obtain ⟨next, hnext, h⟩ := bind_eq_ok.mp h
      exact ⟨⟨next, hnext⟩, (ih hrest (hkeeps next hnext)).mp ⟨final, h⟩⟩
    · rintro ⟨⟨next, hnext⟩, h⟩
      obtain ⟨final, hfinal⟩ := (ih hrest (hkeeps next hnext)).mpr h
      exact ⟨final, bind_eq_ok.mpr ⟨next, hnext, hfinal⟩⟩

/-- Shuffled actions are answered as well, and leave every part alike. -/
theorem Partition.Steps.shuffled (steps : partition.Steps step inv fits answered)
    {actions other : List Action} (hshuffles : Shuffles partition.part actions other)
    (hfits : ∀ action ∈ actions, fits action) {start final : State} (hinv : inv start)
    (h : actions.foldlM step start = .ok final) :
    ∃ final', other.foldlM step start = .ok final' ∧ inv final ∧ inv final' ∧
      ∀ k, partition.view final k = partition.view final' k := by
  have hfits' : ∀ action ∈ other, fits action :=
    fun action hmem => hfits action (hshuffles.perm.mem_iff.mpr hmem)
  have hanswered := (steps.returns_iff hfits hinv).mp ⟨final, h⟩
  obtain ⟨final', h'⟩ := (steps.returns_iff hfits' hinv).mpr fun action hmem =>
    hanswered action (hshuffles.perm.mem_iff.mpr hmem)
  obtain ⟨hfinal, hviews⟩ := steps.run hfits hinv h
  obtain ⟨hfinal', hviews'⟩ := steps.run hfits' hinv h'
  refine ⟨final', h', hfinal, hfinal', fun k => ?_⟩
  rw [hviews k, hviews' k, hshuffles.ofKey_eq k]

end Parts

end Antarc.Library
