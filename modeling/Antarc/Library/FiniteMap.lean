import Mathlib.Data.Finmap
import Antarc.Library.Execution

/-! Finite maps whose iteration order nobody promises. A map is Mathlib's `Finmap`,
so equal maps are equal whatever was done to build them; an operation that walks a
map is given the order of that walk as an argument. -/
namespace Antarc.Library

section Keys

variable {α κ : Type} [DecidableEq κ] {key : α → κ} {items : List α}

theorem filter_key (hdistinct : (items.map key).Nodup) {item : α} (hmem : item ∈ items) :
    items.filter (fun other => key other = key item) = [item] := by
  induction items with
  | nil => contradiction
  | cons first rest ih =>
    rw [List.map_cons, List.nodup_cons] at hdistinct
    rcases List.mem_cons.mp hmem with rfl | hmem
    · rw [List.filter_cons_of_pos (by simp), List.filter_eq_nil_iff.mpr]
      intro other hother
      have hne : key other ≠ key item := fun h => hdistinct.1 (h ▸ List.mem_map_of_mem hother)
      simpa using hne
    · have hne : key first ≠ key item := fun h => hdistinct.1 (h ▸ List.mem_map_of_mem hmem)
      rw [List.filter_cons_of_neg (by simpa using hne), ih hdistinct.2 hmem]

theorem filter_key_cases (hdistinct : (items.map key).Nodup) (name : κ) :
    items.filter (fun item => key item = name) = [] ∨
      ∃ item ∈ items, key item = name ∧ items.filter (fun item => key item = name) = [item] := by
  by_cases hmem : ∃ item ∈ items, key item = name
  · obtain ⟨item, hmem, rfl⟩ := hmem
    exact .inr ⟨item, hmem, rfl, filter_key hdistinct hmem⟩
  · refine .inl (List.filter_eq_nil_iff.mpr fun item hitem => ?_)
    simpa using fun hname => hmem ⟨item, hitem, hname⟩

end Keys

abbrev HashMap (K V : Type) := Finmap fun _ : K => V

/-- One walk over a map: its entries, each once, in some order. -/
structure Iteration {K V : Type} (map : HashMap K V) where
  entries : List (Sigma fun _ : K => V)
  complete : (entries : Multiset (Sigma fun _ : K => V)) = map.entries

/-- A choice of walk for every map, as a randomly seeded hasher makes one. -/
structure RandomState where
  iterate : ∀ {K V : Type} (map : HashMap K V), Iteration map

instance {K V : Type} (map : HashMap K V) : Nonempty (Iteration map) :=
  let ⟨entries, complete⟩ := Quot.exists_rep map.entries
  ⟨⟨entries, complete⟩⟩

instance : Nonempty RandomState :=
  ⟨⟨fun map => Classical.choice (inferInstanceAs (Nonempty (Iteration map)))⟩⟩

/-- Any walk over one map is what some seed makes of it. -/
theorem RandomState.exists_iterate {K V : Type} {map : HashMap K V} (walk : Iteration map) :
    ∃ hash : RandomState, hash.iterate map = walk := by
  classical
  let place (K V : Type) (map : HashMap K V) : Sigma fun K => Sigma fun V => HashMap K V :=
    ⟨K, V, map⟩
  let seeded : RandomState := ⟨fun {K' V'} map' =>
    if h : place K V map = place K' V' map' then
      Eq.rec (motive := fun at' _ => Iteration at'.2.2) walk h
    else (Classical.arbitrary RandomState).iterate map'⟩
  exact ⟨seeded, dif_pos rfl⟩

theorem Iteration.nodup_keys {K V : Type} {map : HashMap K V} (walk : Iteration map) :
    (walk.entries.map Sigma.fst).Nodup := by
  have h := map.nodupKeys
  rw [← walk.complete] at h
  exact h

theorem Iteration.entries_empty {K V : Type} (walk : Iteration (∅ : HashMap K V)) :
    walk.entries = [] :=
  Multiset.coe_eq_zero _ |>.mp walk.complete

theorem Iteration.entries_singleton {K V : Type} {key : K} {value : V}
    (walk : Iteration (Finmap.singleton key value : HashMap K V)) :
    walk.entries = [⟨key, value⟩] :=
  Multiset.coe_eq_singleton.mp walk.complete

section Lookup

variable {K V : Type} [DecidableEq K]

theorem lookup_insert_eq (map : HashMap K V) (key other : K) (value : V) :
    (map.insert key value).lookup other = if other = key then some value else map.lookup other := by
  split
  · next h => rw [h, Finmap.lookup_insert]
  · next h => rw [Finmap.lookup_insert_of_ne _ h]

theorem eq_of_lookup_insert_empty {key other : K} {value found : V}
    (h : ((∅ : HashMap K V).insert key value).lookup other = some found) :
    other = key ∧ found = value := by
  rw [lookup_insert_eq] at h
  split at h
  · next heq => exact ⟨heq, (Option.some.inj h).symm⟩
  · contradiction

theorem lookup_erase_eq (map : HashMap K V) (key other : K) :
    (map.erase key).lookup other = if other = key then none else map.lookup other := by
  split
  · next h => rw [h, Finmap.lookup_erase]
  · next h => rw [Finmap.lookup_erase_ne h]

theorem insert_of_lookup {map : HashMap K V} {key : K} {value : V}
    (h : map.lookup key = some value) : map.insert key value = map := by
  apply Finmap.ext_lookup
  intro other
  rw [lookup_insert_eq]
  split
  · next heq => rw [heq, h]
  · rfl

@[simp] theorem erase_insert_empty (key : K) (value : V) :
    ((∅ : HashMap K V).insert key value).erase key = ∅ := by
  apply Finmap.ext_lookup
  intro other
  rw [lookup_erase_eq, lookup_insert_eq]
  split <;> simp

theorem map_lookup_insert {map : HashMap K V} {key : K} {old : V} (view : V → W) (new : V)
    (hold : map.lookup key = some old) (hview : view new = view old) (other : K) :
    ((map.insert key new).lookup other).map view = (map.lookup other).map view := by
  rw [lookup_insert_eq]
  split
  · next h => rw [h, hold, Option.map_some, Option.map_some, hview]
  · rfl

theorem mem_iff_lookup (map : HashMap K V) (key : K) :
    key ∈ map ↔ ∃ value, map.lookup key = some value := by
  rw [← Finmap.lookup_isSome, Option.isSome_iff_exists]

def anyValue (map : HashMap K V) (test : V → Bool) : Bool :=
  decide (∃ key ∈ map.keys, (map.lookup key).any test = true)

theorem anyValue_iff (map : HashMap K V) (test : V → Bool) :
    anyValue map test = true ↔ ∃ key value, map.lookup key = some value ∧ test value = true := by
  simp only [anyValue, decide_eq_true_eq, Option.any_eq_true]
  constructor
  · rintro ⟨key, -, value, hvalue, htest⟩
    exact ⟨key, value, hvalue, htest⟩
  · rintro ⟨key, value, hvalue, htest⟩
    exact ⟨key, Finmap.mem_keys.mpr (Finmap.mem_of_lookup_eq_some hvalue), value, hvalue, htest⟩

def isEmpty (map : HashMap K V) : Bool :=
  decide (map.keys = ∅)

theorem isEmpty_of_lookup {map : HashMap K V} {key : K} {value : V}
    (h : map.lookup key = some value) : isEmpty map = false := by
  refine decide_eq_false fun hnone => ?_
  have hmem := Finmap.mem_keys.mpr (Finmap.mem_of_lookup_eq_some h)
  rw [hnone] at hmem
  exact absurd hmem (Finset.notMem_empty key)

theorem Iteration.mem_iff {map : HashMap K V} (walk : Iteration map) (key : K) (value : V) :
    ⟨key, value⟩ ∈ walk.entries ↔ map.lookup key = some value := by
  rw [Finmap.lookup_eq_some_iff, ← walk.complete, Multiset.mem_coe]

/-- Every entry comes last in some walk. -/
theorem Iteration.exists_last {map : HashMap K V} {key : K} {value : V}
    (h : map.lookup key = some value) :
    ∃ (walk : Iteration map) (before : List (Sigma fun _ : K => V)),
      walk.entries = before ++ [⟨key, value⟩] := by
  let walk := Classical.arbitrary (Iteration map)
  obtain ⟨before, after, hsplit⟩ := List.append_of_mem ((walk.mem_iff key value).mpr h)
  let entry : Sigma fun _ : K => V := ⟨key, value⟩
  have hperm : (before ++ after ++ [entry]).Perm walk.entries := by
    rw [hsplit, List.append_assoc]
    exact (List.perm_append_singleton entry after).append_left before
  exact ⟨⟨_, (Multiset.coe_eq_coe.mpr hperm).trans walk.complete⟩, before ++ after, rfl⟩

theorem Iteration.isEmpty_iff {map : HashMap K V} (walk : Iteration map) :
    isEmpty map = true ↔ walk.entries = [] := by
  rw [isEmpty, decide_eq_true_eq, Finset.eq_empty_iff_forall_notMem,
    List.eq_nil_iff_forall_not_mem]
  constructor
  · intro h entry hmem
    exact h entry.1 (Finmap.mem_keys.mpr
      (Finmap.mem_of_lookup_eq_some ((walk.mem_iff entry.1 entry.2).mp hmem)))
  · intro h key hmem
    obtain ⟨value, hvalue⟩ := (mem_iff_lookup map key).mp (Finmap.mem_keys.mp hmem)
    exact h ⟨key, value⟩ ((walk.mem_iff key value).mpr hvalue)

end Lookup

section Update

variable {ε K V : Type} [DecidableEq K]

/-- Replace the value of each listed key, stopping where an update does. -/
def updateEach (update : K → V → Except ε V) (entries : List (Sigma fun _ : K => V))
    (map : HashMap K V) : Except ε (HashMap K V) :=
  entries.foldlM (fun map entry => do
    let value ← update entry.1 entry.2
    pure (map.insert entry.1 value)) map

theorem lookup_updateEach (update : K → V → Except ε V) {entries : List (Sigma fun _ : K => V)}
    (nodup : (entries.map Sigma.fst).Nodup) {map final : HashMap K V}
    (hrun : updateEach update entries map = .ok final) (key : K) :
    (key ∉ entries.map Sigma.fst ∧ final.lookup key = map.lookup key) ∨
      ∃ value next, ⟨key, value⟩ ∈ entries ∧ update key value = .ok next ∧
        final.lookup key = some next := by
  induction entries generalizing map with
  | nil =>
    cases hrun
    exact .inl ⟨by simp, rfl⟩
  | cons entry rest ih =>
    rw [List.map_cons, List.nodup_cons] at nodup
    obtain ⟨inserted, hinsert, hrest⟩ := bind_eq_ok.mp hrun
    obtain ⟨next, hnext, hpure⟩ := bind_eq_ok.mp hinsert
    cases hpure
    rcases ih nodup.2 hrest with ⟨hnot, hfinal⟩ | ⟨value, next', hmem, hupdate, hfinal⟩
    · rw [lookup_insert_eq] at hfinal
      split at hfinal
      · next h =>
        subst h
        exact .inr ⟨entry.2, next, List.mem_cons_self, hnext, hfinal⟩
      · next h => exact .inl ⟨by simp [h, hnot], hfinal⟩
    · exact .inr ⟨value, next', List.mem_cons_of_mem _ hmem, hupdate, hfinal⟩

theorem updateEach_returns_iff (update : K → V → Except ε V)
    {entries : List (Sigma fun _ : K => V)} (map : HashMap K V) :
    (∃ final, updateEach update entries map = .ok final) ↔
      ∀ entry ∈ entries, ∃ next, update entry.1 entry.2 = .ok next := by
  induction entries generalizing map with
  | nil => exact iff_of_true ⟨map, rfl⟩ (List.forall_mem_nil _)
  | cons entry rest ih =>
    rw [List.forall_mem_cons]
    constructor
    · rintro ⟨final, hrun⟩
      obtain ⟨inserted, hinsert, hrest⟩ := bind_eq_ok.mp hrun
      obtain ⟨next, hnext, -⟩ := bind_eq_ok.mp hinsert
      exact ⟨⟨next, hnext⟩, (ih inserted).mp ⟨final, hrest⟩⟩
    · rintro ⟨⟨next, hnext⟩, hrest⟩
      obtain ⟨final, hfinal⟩ := (ih (map.insert entry.1 next)).mpr hrest
      exact ⟨final, bind_eq_ok.mpr ⟨_, bind_eq_ok.mpr ⟨next, hnext, rfl⟩, hfinal⟩⟩

theorem exists_of_updateEach_eq_error {update : K → V → Except ε V}
    {entries : List (Sigma fun _ : K => V)} {map : HashMap K V} {e : ε}
    (h : updateEach update entries map = .error e) :
    ∃ entry ∈ entries, update entry.1 entry.2 = .error e := by
  induction entries generalizing map with
  | nil => contradiction
  | cons entry rest ih =>
    rcases bind_eq_error.mp h with hinsert | ⟨inserted, -, hrest⟩
    · rcases bind_eq_error.mp hinsert with hupdate | ⟨_, -, hpure⟩
      · exact ⟨entry, List.mem_cons_self, hupdate⟩
      · contradiction
    · obtain ⟨failing, hmem, hfails⟩ := ih hrest
      exact ⟨failing, List.mem_cons_of_mem _ hmem, hfails⟩

/-- Over a whole walk every value is replaced by its update, and no key comes or goes. -/
theorem lookup_updateEach_walk (update : K → V → Except ε V) {map final : HashMap K V}
    (walk : Iteration map) (hrun : updateEach update walk.entries map = .ok final) (key : K) :
    (map.lookup key = none ∧ final.lookup key = none) ∨
      ∃ value next, map.lookup key = some value ∧ update key value = .ok next ∧
        final.lookup key = some next := by
  rcases lookup_updateEach update walk.nodup_keys hrun key with
    ⟨hnot, hfinal⟩ | ⟨value, next, hmem, hupdate, hfinal⟩
  · left
    have hnone : map.lookup key = none := by
      cases hlookup : map.lookup key with
      | none => rfl
      | some value =>
        exact absurd (List.mem_map_of_mem ((walk.mem_iff key value).mpr hlookup)) hnot
    exact ⟨hnone, hfinal.trans hnone⟩
  · exact .inr ⟨value, next, (walk.mem_iff key value).mp hmem, hupdate, hfinal⟩

theorem map_lookup_updateEach (update : K → V → Except ε V) (view : V → W) {map final : HashMap K V}
    (walk : Iteration map) (hrun : updateEach update walk.entries map = .ok final)
    (hview : ∀ key value next, update key value = .ok next → view next = view value) (key : K) :
    (final.lookup key).map view = (map.lookup key).map view := by
  rcases lookup_updateEach_walk update walk hrun key with
    ⟨hnone, hfinal⟩ | ⟨value, next, hvalue, hupdate, hfinal⟩
  · rw [hnone, hfinal]
  · rw [hvalue, hfinal, Option.map_some, Option.map_some, hview key value next hupdate]

end Update

end Antarc.Library
