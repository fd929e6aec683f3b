import Mathlib.Data.List.Perm.Basic
import Mathlib.Data.List.Flatten

/-! Words put together from the views of listed items, the last of which is left out. Such a
word tells in which order the items stood, unless they all look alike. -/
namespace Antarc.Library

def wordOf (view : α → List β) (items : List α) : List β :=
  (items.dropLast.map view).flatten

/-- In whatever order the items stand, the word is the same. -/
def OrderFree (view : α → List β) (items : List α) : Prop :=
  ∀ first second : List α, first.Perm items → second.Perm items →
    wordOf view first = wordOf view second

variable {view : α → List β} {items : List α}

theorem wordOf_map (view : α → List β) (carry : γ → α) (items : List γ) :
    wordOf view (items.map carry) = wordOf (fun item => view (carry item)) items := by
  rw [wordOf, ← List.map_dropLast, List.map_map]
  rfl

theorem exists_perm_last (view : α → List β) {item : α} (hmem : item ∈ items) :
    ∃ order : List α, order.Perm items ∧
      (wordOf view order).length + (view item).length = (items.map view).flatten.length := by
  obtain ⟨before, after, rfl⟩ := List.append_of_mem hmem
  have hperm : (before ++ after ++ [item]).Perm (before ++ item :: after) := by
    rw [List.append_assoc]
    exact (List.perm_append_singleton item after).append_left before
  have hsplit : ((before ++ after ++ [item]).map view).flatten =
      ((before ++ after).map view).flatten ++ view item := by
    rw [List.map_append, List.flatten_append, List.map_singleton, List.flatten_singleton]
  refine ⟨_, hperm, ?_⟩
  rw [wordOf, List.dropLast_concat, ← List.length_append, ← hsplit]
  exact (hperm.map view).flatten.length_eq

theorem exists_perm_first (view : α → List β) (hmany : 2 ≤ items.length) {item : α}
    (hmem : item ∈ items) :
    ∃ order : List α, order.Perm items ∧ ∃ rest, wordOf view order = view item ++ rest := by
  obtain ⟨before, after, rfl⟩ := List.append_of_mem hmem
  refine ⟨item :: (before ++ after), List.perm_middle.symm, ?_⟩
  have hrest : before ++ after ≠ [] := by
    intro hnil
    have hlength := congrArg List.length hnil
    rw [List.length_append, List.length_cons] at hmany
    rw [List.length_append, List.length_nil] at hlength
    omega
  rw [wordOf, List.dropLast_cons_of_ne_nil hrest, List.map_cons, List.flatten_cons]
  exact ⟨_, rfl⟩

theorem wordOf_of_alike {word : List β} (halike : ∀ item ∈ items, view item = word) :
    wordOf view items = (List.replicate (items.length - 1) word).flatten := by
  have hdropped : ∀ item ∈ items.dropLast, view item = word :=
    fun item hmem => halike item (List.dropLast_subset _ hmem)
  rw [wordOf, List.map_congr_left hdropped, List.map_const', List.length_dropLast]

/-- The word of two or more items keeps their order, as soon as two of them differ. -/
theorem orderFree_iff (view : α → List β) (hmany : 2 ≤ items.length) :
    OrderFree view items ↔ ∀ a ∈ items, ∀ b ∈ items, view a = view b := by
  constructor
  · intro hfree a ha b hb
    obtain ⟨lastA, hlastA, hlengthA⟩ := exists_perm_last view ha
    obtain ⟨lastB, hlastB, hlengthB⟩ := exists_perm_last view hb
    obtain ⟨firstA, hfirstA, restA, hwordA⟩ := exists_perm_first view hmany ha
    obtain ⟨firstB, hfirstB, restB, hwordB⟩ := exists_perm_first view hmany hb
    have hlength : (view a).length = (view b).length := by
      rw [hfree lastA lastB hlastA hlastB] at hlengthA
      omega
    have hword : view a ++ restA = view b ++ restB := by
      rw [← hwordA, ← hwordB]
      exact hfree firstA firstB hfirstA hfirstB
    exact (List.append_inj hword hlength).1
  · intro halike first second hfirst hsecond
    cases items with
    | nil => contradiction
    | cons item rest =>
      have hword : ∀ order : List α, order.Perm (item :: rest) →
          ∀ other ∈ order, view other = view item := fun order hperm other hmem =>
        halike other (hperm.mem_iff.mp hmem) item List.mem_cons_self
      rw [wordOf_of_alike (hword first hfirst), wordOf_of_alike (hword second hsecond),
        hfirst.length_eq, hsecond.length_eq]

theorem exists_counterparts {R : α → γ → Prop} {other : γ → List β}
    (h : ∀ item ∈ items, ∃ counterpart, R item counterpart ∧ other counterpart = view item) :
    ∃ counterparts : List γ, counterparts.map other = items.map view ∧
      ∀ counterpart ∈ counterparts, ∃ item ∈ items, R item counterpart := by
  induction items with
  | nil => exact ⟨[], rfl, fun _ hmem => by contradiction⟩
  | cons item rest ih =>
    obtain ⟨⟨counterpart, hrelated, hview⟩, hrest⟩ := List.forall_mem_cons.mp h
    obtain ⟨counterparts, hviews, hall⟩ := ih hrest
    refine ⟨counterpart :: counterparts, ?_, List.forall_mem_cons.mpr ⟨?_, ?_⟩⟩
    · rw [List.map_cons, List.map_cons, hview, hviews]
    · exact ⟨item, List.mem_cons_self, hrelated⟩
    · intro found hfound
      obtain ⟨from', hmem, hrelated'⟩ := hall found hfound
      exact ⟨from', List.mem_cons_of_mem _ hmem, hrelated'⟩

end Antarc.Library
