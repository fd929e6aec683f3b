import Mathlib.Data.List.Perm.Basic
import Antarc.Library.Execution

/-! Outboxes. What is placed waits in the queue of its channel; now and then all queues are
emptied, one channel after the other. What goes out is then settled by what was placed between
two emptyings: nothing is lost, nothing goes out twice, and within a channel nothing overtakes. -/
namespace Antarc.Library

variable {Channel Item : Type}

section Selections

variable [DecidableEq Channel]

def onChannel (channel : Channel) (items : List (Channel × Item)) : List Item :=
  (items.filter fun item => item.1 = channel).map Prod.snd

@[simp] theorem onChannel_nil (channel : Channel) :
    onChannel channel ([] : List (Channel × Item)) = [] :=
  rfl

@[simp] theorem onChannel_append (channel : Channel) (first second : List (Channel × Item)) :
    onChannel channel (first ++ second) = onChannel channel first ++ onChannel channel second := by
  simp [onChannel]

theorem onChannel_cons (channel : Channel) (item : Channel × Item) (rest : List (Channel × Item)) :
    onChannel channel (item :: rest) =
      (if item.1 = channel then [item.2] else []) ++ onChannel channel rest := by
  by_cases h : item.1 = channel <;> simp [onChannel, h]

theorem onChannel_map (channel own : Channel) (items : List Item) :
    onChannel channel (items.map fun item => (own, item)) =
      if own = channel then items else [] := by
  unfold onChannel
  rw [List.filter_map, List.map_map]
  by_cases h : own = channel <;> simp [Function.comp_def, h]

def ranked (order : List Channel) (items : List (Channel × Item)) : List Item :=
  order.flatMap fun channel => onChannel channel items

theorem turn_of_channel {order : List Channel} (honce : order.Nodup) {own : Channel}
    (hmem : own ∈ order) (item : Item) :
    (order.flatMap fun channel => if own = channel then [item] else []) = [item] := by
  induction order with
  | nil => contradiction
  | cons channel others ih =>
    obtain ⟨hfresh, hothers⟩ := List.nodup_cons.mp honce
    rw [List.flatMap_cons]
    by_cases h : own = channel
    · have hnone : (others.flatMap fun other => if own = other then [item] else []) = [] := by
        rw [List.flatMap_eq_nil_iff]
        intro other hother
        refine if_neg fun hsame => hfresh ?_
        rwa [← h, hsame]
      rw [if_pos h, hnone, List.append_nil]
    · rw [if_neg h, List.nil_append]
      exact ih hothers (List.mem_of_ne_of_mem h hmem)

theorem ranked_perm {order : List Channel} (honce : order.Nodup)
    (hall : ∀ channel, channel ∈ order) (items : List (Channel × Item)) :
    (ranked order items).Perm (items.map Prod.snd) := by
  induction items with
  | nil => simp [ranked]
  | cons item rest ih =>
    unfold ranked
    simp only [onChannel_cons]
    refine (List.flatMap_append_perm order _ _).symm.trans ?_
    rw [turn_of_channel honce (hall item.1)]
    exact ih.cons item.2

end Selections

/-- The queue of each channel, and what has gone out. -/
@[ext]
structure Outbox (Channel Item : Type) where
  waiting : Channel → List Item
  sent : List Item

namespace Outbox

variable [DecidableEq Channel]

def new : Outbox Channel Item :=
  ⟨fun _ => [], []⟩

def place (outbox : Outbox Channel Item) (items : List (Channel × Item)) : Outbox Channel Item :=
  { outbox with waiting := fun channel => outbox.waiting channel ++ onChannel channel items }

def empty (outbox : Outbox Channel Item) (order : List Channel) : Outbox Channel Item where
  waiting := fun channel => if channel ∈ order then [] else outbox.waiting channel
  sent := outbox.sent ++ order.flatMap outbox.waiting

@[simp] theorem place_nil (outbox : Outbox Channel Item) : outbox.place [] = outbox := by
  ext <;> simp [place]

@[simp] theorem empty_nil (outbox : Outbox Channel Item) : outbox.empty [] = outbox := by
  ext <;> simp [empty]

theorem empty_append (outbox : Outbox Channel Item) {order later : List Channel}
    (hapart : order.Disjoint later) :
    (outbox.empty order).empty later = outbox.empty (order ++ later) := by
  have hkept : later.flatMap (outbox.empty order).waiting = later.flatMap outbox.waiting := by
    refine List.flatMap_congr fun channel hlater => ?_
    exact if_neg fun horder => hapart horder hlater
  apply Outbox.ext
  · funext channel
    by_cases horder : channel ∈ order <;> by_cases hlater : channel ∈ later <;>
      simp [empty, horder, hlater]
  · change outbox.sent ++ order.flatMap outbox.waiting ++ _ = _
    rw [hkept, List.append_assoc, ← List.flatMap_append]
    rfl

theorem empty_each {order : List Channel} (honce : order.Nodup) (outbox : Outbox Channel Item) :
    order.foldl (fun outbox channel => outbox.empty [channel]) outbox = outbox.empty order := by
  induction order generalizing outbox with
  | nil => exact (empty_nil outbox).symm
  | cons channel rest ih =>
    obtain ⟨hfresh, hrest⟩ := List.nodup_cons.mp honce
    rw [List.foldl_cons, ih hrest]
    exact empty_append outbox (List.singleton_disjoint.mpr hfresh)

end Outbox

/-- What was placed between two emptyings, and what has been placed since the last. -/
structure Batches (Channel Item : Type) where
  past : List (List (Channel × Item))
  current : List (Channel × Item)

namespace Batches

def new : Batches Channel Item :=
  ⟨[], []⟩

def place (batches : Batches Channel Item) (items : List (Channel × Item)) :
    Batches Channel Item :=
  { batches with current := batches.current ++ items }

@[simp] theorem place_nil (batches : Batches Channel Item) : batches.place [] = batches := by
  simp [place]

def close (batches : Batches Channel Item) : Batches Channel Item :=
  ⟨batches.past ++ [batches.current], []⟩

def all (batches : Batches Channel Item) : List (Channel × Item) :=
  batches.past.flatten ++ batches.current

end Batches

section Runs

variable [DecidableEq Channel]

inductive Outbox.Step (order : List Channel) :
    Outbox Channel Item × Batches Channel Item → Outbox Channel Item × Batches Channel Item →
      Prop where
  | place (outbox : Outbox Channel Item) (batches : Batches Channel Item)
      (items : List (Channel × Item)) :
      Step order (outbox, batches) (outbox.place items, batches.place items)
  | empty (outbox : Outbox Channel Item) (batches : Batches Channel Item) :
      Step order (outbox, batches) (outbox.empty order, batches.close)

def outboxes (order : List Channel) : Machine (Outbox Channel Item × Batches Channel Item) where
  init state := state = (.new, .new)
  step := Outbox.Step order

/-- What went out is each batch, channel by channel, and the rest waits. -/
structure Settles (order : List Channel) (outbox : Outbox Channel Item)
    (batches : Batches Channel Item) : Prop where
  sent : outbox.sent = batches.past.flatMap (ranked order)
  waiting : ∀ channel, outbox.waiting channel = onChannel channel batches.current

theorem settles_of_reachable {order : List Channel} (hall : ∀ channel, channel ∈ order)
    {state : Outbox Channel Item × Batches Channel Item} (h : (outboxes order).Reachable state) :
    Settles order state.1 state.2 := by
  refine h.invariant (fun state => Settles order state.1 state.2) ?_ ?_
  · rintro _ rfl
    exact ⟨rfl, fun _ => rfl⟩
  · rintro _ _ - settles (⟨outbox, batches, items⟩ | ⟨outbox, batches⟩)
    · refine ⟨settles.sent, fun channel => ?_⟩
      change outbox.waiting channel ++ _ = _
      rw [settles.waiting]
      exact (onChannel_append _ _ _).symm
    · refine ⟨?_, fun channel => if_pos (hall channel)⟩
      have hturns : order.flatMap outbox.waiting = ranked order batches.current :=
        List.flatMap_congr fun channel _ => settles.waiting channel
      change outbox.sent ++ order.flatMap outbox.waiting = (batches.past ++ [_]).flatMap _
      rw [settles.sent, hturns, List.flatMap_append, List.flatMap_singleton]

/-- All that was placed has gone out once or waits. -/
theorem Settles.exactly_once {order : List Channel} {outbox : Outbox Channel Item}
    {batches : Batches Channel Item} (settles : Settles order outbox batches)
    (honce : order.Nodup) (hall : ∀ channel, channel ∈ order) :
    (outbox.sent ++ order.flatMap outbox.waiting).Perm (batches.all.map Prod.snd) := by
  have hturns : order.flatMap outbox.waiting = ranked order batches.current :=
    List.flatMap_congr fun channel _ => settles.waiting channel
  have hpast : (batches.past.flatMap (ranked order)).Perm (batches.past.flatten.map Prod.snd) := by
    generalize batches.past = past
    induction past with
    | nil => rfl
    | cons batch rest ih =>
      rw [List.flatMap_cons, List.flatten_cons, List.map_append]
      exact (ranked_perm honce hall batch).append ih
  rw [settles.sent, hturns, Batches.all, List.map_append]
  exact hpast.append (ranked_perm honce hall _)

end Runs

end Antarc.Library
