import Mathlib.Data.List.Dedup
import Mathlib.Logic.Function.Basic
import Antarc.Library.Execution

/-! Numbered sending to many addresses. Each address has a next number; a packet, which
may go out in several parts, takes it for as long as the packet lasts, and what was
sent once can be sent again under its old number. Then no number is used for two
packets, and first sendings never go back to a smaller number. -/
namespace Antarc.Library

/-- One sending: where to, under which number, which packet, and whether anew. -/
structure Sending (Addr Id : Type) where
  address : Addr
  number : Nat
  id : Id
  first : Bool

/-- `group` is the packet that goes on using the next number of an address. -/
structure Numbering (Addr Id : Type) where
  next : Addr → Nat
  group : Addr → Option Id
  log : List (Sending Addr Id)

namespace Numbering

variable {Addr Id : Type} [DecidableEq Addr]

def start : Numbering Addr Id :=
  ⟨fun _ => 1, fun _ => none, []⟩

def emit (numbering : Numbering Addr Id) (address : Addr) (id : Id) : Numbering Addr Id where
  next := numbering.next
  group := Function.update numbering.group address (some id)
  log := numbering.log ++ [⟨address, numbering.next address, id, true⟩]

def advance (numbering : Numbering Addr Id) (address : Addr) : Numbering Addr Id where
  next := Function.update numbering.next address (numbering.next address + 1)
  group := Function.update numbering.group address none
  log := numbering.log

def resend (numbering : Numbering Addr Id) (sending : Sending Addr Id) : Numbering Addr Id where
  next := numbering.next
  group := numbering.group
  log := numbering.log ++ [{ sending with first := false }]

inductive Step (numbering : Numbering Addr Id) : Numbering Addr Id → Prop where
  | emit (address : Addr) (id : Id)
      (free : numbering.group address = none ∨ numbering.group address = some id) :
      Step numbering (numbering.emit address id)
  | advance (address : Addr) : Step numbering (numbering.advance address)
  | resend (sending : Sending Addr Id) (sent : sending ∈ numbering.log) :
      Step numbering (numbering.resend sending)

def machine : Machine (Numbering Addr Id) where
  init := fun numbering => numbering = start
  step := Step

/-- What a log must not show: one number for two packets, or a first sending under a
smaller number than an earlier one to the same address. -/
structure NeverReused (log : List (Sending Addr Id)) : Prop where
  single : ∀ sending ∈ log, ∀ other ∈ log, sending.address = other.address →
    sending.number = other.number → sending.id = other.id
  ordered : (log.filter Sending.first).Pairwise fun earlier later =>
    earlier.address = later.address → earlier.number ≤ later.number

/-- The invariant: every number in the log has been passed, or is the next one and is
still in use by the packet it was given to. -/
structure Sound (numbering : Numbering Addr Id) : Prop where
  bounded : ∀ sending ∈ numbering.log,
    sending.number < numbering.next sending.address ∨
      sending.number = numbering.next sending.address ∧
        numbering.group sending.address = some sending.id
  neverReused : NeverReused numbering.log

omit [DecidableEq Addr] in
theorem Sound.bounded_le {numbering : Numbering Addr Id} (sound : numbering.Sound)
    {sending : Sending Addr Id} (h : sending ∈ numbering.log) :
    sending.number ≤ numbering.next sending.address := by
  rcases sound.bounded sending h with hlt | ⟨heq, -⟩
  · exact Nat.le_of_lt hlt
  · exact Nat.le_of_eq heq

theorem Sound.emit {numbering : Numbering Addr Id} (sound : numbering.Sound) (address : Addr)
    (id : Id) (free : numbering.group address = none ∨ numbering.group address = some id) :
    (numbering.emit address id).Sound := by
  -- The new sending shares its number with none but the parts of its own packet.
  have hshared : ∀ sending ∈ numbering.log, sending.address = address →
      sending.number = numbering.next address → sending.id = id := by
    intro sending hmem haddress hnumber
    rcases sound.bounded sending hmem with hlt | ⟨-, hgroup⟩
    · rw [haddress] at hlt
      omega
    · rw [haddress] at hgroup
      rcases free with hfree | hfree
      · rw [hfree] at hgroup
        contradiction
      · rw [hfree] at hgroup
        exact (Option.some.inj hgroup).symm
  refine ⟨?_, ?_, ?_⟩
  · intro sending hmem
    rcases List.mem_append.mp hmem with hmem | hmem
    · rcases sound.bounded sending hmem with hlt | ⟨heq, hgroup⟩
      · exact .inl hlt
      · refine .inr ⟨heq, ?_⟩
        by_cases haddress : sending.address = address
        · rw [haddress] at heq
          simp only [Numbering.emit, haddress, Function.update_self,
            hshared sending hmem haddress heq]
        · simp only [Numbering.emit, Function.update_of_ne haddress, hgroup]
    · rw [List.mem_singleton.mp hmem]
      exact .inr ⟨rfl, Function.update_self ..⟩
  · intro sending hmem other hother haddress hnumber
    rcases List.mem_append.mp hmem with hmem | hmem <;>
      rcases List.mem_append.mp hother with hother | hother
    · exact sound.neverReused.single sending hmem other hother haddress hnumber
    · rw [List.mem_singleton] at hother
      subst hother
      exact hshared sending hmem haddress hnumber
    · rw [List.mem_singleton] at hmem
      subst hmem
      exact (hshared other hother haddress.symm hnumber.symm).symm
    · rw [List.mem_singleton] at hmem hother
      rw [hmem, hother]
  · simp only [Numbering.emit, List.filter_append, List.filter_singleton, Bool.cond_true]
    refine List.pairwise_append.mpr ⟨sound.neverReused.ordered, List.pairwise_singleton _ _, ?_⟩
    intro earlier hearlier later hlater haddress
    rw [List.mem_singleton] at hlater
    subst hlater
    have hle := sound.bounded_le (List.mem_of_mem_filter hearlier)
    rwa [haddress] at hle

theorem Sound.advance {numbering : Numbering Addr Id} (sound : numbering.Sound) (address : Addr) :
    (numbering.advance address).Sound := by
  refine ⟨?_, sound.neverReused⟩
  intro sending hmem
  by_cases haddress : sending.address = address
  · have hle := sound.bounded_le hmem
    left
    simp only [Numbering.advance, haddress, Function.update_self]
    rw [haddress] at hle
    omega
  · simp only [Numbering.advance, Function.update_of_ne haddress]
    exact sound.bounded sending hmem

omit [DecidableEq Addr] in
theorem Sound.resend {numbering : Numbering Addr Id} (sound : numbering.Sound)
    {sending : Sending Addr Id} (sent : sending ∈ numbering.log) :
    (numbering.resend sending).Sound := by
  -- Whatever is in the new log says what some entry of the old log says.
  have hold : ∀ other ∈ (numbering.resend sending).log, ∃ old ∈ numbering.log,
      other.address = old.address ∧ other.number = old.number ∧ other.id = old.id := by
    intro other hmem
    rcases List.mem_append.mp hmem with hmem | hmem
    · exact ⟨other, hmem, rfl, rfl, rfl⟩
    · rw [List.mem_singleton] at hmem
      subst hmem
      exact ⟨sending, sent, rfl, rfl, rfl⟩
  refine ⟨?_, ?_, ?_⟩
  · intro other hmem
    obtain ⟨old, hmem, haddress, hnumber, hid⟩ := hold other hmem
    rw [haddress, hnumber, hid]
    exact sound.bounded old hmem
  · intro first hfirst second hsecond haddress hnumber
    obtain ⟨old, hmem, ha, hn, hi⟩ := hold first hfirst
    obtain ⟨old', hmem', ha', hn', hi'⟩ := hold second hsecond
    rw [hi, hi']
    exact sound.neverReused.single old hmem old' hmem' (ha ▸ ha' ▸ haddress) (hn ▸ hn' ▸ hnumber)
  · simp only [Numbering.resend, List.filter_append, List.filter_singleton, Bool.cond_false,
      List.append_nil]
    exact sound.neverReused.ordered

theorem Sound.of_reachable {numbering : Numbering Addr Id} (h : machine.Reachable numbering) :
    numbering.Sound := by
  refine h.invariant Sound ?_ ?_
  · rintro _ rfl
    exact ⟨fun _ hmem => by contradiction, fun _ hmem => by contradiction, .nil⟩
  · rintro before after - hsound hstep
    cases hstep with
    | emit address id free => exact hsound.emit address id free
    | advance address => exact hsound.advance address
    | resend sending sent => exact hsound.resend sent

theorem Step.next_le {before after : Numbering Addr Id} (h : Step before after) (address : Addr) :
    before.next address ≤ after.next address := by
  cases h with
  | emit _ _ _ => exact Nat.le_refl _
  | resend _ _ => exact Nat.le_refl _
  | advance other =>
    by_cases haddress : address = other
    · simp only [Numbering.advance, haddress, Function.update_self]
      omega
    · simp only [Numbering.advance, Function.update_of_ne haddress, Nat.le_refl]

theorem next_le_of_steps {before after : Numbering Addr Id} (h : machine.Steps before after)
    (address : Addr) : before.next address ≤ after.next address := by
  induction h with
  | refl => exact Nat.le_refl _
  | tail _ hstep ih => exact Nat.le_trans ih (Step.next_le hstep address)

theorem one_le_next {numbering : Numbering Addr Id} (h : machine.Reachable numbering)
    (address : Addr) : 1 ≤ numbering.next address := by
  obtain ⟨_, rfl, hsteps⟩ := h
  exact next_le_of_steps hsteps address

end Numbering

section Groups

variable {Id : Type}

/-- A list that can be sent to one address, part by part: a part of another packet comes
only after one that ended its own, and the last part ends its packet too. -/
def Grouped (id : α → Id) (ends : α → Bool) : Option Id → List α → Prop
  | group, [] => group = none
  | group, item :: rest => (group = none ∨ group = some (id item)) ∧
      Grouped id ends (if ends item then none else some (id item)) rest

variable {id : α → Id} {ends : α → Bool}

theorem Grouped.append {group : Option Id} {first second : List α}
    (hfirst : Grouped id ends group first) (hsecond : Grouped id ends none second) :
    Grouped id ends group (first ++ second) := by
  induction first generalizing group with
  | nil =>
    rw [show group = none from hfirst]
    exact hsecond
  | cons item rest ih => exact ⟨hfirst.1, ih hfirst.2⟩

theorem grouped_parts {packet : Id} {parts : List α} {last : α}
    (hparts : ∀ part ∈ parts, id part = packet) (hlast : id last = packet)
    (hends : ends last = true) {group : Option Id} (hgroup : group = none ∨ group = some packet) :
    Grouped id ends group (parts ++ [last]) := by
  induction parts generalizing group with
  | nil => exact ⟨by rwa [hlast], by rw [hends]; rfl⟩
  | cons part rest ih =>
    have hid := hparts part List.mem_cons_self
    refine ⟨by rwa [hid], ih (fun other hmem => hparts other (List.mem_cons_of_mem _ hmem)) ?_⟩
    split
    · exact .inl rfl
    · exact .inr (congrArg some hid)

theorem grouped_whole {items : List α} (hends : ∀ item ∈ items, ends item = true) :
    Grouped id ends none items := by
  induction items with
  | nil => rfl
  | cons item rest ih =>
    refine ⟨.inl rfl, ?_⟩
    rw [hends item List.mem_cons_self, if_pos rfl]
    exact ih fun other hmem => hends other (List.mem_cons_of_mem _ hmem)

/-- Where each packet has a part that ends it, and no more than one, there are as many
packets as such parts. -/
theorem length_dedup_packets [DecidableEq Id] {parts : List α}
    (hended : ∀ part ∈ parts, ∃ last ∈ parts, ends last = true ∧ id last = id part)
    (honce : ((parts.filter ends).map id).Nodup) :
    (parts.map id).dedup.length = (parts.filter ends).length := by
  have hperm : (parts.map id).dedup.Perm ((parts.filter ends).map id) := by
    refine (List.perm_ext_iff_of_nodup (List.nodup_dedup _) honce).mpr fun packet => ?_
    rw [List.mem_dedup, List.mem_map, List.mem_map]
    constructor
    · rintro ⟨part, hmem, rfl⟩
      obtain ⟨last, hlast, hends, hid⟩ := hended part hmem
      exact ⟨last, List.mem_filter.mpr ⟨hlast, hends⟩, hid⟩
    · rintro ⟨last, hmem, rfl⟩
      exact ⟨last, List.mem_of_mem_filter hmem, rfl⟩
  rw [hperm.length_eq, List.length_map]

end Groups

end Antarc.Library
