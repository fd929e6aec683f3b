import Antarc.Properties.Delivery
import Antarc.Properties.IdealLink

/-! How a payload is cut. The chunks are counted in full and numbered in eight bits, so the
numbers are right up to 255 chunks. -/
namespace Antarc.Properties

open Library

section Numbers

/-- The fragments are those of the payload, in order: each is numbered by its place and
carries their number, and together they carry the payload. -/
structure NumbersExactly (payload : Payload) (fragments : List Fragment) : Prop where
  count : fragments.length = (numberedChunks payload).length
  indices : fragments.map (fun fragment => fragment.index.toNat) = List.range fragments.length
  distinct : (fragments.map Fragment.index).Nodup
  totals : ∀ fragment ∈ fragments, fragment.total.toNat = fragments.length
  bytes : (fragments.map Fragment.payload).flatten = payload

theorem length_numberedChunks (payload : Payload) :
    (numberedChunks payload).length = (payload.length + 1482) / 1483 := by
  unfold numberedChunks
  rw [List.length_zipIdx, length_chunks]
  rfl

theorem numbersExactly_of_le {payload : Payload} (hcount : (numberedChunks payload).length ≤ 255)
    (id : ConnectionId) : NumbersExactly payload
      ((numberedChunks payload).map (fragmentMessage (numberedChunks payload).length id)) := by
  have hsize : 0 < maxFragmentSize - Message.headerSize Fragment := by decide
  have hnumber : ∀ chunk ∈ numberedChunks payload, (UInt8.ofNat chunk.2).toNat = chunk.2 := by
    intro chunk hmem
    have hlt := List.snd_lt_of_mem_zipIdx hmem
    rw [← List.length_zipIdx (i := 0)] at hlt
    apply UInt8.toNat_ofNat_of_lt
    change chunk.2 < 256
    change _ < (numberedChunks payload).length + 0 at hlt
    omega
  have hindices : (numberedChunks payload).map (fun chunk => (UInt8.ofNat chunk.2).toNat) =
      List.range (numberedChunks payload).length := by
    rw [List.map_congr_left hnumber]
    unfold numberedChunks
    rw [List.zipIdx_map_snd, List.length_zipIdx, List.range_eq_range']
  constructor
  · exact List.length_map _
  · rw [List.map_map, List.length_map]
    exact hindices
  · rw [List.map_map]
    apply List.Nodup.of_map UInt8.toNat
    rw [List.map_map]
    exact hindices ▸ List.nodup_range
  · intro fragment hmem
    obtain ⟨chunk, -, rfl⟩ := List.mem_map.mp hmem
    rw [List.length_map]
    apply UInt8.toNat_ofNat_of_lt
    change _ < 256
    omega
  · rw [List.map_map]
    have hpayloads : (numberedChunks payload).map Prod.fst = chunks _ payload :=
      List.zipIdx_map_fst 0 _
    exact (congrArg List.flatten hpayloads).trans (flatten_chunks hsize payload)

/-- The count is a byte, so it is right only where it is a byte's value. -/
theorem NumbersExactly.count_le {payload : Payload} {fragments : List Fragment}
    (h : NumbersExactly payload fragments) : (numberedChunks payload).length ≤ 255 := by
  rw [← h.count]
  cases hfragments : fragments with
  | nil => exact Nat.zero_le _
  | cons fragment rest =>
    have htotal := h.totals fragment (by rw [hfragments]; exact List.mem_cons_self)
    have hbyte := fragment.total.toNat_lt
    rw [hfragments] at htotal
    omega

end Numbers

section Calls

variable {R S A B E : Type} [Service S A B E]

def fragmentsFor (id : ConnectionId) (entries : List (Scheduled R Fragment)) : List Fragment :=
  (entries.map Scheduled.message).filter fun fragment => fragment.connectionId = id

/-- Nothing but fragments was queued, in one queue, and for each target they are those of the
payload. -/
def QueuesFragments (R : Type) [Queued R Fragment] (payload : Payload) (targets : List Target)
    (before after : Scheduler A) : Prop :=
  ∃ entries : List (Scheduled R Fragment), after = pushAll before entries ∧
    ∀ target ∈ targets, NumbersExactly payload (fragmentsFor target.1 entries)

def QueuesReliably (reliability : ReliabilityType) (payload : Payload) (targets : List Target)
    (before after : Scheduler A) : Prop :=
  match reliability with
  | .reliable => QueuesFragments Reliable payload targets before after
  | .unreliable => QueuesFragments Unreliable payload targets before after

/-- What a call of `schedule` that returned `Ok` owes the peers it was for, when the payload
has more than one chunk. -/
def CutsExactly (hash : RandomState) (reliability : ReliabilityType) (sendTo : SendTo)
    (payload : Payload) (protocol next : Protocol S) : Prop :=
  1 < (numberedChunks payload).length →
    ∃ targets, protocol.core.targets hash sendTo = .ok targets ∧
      QueuesReliably reliability payload targets protocol.core.scheduler next.core.scheduler

theorem fragmentsFor_entriesFor {targets : List Target}
    (hdistinct : (targets.map Prod.fst).Nodup) {target : Target} (hmem : target ∈ targets)
    (reliability : R) (packetId : PacketId) (time : Duration) (total : Nat)
    (chunks : List (Payload × Nat)) :
    fragmentsFor target.1
        (entriesFor reliability (fragmentMessage total) packetId time targets chunks) =
      chunks.map (fragmentMessage total target.1) := by
  have hfilter : fragmentsFor target.1
        (entriesFor reliability (fragmentMessage total) packetId time targets chunks) =
      chunks.flatMap fun chunk => (targets.filter fun other => other.1 = target.1).map
        fun other => fragmentMessage total other.1 chunk := by
    simp only [fragmentsFor, entriesFor, List.map_flatMap, List.filter_flatMap, List.map_map,
      List.filter_map]
    rfl
  rw [hfilter, filter_key hdistinct hmem, List.map_eq_flatMap]
  rfl

theorem targets_distinct {core : ServiceCore A B E} {hash : RandomState} {sendTo : SendTo}
    {targets : List Target} (hconnected : isEmpty core.connected = false)
    (h : core.targets hash sendTo = .ok targets) :
    (targets.map Prod.fst).Nodup ∧ targets ≠ [] := by
  unfold ServiceCore.targets at h
  cases sendTo with
  | single id =>
    dsimp only at h
    split at h
    · cases h
      exact ⟨List.nodup_singleton _, List.cons_ne_nil _ _⟩
    · contradiction
  | broadcast =>
    cases h
    let walk := hash.iterate core.connected
    constructor
    · rw [List.map_map]
      exact walk.nodup_keys
    · intro hnil
      have hempty := walk.isEmpty_iff.mpr (List.map_eq_nil_iff.mp hnil)
      rw [hempty] at hconnected
      contradiction

theorem queuesFragments_of_le [Queued R Fragment] {payload : Payload} {targets : List Target}
    (hcount : (numberedChunks payload).length ≤ 255) (hdistinct : (targets.map Prod.fst).Nodup)
    (before : Scheduler A) (reliability : R) (packetId : PacketId) (time : Duration) :
    QueuesFragments R payload targets before (pushAll before (entriesFor reliability
      (fragmentMessage (numberedChunks payload).length) packetId time targets
      (numberedChunks payload))) := by
  refine ⟨_, rfl, fun target hmem => ?_⟩
  rw [fragmentsFor_entriesFor hdistinct hmem]
  exact numbersExactly_of_le hcount target.1

theorem QueuesFragments.count_le [Queued R Fragment] {payload : Payload} {targets : List Target}
    {before after : Scheduler A} (h : QueuesFragments R payload targets before after)
    (htargets : targets ≠ []) : (numberedChunks payload).length ≤ 255 := by
  obtain ⟨entries, -, hentries⟩ := h
  obtain ⟨target, hmem⟩ := List.exists_mem_of_ne_nil targets htargets
  exact (hentries target hmem).count_le

theorem queuesReliably_queued {payload : Payload} {targets : List Target}
    (hmany : 1 < (numberedChunks payload).length) (hcount : (numberedChunks payload).length ≤ 255)
    (hdistinct : (targets.map Prod.fst).Nodup) (before : Scheduler A)
    (reliability : ReliabilityType) (packetId : PacketId) (time : Duration) :
    QueuesReliably reliability payload targets before (queued before reliability packetId time
      targets (numberedChunks payload).length (numberedChunks payload)) := by
  unfold queued
  rw [if_pos hmany]
  cases reliability with
  | reliable => exact queuesFragments_of_le hcount hdistinct _ _ _ _
  | unreliable => exact queuesFragments_of_le hcount hdistinct _ _ _ _

theorem QueuesReliably.count_le {reliability : ReliabilityType} {payload : Payload}
    {targets : List Target} {before after : Scheduler A}
    (h : QueuesReliably reliability payload targets before after) (htargets : targets ≠ []) :
    (numberedChunks payload).length ≤ 255 := by
  cases reliability with
  | reliable => exact QueuesFragments.count_le h htargets
  | unreliable => exact QueuesFragments.count_le h htargets

variable {protocol next : Protocol S} {hash : RandomState} {reliability : ReliabilityType}
  {sendTo : SendTo} {payload : Payload} {now : Duration} {packetId : PacketId}

theorem cutsExactly_of_le (hcount : (numberedChunks payload).length ≤ 255)
    (h : protocol.schedule hash reliability sendTo payload now = .ok (.ok packetId, next)) :
    CutsExactly hash reliability sendTo payload protocol next := by
  intro hmany
  rcases schedule_cases h with
    ⟨_, hfailed, -⟩ | ⟨targets, tracker, hconnected, htargets, -, -, hnext⟩
  · contradiction
  · have hscheduler : next.core.scheduler = queued protocol.core.scheduler reliability
        protocol.packetIdTracker now targets (numberedChunks payload).length
        (numberedChunks payload) := by
      rw [hnext]
      exact congrArg ServiceCore.scheduler (core_setCore _ _)
    rcases htargets with hnone | htargets
    · rw [hnone] at hmany
      contradiction
    · have hdistinct := (targets_distinct hconnected htargets).1
      refine ⟨targets, htargets, ?_⟩
      rw [hscheduler]
      exact queuesReliably_queued hmany hcount hdistinct _ _ _ _

theorem CutsExactly.count_le
    (h : protocol.schedule hash reliability sendTo payload now = .ok (.ok packetId, next))
    (hcuts : CutsExactly hash reliability sendTo payload protocol next) :
    (numberedChunks payload).length ≤ 255 := by
  by_contra hcount
  obtain ⟨targets, htargets, hqueues⟩ := hcuts (by omega)
  rcases schedule_cases h with ⟨_, hfailed, -⟩ | ⟨_, _, hconnected, -⟩
  · contradiction
  · exact hcount (hqueues.count_le (targets_distinct hconnected htargets).2)

/-- The fragments that a call queues are numbered exactly as long as 255 of them are enough. -/
theorem schedule_cuts_exactly_iff (protocol next : Protocol S) (hash : RandomState)
    (reliability : ReliabilityType) (sendTo : SendTo) (payload : Payload) (now : Duration)
    (packetId : PacketId)
    (h : protocol.schedule hash reliability sendTo payload now = .ok (.ok packetId, next)) :
    CutsExactly hash reliability sendTo payload protocol next ↔
      payload.length ≤ 255 * (maxFragmentSize - Message.headerSize Fragment) := by
  have hlength := length_numberedChunks payload
  constructor
  · intro hcuts
    have hcount := hcuts.count_le h
    change payload.length ≤ 255 * 1483
    omega
  · intro hshort
    change payload.length ≤ 255 * 1483 at hshort
    exact cutsExactly_of_le (by omega) h

end Calls

section Overlong

def overlongPayload : Payload := List.replicate (255 * 1483 + 1) 7

theorem connectedRun_schedules (payload : Payload) : ∃ next,
    connectedRun.net.antarc.schedule (Classical.arbitrary RandomState) .reliable .broadcast payload
      .zero = .ok (.ok 2, next) := by
  rw [schedule_one (S := Client) rfl (.inr rfl)]
  exact ⟨_, rfl⟩

theorem overlongPayload_cut :
    (clientRuns ieeeCrc32).Reachable connectedRun ∧ ∃ next,
      connectedRun.net.antarc.schedule (Classical.arbitrary RandomState) .reliable .broadcast
        overlongPayload .zero = .ok (.ok 2, next) ∧
      ¬CutsExactly (Classical.arbitrary RandomState) .reliable .broadcast overlongPayload
        connectedRun.net.antarc next := by
  obtain ⟨next, hnext⟩ := connectedRun_schedules overlongPayload
  refine ⟨connectedRun_reachable, next, hnext, fun hcuts => ?_⟩
  have hcount := hcuts.count_le hnext
  rw [length_numberedChunks, overlongPayload, List.length_replicate] at hcount
  omega

theorem twoChunks_cut_exactly : ∃ next,
    connectedRun.net.antarc.schedule (Classical.arbitrary RandomState) .reliable .broadcast
      (List.replicate 1484 7) .zero = .ok (.ok 2, next) ∧
    CutsExactly (Classical.arbitrary RandomState) .reliable .broadcast (List.replicate 1484 7)
      connectedRun.net.antarc next := by
  obtain ⟨next, hnext⟩ := connectedRun_schedules (List.replicate 1484 7)
  refine ⟨next, hnext, (schedule_cuts_exactly_iff _ _ _ _ _ _ _ _ hnext).mpr ?_⟩
  rw [List.length_replicate]
  decide

end Overlong

end Antarc.Properties
