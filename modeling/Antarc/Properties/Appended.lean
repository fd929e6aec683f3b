import Antarc.Properties.Answering
import Antarc.Properties.Cutting

/-! What a call appends to the queues, and whether `schedule` returns `Ok` exactly when it
has appended something for each peer it was for. -/
namespace Antarc.Properties

open Library

section Appending

/-- What has been appended to each of the six queues since `before`. -/
def appended (before after : Scheduler A) : Scheduler A where
  listScheduledReliableDataTransfer := after.listScheduledReliableDataTransfer.drop
    before.listScheduledReliableDataTransfer.length
  listScheduledUnreliableDataTransfer := after.listScheduledUnreliableDataTransfer.drop
    before.listScheduledUnreliableDataTransfer.length
  listScheduledReliableFragment := after.listScheduledReliableFragment.drop
    before.listScheduledReliableFragment.length
  listScheduledUnreliableFragment := after.listScheduledUnreliableFragment.drop
    before.listScheduledUnreliableFragment.length
  listScheduledReliableHeartbeat := after.listScheduledReliableHeartbeat.drop
    before.listScheduledReliableHeartbeat.length
  listScheduledUnreliableHeartbeat := after.listScheduledUnreliableHeartbeat.drop
    before.listScheduledUnreliableHeartbeat.length
  service := after.service

/-- No queue has lost an entry or had one put before its last. -/
structure Extends (before after : Scheduler A) : Prop where
  reliableDataTransfer :
    before.listScheduledReliableDataTransfer <+: after.listScheduledReliableDataTransfer
  unreliableDataTransfer :
    before.listScheduledUnreliableDataTransfer <+: after.listScheduledUnreliableDataTransfer
  reliableFragment : before.listScheduledReliableFragment <+: after.listScheduledReliableFragment
  unreliableFragment :
    before.listScheduledUnreliableFragment <+: after.listScheduledUnreliableFragment
  reliableHeartbeat : before.listScheduledReliableHeartbeat <+: after.listScheduledReliableHeartbeat
  unreliableHeartbeat :
    before.listScheduledUnreliableHeartbeat <+: after.listScheduledUnreliableHeartbeat

def entriesOf (scheduler : Scheduler A) : List QueueEntry :=
  (queues scheduler).flatten

@[simp] theorem appended_self (scheduler : Scheduler A) :
    appended scheduler scheduler = .new scheduler.service := by
  simp [appended, Scheduler.new]

@[simp] theorem entriesOf_new (service : A) : entriesOf (.new service) = [] :=
  rfl

theorem Extends.refl (scheduler : Scheduler A) : Extends scheduler scheduler :=
  ⟨List.prefix_rfl, List.prefix_rfl, List.prefix_rfl, List.prefix_rfl, List.prefix_rfl,
    List.prefix_rfl⟩

variable (scheduler : Scheduler A) (reliability : ReliabilityType) (packetId : PacketId)
  (time : Duration) (targets : List Target) (total : Nat) (chunks : List (Payload × Nat))

theorem extends_queued :
    Extends scheduler (queued scheduler reliability packetId time targets total chunks) := by
  unfold queued
  split <;> cases reliability <;>
    exact ⟨by simp [pushAll, Queued.setQueue, Queued.queue], by simp [pushAll, Queued.setQueue,
      Queued.queue], by simp [pushAll, Queued.setQueue, Queued.queue], by simp [pushAll,
      Queued.setQueue, Queued.queue], List.prefix_rfl, List.prefix_rfl⟩

theorem extends_beaten :
    Extends scheduler (beaten scheduler reliability packetId time targets) := by
  cases reliability <;>
    exact ⟨List.prefix_rfl, List.prefix_rfl, List.prefix_rfl, List.prefix_rfl, by simp [beaten,
      pushAll, Queued.setQueue, Queued.queue], by simp [beaten, pushAll, Queued.setQueue,
      Queued.queue]⟩

theorem appended_queued :
    appended scheduler (queued scheduler reliability packetId time targets total chunks) =
      queued (.new scheduler.service) reliability packetId time targets total chunks := by
  unfold queued
  split <;> cases reliability <;>
    simp [appended, pushAll, Queued.setQueue, Queued.queue, Scheduler.new]

theorem appended_beaten :
    appended scheduler (beaten scheduler reliability packetId time targets) =
      beaten (.new scheduler.service) reliability packetId time targets := by
  cases reliability <;>
    simp [appended, beaten, pushAll, Queued.setQueue, Queued.queue, Scheduler.new]

theorem map_entryOf_entriesFor {R M : Type} [Sendable M] [Bodied M] (reliability : R)
    (message : ConnectionId → Payload × Nat → M) (packetId : PacketId) (time : Duration)
    (targets : List Target) (chunks : List (Payload × Nat)) :
    (entriesFor reliability message packetId time targets chunks).map entryOf =
      chunks.flatMap fun chunk => targets.map fun target =>
        ⟨packetId, target.2, Bodied.body (message target.1 chunk)⟩ := by
  simp only [entriesFor, List.map_flatMap, List.map_map, Function.comp_def, entryOf]

def chunkBody (total : Nat) (id : ConnectionId) (chunk : Payload × Nat) : Body :=
  if total > 1 then .fragment (fragmentMessage total id chunk)
  else .dataTransfer (dataTransferMessage id chunk)

theorem entriesOf_queued (service : A) :
    entriesOf (queued (.new service) reliability packetId time targets total chunks) =
      chunks.flatMap fun chunk => targets.map fun target =>
        ⟨packetId, target.2, chunkBody total target.1 chunk⟩ := by
  have hfragments : ∀ {R : Type} (reliability : R),
      (entriesFor reliability (fragmentMessage total) packetId time targets chunks).map entryOf =
        chunks.flatMap fun chunk => targets.map fun target =>
          ⟨packetId, target.2, .fragment (fragmentMessage total target.1 chunk)⟩ :=
    fun reliability => map_entryOf_entriesFor reliability _ packetId time targets chunks
  have htransfers : ∀ {R : Type} (reliability : R),
      (entriesFor reliability dataTransferMessage packetId time targets chunks).map entryOf =
        chunks.flatMap fun chunk => targets.map fun target =>
          ⟨packetId, target.2, .dataTransfer (dataTransferMessage target.1 chunk)⟩ :=
    fun reliability => map_entryOf_entriesFor reliability _ packetId time targets chunks
  unfold queued chunkBody
  split <;> cases reliability <;>
    simp [entriesOf, queues, pushAll, Queued.setQueue, Queued.queue, Scheduler.new, hfragments,
      htransfers]

theorem entriesOf_beaten (service : A) :
    entriesOf (beaten (.new service) reliability packetId time targets) =
      targets.map fun target => ⟨packetId, target.2, .heartbeat (.new target.1)⟩ := by
  cases reliability <;>
    simp [entriesOf, beaten, entriesFor, queues, pushAll, Queued.setQueue, Queued.queue,
      Scheduler.new, Function.comp_def, entryOf, heartbeatMessage, Bodied.body]

end Appending

section Outcomes

variable {S A B E : Type} [Service S A B E]

def IsFor (core : ServiceCore A B E) (sendTo : SendTo) (id : ConnectionId) : Prop :=
  match sendTo with
  | .single target => id = target
  | .broadcast => id ∈ core.connected

def NamesStranger (core : ServiceCore A B E) (sendTo : SendTo) : Prop :=
  ∃ id, sendTo = .single id ∧ id ∉ core.connected

/-- What `schedule` owes its caller: an error where there is nobody to send to, which
leaves the state as it was, and otherwise an entry for each peer that the call is for. -/
structure ScheduleOutcome (protocol : Protocol S) (sendTo : SendTo) (result : Result PacketId)
    (next : Protocol S) : Prop where
  nobody : result = .error .noPeersConnected ↔ isEmpty protocol.core.connected = true
  stranger : isEmpty protocol.core.connected = false → ∀ id,
    (result = .error (.scheduledNotConnected id) ↔
      sendTo = .single id ∧ id ∉ protocol.core.connected)
  succeeds : isEmpty protocol.core.connected = false → ¬NamesStranger protocol.core sendTo →
    (∃ packetId, result = .ok packetId) ∧ ∀ id, IsFor protocol.core sendTo id →
      ∃ entry ∈ entriesOf (appended protocol.core.scheduler next.core.scheduler),
        entry.body.connection = some id
  fails : ∀ error, result = .error error → next = protocol

variable {protocol next : Protocol S} {hash : RandomState} {sendTo : SendTo} {payload : Payload}

theorem numberedChunks_eq_nil : numberedChunks payload = [] ↔ payload = [] := by
  rw [← List.length_eq_zero_iff, length_numberedChunks, ← List.length_eq_zero_iff]
  omega

theorem targets_eq_error {core : ServiceCore A B E} {error : ProtocolError} :
    core.targets hash sendTo = .error error ↔
      ∃ id, sendTo = .single id ∧ id ∉ core.connected ∧ error = .scheduledNotConnected id := by
  unfold ServiceCore.targets
  cases sendTo with
  | broadcast => simp
  | single id =>
    dsimp only
    split
    · next peer hfound =>
      have hmem : id ∈ core.connected := Finmap.mem_of_lookup_eq_some hfound
      simp [hmem]
    · next hnone =>
      have hmem : id ∉ core.connected := Finmap.lookup_eq_none.mp hnone
      simp [hmem, eq_comm]

theorem targets_of_no_stranger {core : ServiceCore A B E} (hash : RandomState)
    (h : ¬NamesStranger core sendTo) :
    ∃ targets, core.targets hash sendTo = .ok targets := by
  cases htargets : core.targets hash sendTo with
  | ok targets => exact ⟨targets, rfl⟩
  | error error =>
    obtain ⟨id, hsendTo, hmem, -⟩ := targets_eq_error.mp htargets
    exact absurd ⟨id, hsendTo, hmem⟩ h

theorem IsFor.mem_targets {core : ServiceCore A B E} {id : ConnectionId} {targets : List Target}
    (h : IsFor core sendTo id) (htargets : core.targets hash sendTo = .ok targets) :
    ∃ address, (id, address) ∈ targets := by
  unfold ServiceCore.targets at htargets
  cases sendTo with
  | single target =>
    dsimp only at htargets
    split at htargets
    · cases htargets
      exact ⟨_, by rw [show id = target from h]; exact List.mem_singleton_self _⟩
    · contradiction
  | broadcast =>
    cases htargets
    obtain ⟨peer, hfound⟩ := Finmap.mem_iff.mp h
    exact ⟨peer.address, List.mem_map.mpr
      ⟨⟨id, peer⟩, ((hash.iterate core.connected).mem_iff id peer).mpr hfound, rfl⟩⟩

theorem scheduleOutcome_of_stranger (hconnected : isEmpty protocol.core.connected = false)
    {id : ConnectionId} (hmem : id ∉ protocol.core.connected) :
    ScheduleOutcome protocol (.single id) (.error (.scheduledNotConnected id)) protocol where
  nobody := by simp [hconnected]
  stranger _ other := by
    constructor
    · rintro ⟨⟩
      exact ⟨rfl, hmem⟩
    · rintro ⟨⟨⟩, -⟩
      rfl
  succeeds _ hstranger := absurd ⟨id, rfl, hmem⟩ hstranger
  fails _ _ := rfl

theorem scheduleOutcome_of_counted (hconnected : isEmpty protocol.core.connected = false)
    (hstranger : ¬NamesStranger protocol.core sendTo) {targets : List Target}
    (htargets : protocol.core.targets hash sendTo = .ok targets) (hpayload : payload ≠ [])
    (reliability : ReliabilityType) (now : Duration) (packetId : PacketId) :
    ScheduleOutcome protocol sendTo (.ok packetId)
      (queuedFor protocol reliability targets payload now packetId) where
  nobody := by simp [hconnected]
  stranger _ id := by
    constructor
    · intro h
      contradiction
    · rintro ⟨hsendTo, hmem⟩
      exact absurd ⟨id, hsendTo, hmem⟩ hstranger
  succeeds _ _ := by
    refine ⟨⟨packetId, rfl⟩, fun id hfor => ?_⟩
    obtain ⟨chunk, hchunk⟩ :=
      List.exists_mem_of_ne_nil _ (mt numberedChunks_eq_nil.mp hpayload)
    obtain ⟨address, htarget⟩ := hfor.mem_targets htargets
    rw [core_queuedFor, appended_queued, entriesOf_queued]
    refine ⟨_, List.mem_flatMap.mpr ⟨chunk, hchunk, List.mem_map_of_mem htarget⟩, ?_⟩
    unfold chunkBody
    split <;> rfl
  fails _ h := by contradiction

theorem exists_isFor {core : ServiceCore A B E} (hconnected : isEmpty core.connected = false)
    (sendTo : SendTo) : ∃ id, IsFor core sendTo id := by
  cases sendTo with
  | single id => exact ⟨id, rfl⟩
  | broadcast =>
    by_contra hnone
    have hempty : isEmpty core.connected = true := by
      rw [isEmpty, decide_eq_true_eq, Finset.eq_empty_iff_forall_notMem]
      exact fun id hmem => hnone ⟨id, hmem⟩
    rw [hempty] at hconnected
    contradiction

/-- An empty payload has no chunk, so its target is not looked up and nothing is queued. -/
theorem not_scheduleOutcome_nil (hconnected : isEmpty protocol.core.connected = false)
    (reliability : ReliabilityType) (now : Duration) :
    ¬∃ result next, protocol.schedule hash reliability sendTo [] now = .ok (result, next) ∧
      ScheduleOutcome protocol sendTo result next := by
  rintro ⟨result, next, hcall, outcome⟩
  have hnone : numberedChunks [] = [] ∨ protocol.core.targets hash sendTo = .ok [] := .inl rfl
  rw [schedule_counts hconnected hnone] at hcall
  obtain ⟨packetId, -, hpure⟩ := bind_eq_ok.mp hcall
  cases hpure
  by_cases hstranger : NamesStranger protocol.core sendTo
  · obtain ⟨id, hnames⟩ := hstranger
    cases (outcome.stranger hconnected id).mpr hnames
  · obtain ⟨id, hfor⟩ := exists_isFor hconnected sendTo
    obtain ⟨entry, hentry, -⟩ := (outcome.succeeds hconnected hstranger).2 id hfor
    rw [core_queuedFor, appended_queued, entriesOf_queued, numberedChunks_eq_nil.mpr rfl] at hentry
    contradiction

theorem addU64_one_lt_iff {n : UInt64} :
    (∃ sum, addU64 n 1 = .ok sum) ↔ n.toNat + 1 < UInt64.size := by
  have hbound : n.toNat < UInt64.size := n.toNat_lt
  rw [addU64_one_iff]
  omega

/-- `schedule` returns what it owes exactly when nobody is connected, or there is something to
send and either the target is a stranger or the call can be counted. -/
theorem schedule_outcome_iff (protocol : Protocol S) (hash : RandomState)
    (reliability : ReliabilityType) (sendTo : SendTo) (payload : Payload) (now : Duration) :
    (∃ result next, protocol.schedule hash reliability sendTo payload now = .ok (result, next) ∧
      ScheduleOutcome protocol sendTo result next) ↔
    isEmpty protocol.core.connected = true ∨ payload ≠ [] ∧
      (NamesStranger protocol.core sendTo ∨ protocol.packetIdTracker.toNat + 1 < UInt64.size) := by
  cases hconnected : isEmpty protocol.core.connected with
  | true =>
    refine iff_of_true ⟨_, _, schedule_of_nobody hconnected payload, ?_⟩ (.inl rfl)
    exact ⟨by simp [hconnected], by simp [hconnected], by simp [hconnected], fun _ _ => rfl⟩
  | false =>
    rw [or_iff_right Bool.false_ne_true]
    by_cases hpayload : payload = []
    · subst hpayload
      exact iff_of_false (not_scheduleOutcome_nil hconnected _ _) fun h => h.1 rfl
    · rw [and_iff_right hpayload]
      by_cases hstranger : NamesStranger protocol.core sendTo
      · obtain ⟨id, rfl, hmem⟩ := hstranger
        refine iff_of_true ⟨_, _, schedule_of_error hconnected
          (targets_eq_error.mpr ⟨id, rfl, hmem, rfl⟩) (mt numberedChunks_eq_nil.mp hpayload),
          scheduleOutcome_of_stranger hconnected hmem⟩ (.inl ⟨id, rfl, hmem⟩)
      · rw [or_iff_right hstranger, ← addU64_one_lt_iff]
        obtain ⟨targets, htargets⟩ := targets_of_no_stranger hash hstranger
        rw [schedule_counts hconnected (.inr htargets)]
        constructor
        · rintro ⟨result, next, hcall, -⟩
          obtain ⟨packetId, hcounted, -⟩ := bind_eq_ok.mp hcall
          exact ⟨packetId, hcounted⟩
        · rintro ⟨packetId, hcounted⟩
          rw [hcounted]
          exact ⟨_, _, rfl,
            scheduleOutcome_of_counted hconnected hstranger htargets hpayload _ _ _⟩

/-- A client calls `schedule` with nothing to send, for a server it is not connected to. -/
theorem empty_payload_outcome : (clientRuns ieeeCrc32).Reachable connectedRun ∧
    (∃ next, connectedRun.net.antarc.schedule (Classical.arbitrary RandomState) .reliable
      (.single .two) [] .zero = .ok (.ok 2, next)) ∧
    NamesStranger connectedRun.net.antarc.core (.single .two) ∧
    ¬∃ result next, connectedRun.net.antarc.schedule (Classical.arbitrary RandomState) .reliable
      (.single .two) [] .zero = .ok (result, next) ∧
      ScheduleOutcome connectedRun.net.antarc (.single .two) result next := by
  have hnone : numberedChunks [] = [] ∨ connectedRun.net.antarc.core.targets
    (Classical.arbitrary RandomState) (.single .two) = .ok [] := .inl rfl
  refine ⟨connectedRun_reachable, ?_, ⟨.two, rfl, ?_⟩, not_scheduleOutcome_nil rfl _ _⟩
  · rw [schedule_counts rfl hnone]
    exact ⟨_, rfl⟩
  · exact Finmap.lookup_eq_none.mp rfl

end Outcomes

end Antarc.Properties
