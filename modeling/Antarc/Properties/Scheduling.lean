import Antarc.Protocol.Operations

/-! What `schedule` and `heartbeat` leave in the queues. The targets of a call do not
change while it runs, so its loops are one append to one queue. -/
namespace Antarc.Properties

open Library

section Queues

variable {R M S : Type} [Queued R M]

def pushAll (scheduler : Scheduler S) (entries : List (Scheduled R M)) : Scheduler S :=
  Queued.setQueue scheduler (Queued.queue scheduler ++ entries)

@[simp] theorem pushAll_nil (scheduler : Scheduler S) :
    pushAll scheduler ([] : List (Scheduled R M)) = scheduler := by
  simp [pushAll]

theorem pushAll_append (scheduler : Scheduler S) (first second : List (Scheduled R M)) :
    pushAll scheduler (first ++ second) = pushAll (pushAll scheduler first) second := by
  simp [pushAll]

@[simp] theorem queue_pushAll (scheduler : Scheduler S) (entries : List (Scheduled R M)) :
    Queued.queue (pushAll scheduler entries) = Queued.queue scheduler ++ entries :=
  Queued.queue_setQueue _ _

theorem foldl_push (entry : α → Scheduled R M) (items : List α) (scheduler : Scheduler S) :
    items.foldl (fun scheduler item => scheduler.push (entry item)) scheduler =
      pushAll scheduler (items.map entry) := by
  induction items generalizing scheduler with
  | nil => simp
  | cons item rest ih =>
    rw [List.foldl_cons, ih, List.map_cons, ← List.singleton_append, pushAll_append]
    rfl

theorem foldl_foldl_push (entry : α → β → Scheduled R M) (outer : List α) (inner : List β)
    (scheduler : Scheduler S) :
    outer.foldl (fun scheduler a => inner.foldl (fun scheduler b =>
      scheduler.push (entry a b)) scheduler) scheduler =
      pushAll scheduler (outer.flatMap fun a => inner.map (entry a)) := by
  induction outer generalizing scheduler with
  | nil => simp
  | cons a rest ih => rw [List.foldl_cons, foldl_push, ih, List.flatMap_cons, pushAll_append]

end Queues

abbrev Target := ConnectionId × SocketAddr

/-- The entries of one call, chunk by chunk and within a chunk target by target. -/
def entriesFor (reliability : R) (message : ConnectionId → Payload × Nat → M)
    (packetId : PacketId) (time : Duration) (targets : List Target)
    (chunks : List (Payload × Nat)) : List (Scheduled R M) :=
  chunks.flatMap fun chunk => targets.map fun target =>
    ⟨packetId, target.2, time, reliability, message target.1 chunk⟩

theorem entriesFor_one {R M : Type} (reliability : R) (message : ConnectionId → Payload × Nat → M)
    (packetId : PacketId) (time : Duration) (id : ConnectionId) (address : SocketAddr)
    (chunks : List (Payload × Nat)) :
    entriesFor reliability message packetId time [(id, address)] chunks =
      chunks.map fun chunk => ⟨packetId, address, time, reliability, message id chunk⟩ := by
  induction chunks with
  | nil => rfl
  | cons chunk rest ih =>
    unfold entriesFor at ih ⊢
    rw [List.flatMap_cons, ih]
    rfl

def fragmentMessage (total : Nat) (connectionId : ConnectionId) (chunk : Payload × Nat) :
    Fragment :=
  .new connectionId chunk.1 chunk.2 total

def dataTransferMessage (connectionId : ConnectionId) (chunk : Payload × Nat) : DataTransfer :=
  .new connectionId chunk.1

def queued (scheduler : Scheduler S) (reliability : ReliabilityType) (packetId : PacketId)
    (time : Duration) (targets : List Target) (total : Nat) (chunks : List (Payload × Nat)) :
    Scheduler S :=
  if total > 1 then
    match reliability with
    | .reliable => pushAll scheduler
        (entriesFor ({} : Reliable) (fragmentMessage total) packetId time targets chunks)
    | .unreliable => pushAll scheduler
        (entriesFor ({} : Unreliable) (fragmentMessage total) packetId time targets chunks)
  else
    match reliability with
    | .reliable => pushAll scheduler
        (entriesFor ({} : Reliable) dataTransferMessage packetId time targets chunks)
    | .unreliable => pushAll scheduler
        (entriesFor ({} : Unreliable) dataTransferMessage packetId time targets chunks)

def heartbeatMessage (connectionId : ConnectionId) (_ : Payload × Nat) : Heartbeat :=
  .new connectionId

def beaten (scheduler : Scheduler S) (reliability : ReliabilityType) (packetId : PacketId)
    (time : Duration) (targets : List Target) : Scheduler S :=
  match reliability with
  | .reliable => pushAll scheduler
      (entriesFor ({} : Reliable) heartbeatMessage packetId time targets [([], 0)])
  | .unreliable => pushAll scheduler
      (entriesFor ({} : Unreliable) heartbeatMessage packetId time targets [([], 0)])

theorem queued_eq (scheduler : Scheduler S) (reliability : ReliabilityType) (packetId : PacketId)
    (time : Duration) (targets : List Target) (total : Nat) (chunks : List (Payload × Nat)) :
    chunks.foldl (fun scheduler chunk => targets.foldl (fun scheduler target =>
      scheduler.scheduleForConnectedPeer target.2 chunk.1 reliability target.1 packetId time
        chunk.2 total) scheduler) scheduler =
      queued scheduler reliability packetId time targets total chunks := by
  unfold queued Scheduler.scheduleForConnectedPeer
  split <;> cases reliability <;> exact foldl_foldl_push _ _ _ _

theorem beaten_eq (scheduler : Scheduler S) (reliability : ReliabilityType) (packetId : PacketId)
    (time : Duration) (targets : List Target) :
    targets.foldl (fun scheduler target =>
      scheduler.heartbeatForConnectedPeer target.2 reliability target.1 packetId time) scheduler =
      beaten scheduler reliability packetId time targets := by
  cases reliability with
  | reliable =>
    exact foldl_foldl_push (fun (_ : Payload × Nat) (target : Target) =>
      (⟨packetId, target.2, time, {}, .new target.1⟩ : Scheduled Reliable Heartbeat))
      [([], 0)] targets scheduler
  | unreliable =>
    exact foldl_foldl_push (fun (_ : Payload × Nat) (target : Target) =>
      (⟨packetId, target.2, time, {}, .new target.1⟩ : Scheduled Unreliable Heartbeat))
      [([], 0)] targets scheduler

section Core

variable {A B E : Type} {core : ServiceCore A B E} {hash : RandomState} {sendTo : SendTo}

theorem targets_congr {first second : ServiceCore A B E} (h : first.connected = second.connected) :
    first.targets hash sendTo = second.targets hash sendTo := by
  unfold ServiceCore.targets
  rw [h]

theorem foldl_scheduler (update : Scheduler A → α → Scheduler A) (items : List α)
    (core : ServiceCore A B E) :
    items.foldl (fun core item => { core with scheduler := update core.scheduler item }) core =
      { core with scheduler := items.foldl update core.scheduler } := by
  induction items generalizing core with
  | nil => rfl
  | cons item rest ih => rw [List.foldl_cons, ih, List.foldl_cons]

/-- Every chunk finds the same targets, so the loop queues all of them for each. -/
theorem scheduleChunks_ok {targets : List Target} (h : core.targets hash sendTo = .ok targets)
    (reliability : ReliabilityType) (packetId : PacketId) (time : Duration) (total : Nat)
    (chunks : List (Payload × Nat)) :
    core.scheduleChunks hash reliability sendTo packetId time total chunks =
      (.ok (), { core with
        scheduler := queued core.scheduler reliability packetId time targets total chunks }) := by
  rw [← queued_eq]
  induction chunks generalizing core with
  | nil => rfl
  | cons chunk rest ih =>
    rw [ServiceCore.scheduleChunks, h]
    have hstep := foldl_scheduler (fun scheduler (target : Target) =>
      scheduler.scheduleForConnectedPeer target.2 chunk.1 reliability target.1 packetId time
        chunk.2 total) targets core
    have hnext := (targets_congr rfl).trans h
    exact (congrArg (fun core : ServiceCore A B E => core.scheduleChunks hash reliability sendTo
      packetId time total rest) hstep).trans (ih hnext)

end Core

def numberedChunks (payload : Payload) : List (Payload × Nat) :=
  (chunks (maxFragmentSize - Message.headerSize Fragment) payload).zipIdx

section Calls

variable {S A B E : Type} [Service S A B E] {protocol next : Protocol S} {hash : RandomState}
  {reliability : ReliabilityType} {sendTo : SendTo} {now : Duration}

@[simp] theorem core_setCore (protocol : Protocol S) (core : ServiceCore A B E) :
    (protocol.setCore core).core = core :=
  Service.core_setCore _ _

@[simp] theorem setCore_core (protocol : Protocol S) : protocol.setCore protocol.core = protocol := by
  unfold Protocol.setCore Protocol.core
  rw [Service.setCore_core]

def queuedFor (protocol : Protocol S) (reliability : ReliabilityType) (targets : List Target)
    (payload : Payload) (now : Duration) (packetId : PacketId) : Protocol S :=
  { protocol.setCore { protocol.core with
      scheduler := queued protocol.core.scheduler reliability protocol.packetIdTracker now targets
        (numberedChunks payload).length (numberedChunks payload) } with
    packetIdTracker := packetId }

def beatenFor (protocol : Protocol S) (reliability : ReliabilityType) (targets : List Target)
    (now : Duration) (packetId : PacketId) : Protocol S :=
  { protocol.setCore { protocol.core with
      scheduler := beaten protocol.core.scheduler reliability protocol.packetIdTracker now
        targets } with
    packetIdTracker := packetId }

theorem core_queuedFor (targets : List Target) (payload : Payload) (packetId : PacketId) :
    (queuedFor protocol reliability targets payload now packetId).core = { protocol.core with
      scheduler := queued protocol.core.scheduler reliability protocol.packetIdTracker now targets
        (numberedChunks payload).length (numberedChunks payload) } :=
  core_setCore _ _

theorem core_beatenFor (targets : List Target) (packetId : PacketId) :
    (beatenFor protocol reliability targets now packetId).core = { protocol.core with
      scheduler := beaten protocol.core.scheduler reliability protocol.packetIdTracker now
        targets } :=
  core_setCore _ _

theorem countPacket_of_helper (core : ServiceCore A B E) :
    (addU64 protocol.packetIdTracker 1 >>= fun next =>
        pure (.ok next, protocol.setCore core)) >>= Protocol.countPacket =
      (addU64 protocol.packetIdTracker 1 >>= fun packetId =>
        pure (.ok packetId, { protocol.setCore core with packetIdTracker := packetId })) := by
  cases htracker : addU64 protocol.packetIdTracker 1 with
  | error panic => rfl
  | ok tracker =>
    have hcounted : addU64 (protocol.setCore core).packetIdTracker 1 = .ok tracker := htracker
    simp only [ok_bind, pure_bind, Protocol.countPacket, hcounted]

theorem schedule_of_nobody (hnobody : isEmpty protocol.core.connected = true)
    (payload : Payload) : protocol.schedule hash reliability sendTo payload now =
      .ok (.error .noPeersConnected, protocol) := by
  unfold Protocol.schedule Protocol.scheduleHelper
  rw [if_pos hnobody]
  rfl

theorem heartbeat_of_nobody (hnobody : isEmpty protocol.core.connected = true) :
    protocol.heartbeat hash reliability sendTo now =
      .ok (.error .noPeersConnected, protocol) := by
  unfold Protocol.heartbeat Protocol.heartbeatHelper
  rw [if_pos hnobody]
  rfl

/-- The first chunk is where the target is found to be missing. -/
theorem schedule_of_error (hconnected : isEmpty protocol.core.connected = false)
    {error : ProtocolError} (htargets : protocol.core.targets hash sendTo = .error error)
    {payload : Payload} (hchunks : numberedChunks payload ≠ []) :
    protocol.schedule hash reliability sendTo payload now = .ok (.error error, protocol) := by
  obtain ⟨chunk, rest, hcons⟩ := List.exists_cons_of_ne_nil hchunks
  have hloop : protocol.core.scheduleChunks hash reliability sendTo protocol.packetIdTracker now
      (numberedChunks payload).length (numberedChunks payload) = (.error error, protocol.core) := by
    rw [hcons, ServiceCore.scheduleChunks, htargets]
  unfold Protocol.schedule Protocol.scheduleHelper
  rw [if_neg (by simp [hconnected])]
  simp only [numberedChunks] at hloop
  simp only [hloop, setCore_core]
  rfl

theorem heartbeat_of_error (hconnected : isEmpty protocol.core.connected = false)
    {error : ProtocolError} (htargets : protocol.core.targets hash sendTo = .error error) :
    protocol.heartbeat hash reliability sendTo now = .ok (.error error, protocol) := by
  unfold Protocol.heartbeat Protocol.heartbeatHelper
  rw [if_neg (by simp [hconnected]), htargets]
  rfl

theorem schedule_counts (hconnected : isEmpty protocol.core.connected = false)
    {targets : List Target} {payload : Payload}
    (htargets : numberedChunks payload = [] ∨ protocol.core.targets hash sendTo = .ok targets) :
    protocol.schedule hash reliability sendTo payload now =
      (addU64 protocol.packetIdTracker 1 >>= fun packetId =>
        pure (.ok packetId, queuedFor protocol reliability targets payload now packetId)) := by
  have hloop : protocol.core.scheduleChunks hash reliability sendTo protocol.packetIdTracker now
      (numberedChunks payload).length (numberedChunks payload) = (.ok (), { protocol.core with
        scheduler := queued protocol.core.scheduler reliability protocol.packetIdTracker now
          targets (numberedChunks payload).length (numberedChunks payload) }) := by
    rcases htargets with hnone | htargets
    · rw [hnone, ← queued_eq]
      rfl
    · exact scheduleChunks_ok htargets _ _ _ _ _
  refine Eq.trans ?_ (countPacket_of_helper _)
  unfold Protocol.schedule Protocol.scheduleHelper
  rw [if_neg (by simp [hconnected])]
  simp only [numberedChunks] at hloop
  simp only [hloop]
  rfl

theorem heartbeat_counts (hconnected : isEmpty protocol.core.connected = false)
    {targets : List Target} (htargets : protocol.core.targets hash sendTo = .ok targets) :
    protocol.heartbeat hash reliability sendTo now =
      (addU64 protocol.packetIdTracker 1 >>= fun packetId =>
        pure (.ok packetId, beatenFor protocol reliability targets now packetId)) := by
  have hbeats := foldl_scheduler (fun scheduler (target : Target) =>
    scheduler.heartbeatForConnectedPeer target.2 reliability target.1
      protocol.packetIdTracker now) targets protocol.core
  rw [beaten_eq] at hbeats
  refine Eq.trans ?_ (countPacket_of_helper _)
  unfold Protocol.heartbeat Protocol.heartbeatHelper
  rw [if_neg (by simp [hconnected]), htargets]
  simp only [ServiceCore.scheduleBeat, hbeats]

/-- A call of `schedule` fails and changes nothing, or queues its chunks and counts itself. -/
theorem schedule_cases {payload : Payload} {result : Result PacketId}
    (h : protocol.schedule hash reliability sendTo payload now = .ok (result, next)) :
    (∃ error, result = .error error ∧ next = protocol) ∨
      ∃ targets tracker, isEmpty protocol.core.connected = false ∧
        (numberedChunks payload = [] ∨ protocol.core.targets hash sendTo = .ok targets) ∧
        addU64 protocol.packetIdTracker 1 = .ok tracker ∧ result = .ok tracker ∧
        next = { protocol.setCore { protocol.core with
          scheduler := queued protocol.core.scheduler reliability protocol.packetIdTracker now
            targets (numberedChunks payload).length (numberedChunks payload) } with
          packetIdTracker := tracker } := by
  cases hempty : isEmpty protocol.core.connected with
  | true =>
    cases (schedule_of_nobody hempty payload).symm.trans h
    exact .inl ⟨_, rfl, rfl⟩
  | false =>
    have hcounts : ∀ targets, (numberedChunks payload = [] ∨
        protocol.core.targets hash sendTo = .ok targets) →
        ∃ tracker, addU64 protocol.packetIdTracker 1 = .ok tracker ∧ result = .ok tracker ∧
          next = queuedFor protocol reliability targets payload now tracker := by
      intro targets htargets
      obtain ⟨tracker, htracker, hpure⟩ :=
        bind_eq_ok.mp ((schedule_counts hempty htargets).symm.trans h)
      cases hpure
      exact ⟨tracker, htracker, rfl, rfl⟩
    cases htargets : protocol.core.targets hash sendTo with
    | ok targets =>
      obtain ⟨tracker, hcounted⟩ := hcounts targets (.inr htargets)
      exact .inr ⟨targets, tracker, rfl, .inr rfl, hcounted⟩
    | error error =>
      by_cases hchunks : numberedChunks payload = []
      · obtain ⟨tracker, hcounted⟩ := hcounts [] (.inl hchunks)
        exact .inr ⟨[], tracker, rfl, .inl hchunks, hcounted⟩
      · cases (schedule_of_error hempty htargets hchunks).symm.trans h
        exact .inl ⟨_, rfl, rfl⟩

theorem heartbeat_cases {result : Result PacketId}
    (h : protocol.heartbeat hash reliability sendTo now = .ok (result, next)) :
    (∃ error, result = .error error ∧ next = protocol) ∨
      ∃ targets tracker, isEmpty protocol.core.connected = false ∧
        protocol.core.targets hash sendTo = .ok targets ∧
        addU64 protocol.packetIdTracker 1 = .ok tracker ∧ result = .ok tracker ∧
        next = { protocol.setCore { protocol.core with
          scheduler := beaten protocol.core.scheduler reliability protocol.packetIdTracker now
            targets } with packetIdTracker := tracker } := by
  cases hempty : isEmpty protocol.core.connected with
  | true =>
    cases (heartbeat_of_nobody hempty).symm.trans h
    exact .inl ⟨_, rfl, rfl⟩
  | false =>
    cases htargets : protocol.core.targets hash sendTo with
    | error error =>
      cases (heartbeat_of_error hempty htargets).symm.trans h
      exact .inl ⟨_, rfl, rfl⟩
    | ok targets =>
      obtain ⟨tracker, htracker, hpure⟩ :=
        bind_eq_ok.mp ((heartbeat_counts hempty htargets).symm.trans h)
      cases hpure
      exact .inr ⟨targets, tracker, rfl, rfl, htracker, rfl, rfl⟩

end Calls

end Antarc.Properties
