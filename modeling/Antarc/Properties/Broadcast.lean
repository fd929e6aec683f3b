import Antarc.Properties.Calls
import Antarc.Properties.Fragments

/-! A broadcast does for each peer what a call for that peer alone does. Whatever order it
reaches the peers in, the entries it appends for one of them are the same. -/
namespace Antarc.Properties

open Library

section Entries

variable {R M : Type} [Carried M]

def entriesAt (id : ConnectionId) (queue : List (Scheduled R M)) : List (Scheduled R M) :=
  queue.filter fun entry => Carried.connectionId entry.message = id

structure SameAt (id : ConnectionId) (first second : Scheduler A) : Prop where
  reliableDataTransfer : entriesAt id first.listScheduledReliableDataTransfer =
    entriesAt id second.listScheduledReliableDataTransfer
  unreliableDataTransfer : entriesAt id first.listScheduledUnreliableDataTransfer =
    entriesAt id second.listScheduledUnreliableDataTransfer
  reliableFragment : entriesAt id first.listScheduledReliableFragment =
    entriesAt id second.listScheduledReliableFragment
  unreliableFragment : entriesAt id first.listScheduledUnreliableFragment =
    entriesAt id second.listScheduledUnreliableFragment
  reliableHeartbeat : entriesAt id first.listScheduledReliableHeartbeat =
    entriesAt id second.listScheduledReliableHeartbeat
  unreliableHeartbeat : entriesAt id first.listScheduledUnreliableHeartbeat =
    entriesAt id second.listScheduledUnreliableHeartbeat

@[simp] theorem entriesAt_append (id : ConnectionId) (first second : List (Scheduled R M)) :
    entriesAt id (first ++ second) = entriesAt id first ++ entriesAt id second :=
  List.filter_append _ _

theorem SameAt.refl (id : ConnectionId) (scheduler : Scheduler A) :
    SameAt id scheduler scheduler :=
  ⟨rfl, rfl, rfl, rfl, rfl, rfl⟩

def targetsAt (id : ConnectionId) (targets : List Target) : List Target :=
  targets.filter fun target => target.1 = id

theorem entriesAt_entriesFor (id : ConnectionId) (reliability : R)
    {message : ConnectionId → Payload × Nat → M}
    (hmessage : ∀ id chunk, Carried.connectionId (message id chunk) = id) (packetId : PacketId)
    (time : Duration) (targets : List Target) (chunks : List (Payload × Nat)) :
    entriesAt id (entriesFor reliability message packetId time targets chunks) =
      entriesFor reliability message packetId time (targetsAt id targets) chunks := by
  simp only [entriesAt, entriesFor, targetsAt, List.filter_flatMap, List.filter_map,
    Function.comp_def, hmessage]

theorem SameAt.queued {id : ConnectionId} {first second : Scheduler A}
    (h : SameAt id first second)
    {targets others : List Target} (htargets : targetsAt id targets = targetsAt id others)
    (reliability : ReliabilityType) (packetId : PacketId) (time : Duration) (total : Nat)
    (chunks : List (Payload × Nat)) :
    SameAt id (queued first reliability packetId time targets total chunks)
      (queued second reliability packetId time others total chunks) := by
  have hfragments : ∀ {R : Type} (reliability : R),
      entriesAt id (entriesFor reliability (fragmentMessage total) packetId time targets chunks) =
      entriesAt id (entriesFor reliability (fragmentMessage total) packetId time others chunks) := by
    intro R reliability
    rw [entriesAt_entriesFor id _ (fun _ _ => rfl), entriesAt_entriesFor id _ (fun _ _ => rfl),
      htargets]
  have htransfers : ∀ {R : Type} (reliability : R),
      entriesAt id (entriesFor reliability dataTransferMessage packetId time targets chunks) =
      entriesAt id (entriesFor reliability dataTransferMessage packetId time others chunks) := by
    intro R reliability
    rw [entriesAt_entriesFor id _ (fun _ _ => rfl), entriesAt_entriesFor id _ (fun _ _ => rfl),
      htargets]
  obtain ⟨h1, h2, h3, h4, h5, h6⟩ := h
  unfold Properties.queued
  split <;> cases reliability <;>
    constructor <;>
    simp_all [pushAll, Queued.setQueue, Queued.queue]

theorem SameAt.beaten {id : ConnectionId} {first second : Scheduler A} (h : SameAt id first second)
    {targets others : List Target} (htargets : targetsAt id targets = targetsAt id others)
    (reliability : ReliabilityType) (packetId : PacketId) (time : Duration) :
    SameAt id (beaten first reliability packetId time targets)
      (beaten second reliability packetId time others) := by
  have hbeats : ∀ {R : Type} (reliability : R),
      entriesAt id (entriesFor reliability heartbeatMessage packetId time targets [([], 0)]) =
      entriesAt id (entriesFor reliability heartbeatMessage packetId time others [([], 0)]) := by
    intro R reliability
    rw [entriesAt_entriesFor id _ (fun _ _ => rfl), entriesAt_entriesFor id _ (fun _ _ => rfl),
      htargets]
  obtain ⟨h1, h2, h3, h4, h5, h6⟩ := h
  cases reliability <;>
    constructor <;>
    simp_all [Properties.beaten, pushAll, Queued.setQueue, Queued.queue]

end Entries

section Targets

variable {A B E : Type} {core : ServiceCore A B E} {hash hash' : RandomState} {sendTo : SendTo}
  {targets others : List Target}

/-- A connected peer is reached once, by its id alone and by a broadcast. -/
theorem targetsAt_eq (htargets : core.targets hash sendTo = .ok targets) {id : ConnectionId}
    {peer : Peer Connected} (hfound : core.connected.lookup id = some peer)
    (hsendTo : sendTo = .single id ∨ sendTo = .broadcast) :
    targetsAt id targets = [(id, peer.address)] := by
  have hmem : (id, peer.address) ∈ targets := by
    unfold ServiceCore.targets at htargets
    rcases hsendTo with rfl | rfl
    · dsimp only at htargets
      rw [hfound] at htargets
      cases htargets
      exact List.mem_singleton_self _
    · cases htargets
      exact List.mem_map.mpr ⟨⟨id, peer⟩,
        ((hash.iterate core.connected).mem_iff id peer).mpr hfound, rfl⟩
  have hconnected : isEmpty core.connected = false := by
    cases hempty : isEmpty core.connected with
    | false => rfl
    | true =>
      rw [isEmpty, decide_eq_true_eq, Finset.eq_empty_iff_forall_notMem] at hempty
      exact absurd (Finmap.mem_of_lookup_eq_some hfound) (hempty id)
  exact filter_key (targets_distinct hconnected htargets).1 hmem

theorem targetsAt_hash (htargets : core.targets hash sendTo = .ok targets)
    (hothers : core.targets hash' sendTo = .ok others) (id : ConnectionId) :
    targetsAt id targets = targetsAt id others := by
  cases sendTo with
  | single target =>
    cases htargets.symm.trans hothers
    rfl
  | broadcast =>
    cases hfound : core.connected.lookup id with
    | some peer =>
      rw [targetsAt_eq htargets hfound (.inr rfl), targetsAt_eq hothers hfound (.inr rfl)]
    | none =>
      have hnone : ∀ (hash : RandomState) reached,
          core.targets hash .broadcast = .ok reached → targetsAt id reached = [] := by
        intro hash reached hreached
        cases hreached
        apply List.filter_eq_nil_iff.mpr
        intro target hmem
        obtain ⟨entry, hentry, rfl⟩ := List.mem_map.mp hmem
        have hlookup := ((hash.iterate core.connected).mem_iff entry.1 entry.2).mp hentry
        simp only [decide_eq_true_eq]
        rintro rfl
        rw [hfound] at hlookup
        contradiction
      rw [hnone hash targets htargets, hnone hash' others hothers]

end Targets

section Singles

variable {S A B E : Type} [Service S A B E] {protocol : Protocol S}

/-- What two calls for one peer have in common: their result, and what they append for it. -/
structure SameFor (id : ConnectionId) (before : Protocol S)
    (first second : Result PacketId × Protocol S) : Prop where
  result : first.1 = second.1
  extends_first : Extends before.core.scheduler first.2.core.scheduler
  extends_second : Extends before.core.scheduler second.2.core.scheduler
  appended : SameAt id (appended before.core.scheduler first.2.core.scheduler)
    (appended before.core.scheduler second.2.core.scheduler)

theorem exists_targets {id : ConnectionId} (hmem : id ∈ protocol.core.connected) :
    isEmpty protocol.core.connected = false ∧ ∃ address, ∀ (hash : RandomState) (sendTo : SendTo),
      sendTo = .single id ∨ sendTo = .broadcast → ∃ targets,
        protocol.core.targets hash sendTo = .ok targets ∧
          targetsAt id targets = [(id, address)] := by
  obtain ⟨peer, hfound⟩ := Finmap.mem_iff.mp hmem
  refine ⟨?_, peer.address, fun hash sendTo hsendTo => ?_⟩
  · rw [isEmpty, decide_eq_false_iff_not, Finset.eq_empty_iff_forall_notMem]
    exact fun hempty => hempty id hmem
  · have hstranger : ¬NamesStranger protocol.core sendTo := by
      rintro ⟨other, hsingle, hother⟩
      rcases hsendTo with rfl | rfl
      · cases hsingle
        exact hother hmem
      · contradiction
    obtain ⟨targets, htargets⟩ := targets_of_no_stranger hash hstranger
    exact ⟨targets, htargets, targetsAt_eq htargets hfound hsendTo⟩

theorem schedule_broadcast_single {id : ConnectionId} (hmem : id ∈ protocol.core.connected)
    (hash hash' : RandomState) (reliability : ReliabilityType) (payload : Payload)
    (now : Duration) :
    EndAlike (SameFor id protocol) (protocol.schedule hash reliability .broadcast payload now)
      (protocol.schedule hash' reliability (.single id) payload now) := by
  obtain ⟨hconnected, address, hreached⟩ := exists_targets hmem
  obtain ⟨targets, htargets, hat⟩ := hreached hash .broadcast (.inr rfl)
  obtain ⟨others, hothers, hat'⟩ := hreached hash' (.single id) (.inl rfl)
  rw [schedule_counts hconnected (.inr htargets), schedule_counts hconnected (.inr hothers)]
  apply EndAlike.map (addU64 protocol.packetIdTracker 1)
  intro packetId
  constructor
  · rfl
  · rw [core_queuedFor]
    exact extends_queued ..
  · rw [core_queuedFor]
    exact extends_queued ..
  · simp only [core_queuedFor, appended_queued]
    exact (SameAt.refl id _).queued (hat.trans hat'.symm) _ _ _ _ _

theorem heartbeat_broadcast_single {id : ConnectionId} (hmem : id ∈ protocol.core.connected)
    (hash hash' : RandomState) (reliability : ReliabilityType) (now : Duration) :
    EndAlike (SameFor id protocol) (protocol.heartbeat hash reliability .broadcast now)
      (protocol.heartbeat hash' reliability (.single id) now) := by
  obtain ⟨hconnected, address, hreached⟩ := exists_targets hmem
  obtain ⟨targets, htargets, hat⟩ := hreached hash .broadcast (.inr rfl)
  obtain ⟨others, hothers, hat'⟩ := hreached hash' (.single id) (.inl rfl)
  rw [heartbeat_counts hconnected htargets, heartbeat_counts hconnected hothers]
  apply EndAlike.map (addU64 protocol.packetIdTracker 1)
  intro packetId
  constructor
  · rfl
  · rw [core_beatenFor]
    exact extends_beaten ..
  · rw [core_beatenFor]
    exact extends_beaten ..
  · simp only [core_beatenFor, appended_beaten]
    exact (SameAt.refl id _).beaten (hat.trans hat'.symm) _ _ _

end Singles

section Reordering

variable {S A B E Own : Type} [Service S A B E]

def withQueues (queues : Scheduler A) (service : S) : S :=
  Service.setCore service { Service.core service with
    scheduler := { queues with service := (Service.core service).scheduler.service } }

/-- Two states that differ at most in how the entries for different peers stand in a queue. -/
def Reordered (first second : Protocol S) : Prop :=
  ∃ queues, second = { first with service := withQueues queues first.service } ∧
    ∀ id, SameAt id first.core.scheduler queues

/-- What two runs have in common: what they return, and each peer's queues. -/
def SameRun (first second : α × Protocol S) : Prop :=
  first.1 = second.1 ∧ Reordered first.2 second.2

variable {first second : Protocol S}

theorem SameAt.with_service {id : ConnectionId} {scheduler queues : Scheduler A}
    (h : SameAt id scheduler queues) (service service' : A) :
    SameAt id { scheduler with service := service } { queues with service := service' } :=
  ⟨h.1, h.2, h.3, h.4, h.5, h.6⟩

theorem Reordered.refl (protocol : Protocol S) : Reordered protocol protocol := by
  refine ⟨protocol.core.scheduler, ?_, fun id => .refl id _⟩
  change protocol = { protocol with
    service := Service.setCore protocol.service (Service.core protocol.service) }
  rw [Service.setCore_core]

theorem Reordered.connected (h : Reordered first second) :
    second.core.connected = first.core.connected := by
  obtain ⟨queues, rfl, -⟩ := h
  change (Service.core (withQueues queues first.service)).connected = _
  rw [withQueues, Service.core_setCore]
  rfl

theorem Reordered.packetIdTracker (h : Reordered first second) :
    second.packetIdTracker = first.packetIdTracker := by
  obtain ⟨queues, rfl, -⟩ := h
  rfl

theorem Reordered.sameAt (h : Reordered first second) (id : ConnectionId) :
    SameAt id first.core.scheduler second.core.scheduler := by
  obtain ⟨queues, rfl, hsame⟩ := h
  change SameAt id first.core.scheduler (Service.core (withQueues queues first.service)).scheduler
  rw [withQueues, Service.core_setCore]
  exact (hsame id).with_service first.core.scheduler.service _

theorem Reordered.service (h : Reordered first second) :
    second.core.scheduler.service = first.core.scheduler.service := by
  obtain ⟨queues, rfl, -⟩ := h
  change (Service.core (withQueues queues first.service)).scheduler.service = _
  rw [withQueues, Service.core_setCore]
  rfl

theorem Reordered.requeue (h : Reordered first second) {scheduler queues : Scheduler A}
    (hservice : scheduler.service = first.core.scheduler.service)
    (hservice' : queues.service = first.core.scheduler.service)
    (hsame : ∀ id, SameAt id scheduler queues) (tracker : PacketId) :
    Reordered
      { first.setCore { first.core with scheduler := scheduler } with packetIdTracker := tracker }
      { second.setCore { second.core with scheduler := queues } with
        packetIdTracker := tracker } := by
  obtain ⟨others, rfl, -⟩ := h
  refine ⟨queues, ?_, fun id => ?_⟩
  · simp only [Protocol.setCore, Protocol.core, withQueues, Service.core_setCore,
      Service.setCore_setCore]
    rw [hservice, show first.core.scheduler.service = queues.service from hservice'.symm]
  · change SameAt id (Protocol.core (first.setCore { first.core with
      scheduler := scheduler })).scheduler queues
    rw [core_setCore]
    exact hsame id

end Reordering

section ClientQueues

variable (queues : Scheduler ClientScheduler) (client : Client) (time : Duration)

theorem onConnectionAccepted_withQueues (packet : Packet Received ConnectionAccepted) :
    (withQueues queues client).onConnectionAccepted packet time =
      ((client.onConnectionAccepted packet time).1,
        withQueues queues (client.onConnectionAccepted packet time).2) := by
  by_cases hstray : packet.delivery.metadata.address ∈ client.requestingConnection ∨
      packet.message.connectionId ∈ client.connected
  · rw [show client.onConnectionAccepted packet time = _ from if_pos hstray]
    exact if_pos hstray
  · rw [show client.onConnectionAccepted packet time = _ from if_neg hstray]
    refine (if_neg hstray).trans ?_
    simp only [withQueues, Service.setCore, Service.core]
    cases client.awaitingConnectionAck.lookup packet.delivery.metadata.address <;> rfl

theorem client_onReceived_withQueues (crc32 : Crc32) (raw : RawPacket) :
    (withQueues queues client).onReceived crc32 raw time =
      (fun outcome => (outcome.1, withQueues queues outcome.2)) <$>
        client.onReceived crc32 raw time := by
  unfold Client.onReceived
  cases raw.decode crc32 DecodedForClient.tryFrom time with
  | error panic => rfl
  | ok decoded =>
    rcases decoded with error | packet | packet | packet | packet
    · rfl
    · exact congrArg Except.ok (onConnectionAccepted_withQueues queues client time packet)
    · simp only [ok_bind, Client.onDataTransfer, withQueues, Service.setCore, Service.core]
      cases client.connected.lookup packet.message.connectionId with
      | some peer => rfl
      | none => cases client.awaitingConnectionAck.lookup packet.delivery.metadata.address <;> rfl
    · simp only [ok_bind, Client.onFragment, withQueues, Service.setCore, Service.core]
      cases client.connected.lookup packet.message.connectionId with
      | none => rfl
      | some peer =>
        simp only [Finmap.lookup_insert, expect, ok_bind]
        generalize Peer.reassemble _ packet = outcome
        rcases outcome with panic | ⟨peer, _ | payload⟩ <;> rfl
    · simp only [ok_bind, Client.onHeartbeat, withQueues, Service.setCore, Service.core]
      cases client.connected.lookup packet.message.connectionId with
      | some peer => rfl
      | none => cases client.awaitingConnectionAck.lookup packet.delivery.metadata.address <;> rfl

end ClientQueues

section ServerQueues

variable (hash hash' : RandomState) (server : Server) (queues : Scheduler ServerScheduler)
  (packetId : PacketId) (time : Duration)

theorem acknowledge_withQueues (connectionId : ConnectionId) (sequence : Sequence) (ack : Ack) :
    (withQueues queues server).acknowledge connectionId sequence ack time =
      (server.acknowledge connectionId sequence ack time).map (withQueues queues) := by
  simp only [Server.acknowledge, withQueues, Service.setCore, Service.core]
  cases server.connected.lookup connectionId with
  | some peer => rfl
  | none => cases server.awaitingConnectionAck.lookup connectionId <;> rfl

theorem onConnectionRequest_withQueues (hrequesting : server.requestingConnection = ∅)
    (packet : Packet Received ConnectionRequest) :
    (withQueues queues server).onConnectionRequest hash' packet packetId time =
      (fun outcome => (outcome.1, withQueues queues outcome.2)) <$>
        server.onConnectionRequest hash packet packetId time := by
  have hexpected : (withQueues queues server).unexpectedConnection
      packet.delivery.metadata.address =
        server.unexpectedConnection packet.delivery.metadata.address := rfl
  have hnone : ∀ hash : RandomState,
      (hash.iterate server.requestingConnection).entries = [] := by
    rw [hrequesting]
    exact fun hash => Iteration.entries_empty _
  have hnone' : (hash'.iterate (withQueues queues server).requestingConnection).entries = [] := 
    hnone hash'
  simp only [Server.onConnectionRequest, hexpected, hnone, hnone', List.find?_nil]
  cases server.unexpectedConnection packet.delivery.metadata.address with
  | error error => rfl
  | ok expected =>
    change (addU16 server.connectionIdTracker.get 1 >>= _) = _
    cases addU16 server.connectionIdTracker.get 1 with
    | error panic => rfl
    | ok next =>
      simp only [ok_bind]
      cases unwrap (NonZeroU16.new next) with
      | error panic => rfl
      | ok tracker =>
        simp only [ok_bind, Server.acceptConnection, Finmap.lookup_insert]
        rfl

theorem onFragment_withQueues (packet : Packet Received Fragment) :
    (withQueues queues server).onFragment packet time =
      (fun outcome => (outcome.1, withQueues queues outcome.2)) <$>
        server.onFragment packet time := by
  simp only [Server.onFragment, acknowledge_withQueues]
  cases server.acknowledge packet.message.connectionId packet.sequence packet.ack time with
  | none => rfl
  | some acked =>
    have hconnected : (withQueues queues acked).connected = acked.connected := rfl
    simp only [Option.map_some, hconnected]
    cases expect "Peer must be connected!" (acked.connected.lookup packet.message.connectionId) with
    | error panic => rfl
    | ok peer =>
      simp only [ok_bind]
      generalize peer.reassemble packet = outcome
      rcases outcome with panic | ⟨peer, _ | payload⟩ <;> rfl

theorem server_onReceived_withQueues (crc32 : Crc32) (hrequesting : server.requestingConnection = ∅)
    (raw : RawPacket) :
    (withQueues queues server).onReceived crc32 hash' raw packetId time =
      (fun outcome => (outcome.1, withQueues queues outcome.2)) <$>
        server.onReceived crc32 hash raw packetId time := by
  unfold Server.onReceived
  cases raw.decode crc32 DecodedForServer.tryFrom time with
  | error panic => rfl
  | ok decoded =>
    rcases decoded with error | packet | packet | packet | packet
    · rfl
    · exact onConnectionRequest_withQueues hash hash' server queues packetId time hrequesting packet
    · simp only [ok_bind, Server.onDataTransfer, acknowledge_withQueues]
      cases server.acknowledge packet.message.connectionId packet.sequence packet.ack time <;> rfl
    · exact onFragment_withQueues server queues time packet
    · simp only [ok_bind, Server.onHeartbeat, acknowledge_withQueues]
      cases server.acknowledge packet.message.connectionId packet.sequence packet.ack time <;> rfl

end ServerQueues

section Runs

variable {S A B E Own : Type} [Service S A B E] {first second : Protocol S}
  {hash hash' : RandomState} {reliability : ReliabilityType} {sendTo : SendTo} {now : Duration}

theorem targets_other_hash (h : Reordered first second) (hash hash' : RandomState)
    (sendTo : SendTo) :
    (∃ error, first.core.targets hash sendTo = .error error ∧
      second.core.targets hash' sendTo = .error error) ∨
    ∃ targets others, first.core.targets hash sendTo = .ok targets ∧
      second.core.targets hash' sendTo = .ok others ∧
      ∀ id, targetsAt id targets = targetsAt id others := by
  have hsame : second.core.targets hash' sendTo = first.core.targets hash' sendTo :=
    targets_congr h.connected
  rw [hsame]
  cases htargets : first.core.targets hash sendTo with
  | error error => exact .inl ⟨error, rfl, targets_eq_error.mpr (targets_eq_error.mp htargets)⟩
  | ok targets =>
    obtain ⟨others, hothers⟩ := targets_of_no_stranger hash' (not_namesStranger_of_ok htargets)
    exact .inr ⟨targets, others, rfl, hothers, targetsAt_hash htargets hothers⟩

theorem Reordered.schedule (h : Reordered first second) (payload : Payload) :
    EndAlike SameRun (first.schedule hash reliability sendTo payload now)
      (second.schedule hash' reliability sendTo payload now) := by
  have hcounted : ∀ targets others, isEmpty first.core.connected = false →
      (numberedChunks payload = [] ∨ first.core.targets hash sendTo = .ok targets) →
      (numberedChunks payload = [] ∨ second.core.targets hash' sendTo = .ok others) →
      (∀ id, targetsAt id targets = targetsAt id others) →
      EndAlike SameRun (first.schedule hash reliability sendTo payload now)
        (second.schedule hash' reliability sendTo payload now) := by
    intro targets others hconnected htargets hothers hat
    rw [schedule_counts hconnected htargets,
      schedule_counts (h.connected ▸ hconnected) hothers, h.packetIdTracker]
    apply EndAlike.map (addU64 first.packetIdTracker 1)
    intro packetId
    refine ⟨rfl, ?_⟩
    unfold queuedFor
    rw [h.packetIdTracker]
    exact h.requeue (service_queued ..) ((service_queued ..).trans h.service)
      (fun id => (h.sameAt id).queued (hat id) _ _ _ _ _) packetId
  cases hconnected : isEmpty first.core.connected with
  | true =>
    rw [schedule_of_nobody hconnected, schedule_of_nobody (h.connected ▸ hconnected)]
    exact .returned ⟨rfl, h⟩
  | false =>
    rcases targets_other_hash h hash hash' sendTo with
      ⟨error, htargets, hothers⟩ | ⟨targets, others, htargets, hothers, hat⟩
    · by_cases hchunks : numberedChunks payload = []
      · exact hcounted [] [] hconnected (.inl hchunks) (.inl hchunks) fun _ => rfl
      · rw [schedule_of_error hconnected htargets hchunks,
          schedule_of_error (h.connected ▸ hconnected) hothers hchunks]
        exact .returned ⟨rfl, h⟩
    · exact hcounted targets others hconnected (.inr htargets) (.inr hothers) hat

theorem Reordered.heartbeat (h : Reordered first second) :
    EndAlike SameRun (first.heartbeat hash reliability sendTo now)
      (second.heartbeat hash' reliability sendTo now) := by
  cases hconnected : isEmpty first.core.connected with
  | true =>
    rw [heartbeat_of_nobody hconnected, heartbeat_of_nobody (h.connected ▸ hconnected)]
    exact .returned ⟨rfl, h⟩
  | false =>
    rcases targets_other_hash h hash hash' sendTo with
      ⟨error, htargets, hothers⟩ | ⟨targets, others, htargets, hothers, hat⟩
    · rw [heartbeat_of_error hconnected htargets,
        heartbeat_of_error (h.connected ▸ hconnected) hothers]
      exact .returned ⟨rfl, h⟩
    · rw [heartbeat_counts hconnected htargets,
        heartbeat_counts (h.connected ▸ hconnected) hothers, h.packetIdTracker]
      apply EndAlike.map (addU64 first.packetIdTracker 1)
      intro packetId
      refine ⟨rfl, ?_⟩
      unfold beatenFor
      rw [h.packetIdTracker]
      exact h.requeue (service_beaten ..) ((service_beaten ..).trans h.service)
        (fun id => (h.sameAt id).beaten (hat id) _ _ _) packetId

theorem Reordered.clientReceived {first second : Protocol Client} (h : Reordered first second)
    (crc32 : Crc32) (raw : RawPacket) :
    EndAlike SameRun (first.clientReceived crc32 raw now)
      (second.clientReceived crc32 raw now) := by
  obtain ⟨queues, rfl, hsame⟩ := h
  unfold Protocol.clientReceived
  rw [client_onReceived_withQueues]
  cases hreceived : first.service.onReceived crc32 raw now with
  | error panic => exact .stopped panic
  | ok outcome =>
    refine .returned ⟨rfl, queues, rfl, fun id => ?_⟩
    have hscheduler : outcome.2.scheduler = first.service.scheduler := by
      rcases client_onReceived_cases hreceived with hkept | ⟨_, -, -, hhears⟩
      · rw [hkept]
      · exact hhears.kept.2.1
    change SameAt id outcome.2.scheduler queues
    rw [hscheduler]
    exact hsame id

theorem Reordered.connect {first second : Protocol Client} (h : Reordered first second)
    (address : SocketAddr) :
    EndAlike SameRun (first.connect address now) (second.connect address now) := by
  obtain ⟨queues, rfl, hsame⟩ := h
  unfold Protocol.connect Client.connect
  have hknown : Client.knownPeer (withQueues queues first.service) address =
      first.service.knownPeer address := rfl
  simp only [hknown]
  cases first.service.knownPeer address with
  | true => exact .returned ⟨rfl, queues, rfl, hsame⟩
  | false =>
    apply EndAlike.map (addU64 first.packetIdTracker 1)
    exact fun tracker => ⟨rfl, queues, rfl, fun id => (hsame id).with_service _ queues.service⟩

/-- What a server receives depends on no queue, and on no order where no peer still asks. -/
theorem Reordered.serverReceived {first second : Protocol Server} (h : Reordered first second)
    (hrequesting : first.service.requestingConnection = ∅) (crc32 : Crc32) (raw : RawPacket) :
    EndAlike SameRun (first.serverReceived crc32 hash raw now)
      (second.serverReceived crc32 hash' raw now) := by
  obtain ⟨queues, rfl, hsame⟩ := h
  unfold Protocol.serverReceived
  rw [server_onReceived_withQueues hash hash' _ _ _ _ _ hrequesting]
  cases hreceived : first.service.onReceived crc32 hash raw first.packetIdTracker now with
  | error panic => exact .stopped panic
  | ok outcome =>
    obtain ⟨answered, server⟩ := outcome
    have hqueues : ∀ id, SameAt id server.scheduler queues := by
      intro id
      rcases server_onReceived_decides hreceived with
        ⟨rfl, -⟩ | ⟨_, _, -, -, -, hhears⟩ | ⟨_, -, -, -, hadmits⟩
      · exact hsame id
      · rw [hhears.scheduler]
        exact hsame id
      · have hkept := (hsame id).with_service server.scheduler.service queues.service
        have hsix : server.scheduler = { first.service.scheduler with
            service := server.scheduler.service } := (admits_greets hadmits).1 _
        rw [hsix]
        exact hkept
    rcases answered with error | updatePacketId
    · exact .returned ⟨rfl, queues, rfl, hqueues⟩
    · cases updatePacketId with
      | false => exact .returned ⟨rfl, queues, rfl, hqueues⟩
      | true =>
        apply EndAlike.map (addU64 first.packetIdTracker 1)
        exact fun tracker => ⟨rfl, queues, rfl, hqueues⟩

variable [Role S Own]

/-- Calls one after the other, each with the order in which it walks the maps. -/
def runCalls (crc32 : Crc32) :
    List (RandomState × Call Own) → Protocol S → Exec (List Answer × Protocol S)
  | [], protocol => pure ([], protocol)
  | (hash, call) :: rest, protocol => do
      let (answer, protocol) ← call.run crc32 hash protocol
      let (answers, protocol) ← runCalls crc32 rest protocol
      pure (answer :: answers, protocol)

theorem Reordered.call (h : Reordered first second) {crc32 : Crc32}
    (hown : ∀ call : Own, EndAlike SameRun (Role.run crc32 hash first call)
      (Role.run crc32 hash' second call)) (call : Call Own) :
    EndAlike SameRun (call.run crc32 hash first) (call.run crc32 hash' second) := by
  cases call with
  | schedule reliability sendTo payload now =>
    refine (h.schedule payload).bind fun ⟨result, next⟩ ⟨_, next'⟩ ⟨hresult, hnext⟩ => ?_
    exact .returned ⟨congrArg (some <$> ·) hresult, hnext⟩
  | heartbeat reliability sendTo now =>
    refine h.heartbeat.bind fun ⟨result, next⟩ ⟨_, next'⟩ ⟨hresult, hnext⟩ => ?_
    exact .returned ⟨congrArg (some <$> ·) hresult, hnext⟩
  | own call =>
    refine (hown call).bind fun ⟨result, next⟩ ⟨_, next'⟩ ⟨hresult, hnext⟩ => ?_
    exact .returned ⟨congrArg ((fun () => none) <$> ·) hresult, hnext⟩

theorem Reordered.runCalls {crc32 : Crc32} (inv : Protocol S → Prop)
    (hown : ∀ (first second : Protocol S) hash hash' call, inv first → Reordered first second →
      EndAlike SameRun (Role.run crc32 hash first call) (Role.run crc32 hash' second call))
    (hkeep : ∀ (protocol : Protocol S) hash (call : Call Own) answer next, inv protocol →
      call.run crc32 hash protocol = .ok (answer, next) → inv next)
    (h : Reordered first second) (hinv : inv first) :
    ∀ {calls others : List (RandomState × Call Own)}, calls.map Prod.snd = others.map Prod.snd →
      EndAlike SameRun (runCalls crc32 calls first) (runCalls crc32 others second) := by
  intro calls
  induction calls generalizing first second with
  | nil =>
    intro others hcalls
    rw [List.map_nil, eq_comm, List.map_eq_nil_iff] at hcalls
    rw [hcalls]
    exact .returned ⟨rfl, h⟩
  | cons item rest ih =>
    intro others hcalls
    obtain ⟨hash, call⟩ := item
    cases others with
    | nil => contradiction
    | cons item others =>
      obtain ⟨hash', call'⟩ := item
      rw [List.map_cons, List.map_cons, List.cons.injEq] at hcalls
      obtain ⟨rfl, hrest⟩ := hcalls
      have hstep := h.call (fun own => hown first second hash hash' own hinv h) call
      refine (hstep.and fun outcome hreturned => hkeep first hash call outcome.1 outcome.2 hinv
        hreturned).bind fun ⟨answer, next⟩ ⟨_, next'⟩ ⟨hinv', hanswer, hnext⟩ => ?_
      refine (ih hnext hinv' hrest).bind fun ⟨answers, last⟩ ⟨_, last'⟩ ⟨hanswers, hlast⟩ => ?_
      exact .returned ⟨congrArg₂ List.cons hanswer hanswers, hlast⟩

end Runs

section Roles

variable {crc32 : Crc32}

theorem client_run_alike {first second : Protocol Client} (h : Reordered first second)
    (hash hash' : RandomState) (call : ClientOwn) :
    EndAlike SameRun (Role.run crc32 hash first call) (Role.run crc32 hash' second call) := by
  cases call with
  | connect address now => exact h.connect address
  | received raw now => exact h.clientReceived crc32 raw

theorem server_run_reachable {protocol next : Protocol Server} {hash : RandomState}
    {call : Call ServerOwn} {answer : Answer} (hreachable : (serverCalls crc32).Reachable protocol)
    (h : call.run crc32 hash protocol = .ok (answer, next)) :
    (serverCalls crc32).Reachable next := by
  cases call with
  | schedule reliability sendTo payload now =>
    obtain ⟨⟨result, _⟩, hcall, hpure⟩ := bind_eq_ok.mp h
    cases hpure
    exact hreachable.next (.schedule hash reliability sendTo payload now result hcall)
  | heartbeat reliability sendTo now =>
    obtain ⟨⟨result, _⟩, hcall, hpure⟩ := bind_eq_ok.mp h
    cases hpure
    exact hreachable.next (.heartbeat hash reliability sendTo now result hcall)
  | own call =>
    obtain ⟨⟨result, _⟩, hcall, hpure⟩ := bind_eq_ok.mp h
    cases hpure
    cases call with
    | received raw now => exact hreachable.next (.received hash raw now result hcall)

theorem server_run_alike {first second : Protocol Server} (h : Reordered first second)
    (hreachable : (serverCalls crc32).Reachable first) (hash hash' : RandomState)
    (call : ServerOwn) :
    EndAlike SameRun (Role.run crc32 hash first call) (Role.run crc32 hash' second call) := by
  cases call with
  | received raw now =>
    obtain ⟨registry, table⟩ := serverTable_reachable hreachable
    exact h.serverReceived table.requesting crc32 raw

end Roles

/-- A broadcast is for each connected peer what a call for it alone is, whatever order the peers
are reached in; and runs that differ in these orders alone leave every peer the same queues. -/
theorem broadcast_like_singles (crc32 : Crc32) :
    (∀ {S A B E : Type} [Service S A B E] (protocol : Protocol S) (id : ConnectionId),
      id ∈ protocol.core.connected → ∀ (hash hash' : RandomState) reliability payload now,
        EndAlike (SameFor id protocol)
          (protocol.schedule hash reliability .broadcast payload now)
          (protocol.schedule hash' reliability (.single id) payload now) ∧
        EndAlike (SameFor id protocol) (protocol.heartbeat hash reliability .broadcast now)
          (protocol.heartbeat hash' reliability (.single id) now)) ∧
    (∀ protocol, (serverCalls crc32).Reachable protocol →
      ∀ calls others : List (RandomState × Call ServerOwn),
        calls.map Prod.snd = others.map Prod.snd →
          EndAlike SameRun (runCalls crc32 calls protocol) (runCalls crc32 others protocol)) ∧
    ∀ (protocol : Protocol Client) (calls others : List (RandomState × Call ClientOwn)),
      calls.map Prod.snd = others.map Prod.snd →
        EndAlike SameRun (runCalls crc32 calls protocol) (runCalls crc32 others protocol) := by
  refine ⟨?_, ?_, ?_⟩
  · intro S A B E _ protocol id hmem hash hash' reliability payload now
    exact ⟨schedule_broadcast_single hmem hash hash' reliability payload now,
      heartbeat_broadcast_single hmem hash hash' reliability now⟩
  · intro protocol hreachable calls others hcalls
    exact (Reordered.refl protocol).runCalls (serverCalls crc32).Reachable
      (fun _ _ hash hash' call hinv h => server_run_alike h hinv hash hash' call)
      (fun _ _ _ _ _ hinv h => server_run_reachable hinv h) hreachable hcalls
  · intro protocol calls others hcalls
    exact (Reordered.refl protocol).runCalls (fun _ => True)
      (fun _ _ hash hash' call _ h => client_run_alike h hash hash' call)
      (fun _ _ _ _ _ _ _ => trivial) trivial hcalls

def laterHeartbeat : Packet ToSend Heartbeat :=
  ⟨⟨0, ⟨.zero, .v4 0 0⟩⟩, .one, 0, .new .two⟩

def crowdedServer : Protocol Server :=
  let server := sharedServer.service
  let peer := (Peer.new .zero (.v4 1 1) 1).awaitConnectionAck .zero
  { sharedServer with service := { server with
      awaitingConnectionAck := server.awaitingConnectionAck.erase .two
      connected := server.connected.insert .two
        ((peer.acknowledge .one 0).connected .zero .two) } }

theorem sharedServer_crowded (hash : RandomState) :
    sharedServer.serverReceived ieeeCrc32 hash
        ⟨.v4 1 1, (laterHeartbeat.datagram ieeeCrc32).bytes⟩ .zero =
      .ok (.ok (), crowdedServer) := by
  have hdecode := (Codec.roundTrips_heartbeat ieeeCrc32 laterHeartbeat (.v4 1 1) .zero rfl).2.1
  unfold Protocol.serverReceived Server.onReceived
  rw [hdecode]
  simp only [ok_bind, Server.onHeartbeat]
  rfl

theorem crowdedServer_reachable : (serverCalls ieeeCrc32).Reachable crowdedServer :=
  sharedServer_reachable.next (.received (Classical.arbitrary RandomState) _ .zero (.ok ())
    (sharedServer_crowded _))

theorem crowdedServer_single (hash : RandomState) : ∃ next,
    crowdedServer.schedule hash .reliable (.single .two) cutPayload .zero = .ok (.ok 3, next) ∧
      next.core.scheduler.listScheduledReliableFragment =
        [⟨2, .v4 1 1, .zero, {}, .new .two (List.replicate 1483 7) 0 2⟩,
          ⟨2, .v4 1 1, .zero, {}, .new .two [7] 1 2⟩] := by
  unfold Protocol.schedule Protocol.scheduleHelper
  have hchunks := numberedChunks_cutPayload
  unfold numberedChunks at hchunks
  dsimp only
  rw [hchunks]
  exact ⟨_, rfl, rfl⟩
def crowdedCalls (hash : RandomState) : List (RandomState × Call ServerOwn) :=
  [(hash, .schedule .reliable .broadcast cutPayload .zero),
    (hash, .heartbeat .unreliable .broadcast .zero)]

/-- A payload of two chunks is broadcast to two peers: in whatever order they are reached, each
gets the entries of a call for it alone, and the same ones with a heartbeat after them. -/
theorem crowdedServer_broadcast :
    (.one ∈ crowdedServer.core.connected ∧ .two ∈ crowdedServer.core.connected) ∧
    (∀ id ∈ crowdedServer.core.connected, ∀ hash hash' : RandomState,
      EndAlike (SameFor id crowdedServer)
        (crowdedServer.schedule hash .reliable .broadcast cutPayload .zero)
        (crowdedServer.schedule hash' .reliable (.single id) cutPayload .zero)) ∧
    (∀ hash, ∃ next,
      crowdedServer.schedule hash .reliable (.single .two) cutPayload .zero = .ok (.ok 3, next) ∧
        next.core.scheduler.listScheduledReliableFragment =
          [⟨2, .v4 1 1, .zero, {}, .new .two (List.replicate 1483 7) 0 2⟩,
            ⟨2, .v4 1 1, .zero, {}, .new .two [7] 1 2⟩]) ∧
    ∀ hash hash' : RandomState, EndAlike SameRun
      (runCalls ieeeCrc32 (crowdedCalls hash) crowdedServer)
      (runCalls ieeeCrc32 (crowdedCalls hash') crowdedServer) := by
  obtain ⟨hsingles, hruns, -⟩ := broadcast_like_singles ieeeCrc32
  refine ⟨⟨?_, ?_⟩, ?_, crowdedServer_single, ?_⟩
  · exact Finmap.mem_insert.mpr (.inr (Finmap.mem_insert.mpr (.inl rfl)))
  · exact Finmap.mem_insert.mpr (.inl rfl)
  · intro id hmem hash hash'
    exact (hsingles crowdedServer id hmem hash hash' .reliable cutPayload .zero).1
  · intro hash hash'
    exact hruns crowdedServer crowdedServer_reachable _ _ rfl

end Antarc.Properties
