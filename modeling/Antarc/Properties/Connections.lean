import Antarc.Properties.Accepts
import Antarc.Properties.ClientBooks
import Antarc.Properties.Histories
import Antarc.Properties.ServerBooks

/-! Queued traffic always has its peer. An entry is queued for a peer that is connected,
and nothing that either role does disconnects a peer, moves it to another address or puts
another in its place; so the entry can be built however long it waits. -/
namespace Antarc.Properties

open Library

section Entries

variable {S A B E : Type} [Service S A B E]

/-- An entry travels on a connection whose peer is connected, at the address of the entry. -/
def HasPeer (service : S) (entry : QueueEntry) : Prop :=
  ∃ id, entry.body.connection = some id ∧ ConnectedAt service id entry.address

theorem HasPeer.mono {service next : S} {entry : QueueEntry} (h : HasPeer service entry)
    (hkept : ∀ id address, ConnectedAt service id address → ConnectedAt next id address) :
    HasPeer next entry := by
  obtain ⟨id, hid, hat⟩ := h
  exact ⟨id, hid, hkept _ _ hat⟩

def ForTarget (targets : List Target) (entry : QueueEntry) : Prop :=
  ∃ target ∈ targets, entry.body.connection = some target.1 ∧ entry.address = target.2

section Queues

variable {R M : Type} [Queued R M] [Sendable M] [Bodied M] [QueueView R M]
  {scheduler : Scheduler A} {entry : QueueEntry}

theorem mem_setQueue {entries : List (Scheduled R M)}
    (h : entry ∈ (queues (Queued.setQueue scheduler entries)).flatten) :
    entry ∈ entries.map entryOf ∨ entry ∈ (queues scheduler).flatten := by
  obtain ⟨queue, hqueue, hmem⟩ := List.mem_flatten.mp h
  rcases QueueView.of_setQueue scheduler entries queue hqueue with rfl | hold
  · exact .inl hmem
  · exact .inr (List.mem_flatten_of_mem hold hmem)

theorem mem_pushAll {reliability : R} {message : ConnectionId → Payload × Nat → M}
    {packetId : PacketId} {time : Duration} {targets : List Target}
    {chunks : List (Payload × Nat)}
    (hmessage : ∀ id chunk, (Bodied.body (message id chunk)).connection = some id)
    (h : entry ∈ (queues (pushAll scheduler
      (entriesFor reliability message packetId time targets chunks))).flatten) :
    entry ∈ (queues scheduler).flatten ∨ ForTarget targets entry := by
  rcases mem_setQueue h with hmem | hmem
  · rw [List.map_append, List.mem_append] at hmem
    rcases hmem with hold | hnew
    · exact .inl (List.mem_flatten_of_mem (QueueView.queue_mem scheduler) hold)
    · simp only [entriesFor, List.mem_map, List.mem_flatMap] at hnew
      obtain ⟨_, ⟨chunk, -, target, htarget, rfl⟩, rfl⟩ := hnew
      exact .inr ⟨target, htarget, hmessage target.1 chunk, rfl⟩
  · exact .inl hmem

end Queues

theorem mem_queued {scheduler : Scheduler A} {reliability : ReliabilityType} {packetId : PacketId}
    {time : Duration} {targets : List Target} {total : Nat} {chunks : List (Payload × Nat)}
    {entry : QueueEntry} (h : entry ∈
      (queues (queued scheduler reliability packetId time targets total chunks)).flatten) :
    entry ∈ (queues scheduler).flatten ∨ ForTarget targets entry := by
  unfold queued at h
  split at h <;> cases reliability
  · exact mem_pushAll (fun _ _ => rfl) h
  · exact mem_pushAll (fun _ _ => rfl) h
  · exact mem_pushAll (fun _ _ => rfl) h
  · exact mem_pushAll (fun _ _ => rfl) h

theorem mem_beaten {scheduler : Scheduler A} {reliability : ReliabilityType} {packetId : PacketId}
    {time : Duration} {targets : List Target} {entry : QueueEntry}
    (h : entry ∈ (queues (beaten scheduler reliability packetId time targets)).flatten) :
    entry ∈ (queues scheduler).flatten ∨ ForTarget targets entry := by
  cases reliability
  · exact mem_pushAll (fun _ _ => rfl) h
  · exact mem_pushAll (fun _ _ => rfl) h

end Entries

section Peered

variable {S A B E : Type} [Service S A B E] {history next : History S} {protocol : Protocol S}

/-- Everything that was queued or built for a connection has its peer. -/
structure Peered (history : History S) : Prop where
  placed : ∀ entry ∈ history.placed, HasPeer history.protocol.service entry
  recorded : ∀ entry ∈ queuedEntries history.protocol, entry ∈ history.placed
  built : ∀ line ∈ history.built, ∀ id, line.body.connection = some id →
    ConnectedAt history.protocol.service id line.address

theorem Peered.building (peered : Peered history) {line : Line}
    (hline : ∀ id, line.body.connection = some id →
      ConnectedAt history.protocol.service id line.address) :
    Peered (history.building line) := by
  refine ⟨peered.placed, peered.recorded, fun other hmem => ?_⟩
  rcases List.mem_append.mp hmem with hold | hmem
  · exact peered.built other hold
  · rw [List.mem_singleton.mp hmem]
    exact hline

variable [HandshakeQueue S]

theorem Peered.after (peered : Peered history)
    (hkept : ∀ id address, ConnectedAt history.protocol.service id address →
      ConnectedAt protocol.service id address)
    (hqueued : ∀ entry ∈ queuedEntries protocol,
      entry ∈ queuedEntries history.protocol ∨ HasPeer history.protocol.service entry) :
    Peered (history.after protocol) where
  placed := by
    intro entry hmem
    rcases List.mem_append.mp hmem with hold | hmem
    · exact (peered.placed entry hold).mono hkept
    · rcases hqueued entry hmem with hold | hpeer
      · exact (peered.placed entry (peered.recorded entry hold)).mono hkept
      · exact hpeer.mono hkept
  recorded := fun entry hmem => List.mem_append_right _ hmem
  built := fun line hmem id hid => hkept _ _ (peered.built line hmem id hid)

theorem Peered.same_queues (peered : Peered history)
    (hkept : ∀ id address, ConnectedAt history.protocol.service id address →
      ConnectedAt protocol.service id address)
    (hqueues : queuedEntries protocol = queuedEntries history.protocol) :
    Peered (history.after protocol) :=
  peered.after hkept fun entry hmem => .inl (by rwa [hqueues] at hmem)

theorem Peered.accounting (peered : Peered (history.after protocol)) (line : Line) :
    Peered (history.accounting line protocol) :=
  ⟨peered.placed, peered.recorded, peered.built⟩

end Peered

section Common

variable {S A B E : Type} [Service S A B E] {protocol next : Protocol S} {now : Duration}

theorem mem_queuedEntries_setCore {core : ServiceCore A B E} {entry : QueueEntry} :
    entry ∈ queuedEntries (protocol.setCore core) ↔ entry ∈ (queues core.scheduler).flatten := by
  unfold queuedEntries
  rw [core_setCore]

/-- A packet of a connection is accounted: the peer it goes to is connected, so that no
awaiting one takes its place. -/
theorem untouched_sent [PeerTable S] {M : Type} [Carried M] [Sendable M] [Bodied M] [Travels M]
    {packet : Packet ToSend M} {reliability : ReliabilityType}
    (hdistinct : Distinct protocol.service)
    (hat : ConnectedAt protocol.service (Carried.connectionId packet.message)
      packet.delivery.metadata.address)
    (h : protocol.sent packet reliability now = .ok next) :
    Untouched protocol.service next.service ∧ queuedEntries next = queuedEntries protocol := by
  obtain ⟨completes, core, -, hcore, rfl⟩ := sent_frame h
  have hpromote : Service.promoteAwaiting protocol.service packet.delivery.metadata.address
      (Carried.connectionId packet.message) now = protocol.service :=
    PeerTable.promote_of_unknown _ _ _ _ fun trackers => hdistinct.apart _ _ trackers hat
  simp only [hpromote] at hcore ⊢
  have hkept : (∀ id, (core.connected.lookup id).map identity =
      ((Service.core protocol.service).connected.lookup id).map identity) ∧
      core.scheduler = (Service.core protocol.service).scheduler ∧
      core.reliabilityHandler = (Service.core protocol.service).reliabilityHandler := by
    cases completes with
    | false =>
      cases hcore
      exact ⟨fun _ => rfl, rfl, rfl⟩
    | true =>
      rcases advanceConnected_cases hcore with ⟨-, rfl⟩ | ⟨peer, advanced, hfound, hadvanced, rfl⟩
      · exact ⟨fun _ => rfl, rfl, rfl⟩
      · obtain ⟨sequence, -, rfl⟩ := advance_eq_ok.mp hadvanced
        exact ⟨map_lookup_insert identity { peer with sequenceTracker := sequence } hfound rfl,
          rfl, rfl⟩
  obtain ⟨hidentities, hscheduler, hhandler⟩ := hkept
  refine ⟨untouched_setCore hidentities (congrArg Scheduler.service hscheduler) ?_, ?_⟩
  · exact (service_keep _ _ _).trans (congrArg ReliabilityHandler.service hhandler)
  · simp only [queuedEntries, Protocol.core, Service.core_setCore, hscheduler]

theorem untouched_drain {R M : Type} [Queued R M] [Sendable M] [Bodied M] [QueueView R M]
    {start stop : Nat} {drained : List (Scheduled R M)}
    (h : protocol.drain R M start stop = .ok (drained, next)) :
    Untouched protocol.service next.service ∧
      ∀ entry ∈ queuedEntries next, entry ∈ queuedEntries protocol := by
  obtain ⟨⟨_, queue⟩, hqueue, h⟩ := bind_eq_ok.mp h
  cases h
  refine ⟨untouched_setCore (fun _ => rfl) (QueueView.service_setQueue _ _) rfl, ?_⟩
  intro entry hmem
  rcases mem_setQueue (mem_queuedEntries_setCore.mp hmem) with hmem | hold
  · obtain ⟨scheduled, hscheduled, rfl⟩ := List.mem_map.mp hmem
    exact List.mem_flatten_of_mem (QueueView.queue_mem protocol.core.scheduler)
      (List.mem_map_of_mem (mem_drainRange hqueue scheduled hscheduled))
  · exact hold

theorem untouched_retry {M : Type} [Carried M] [Sendable M] [Bodied M] [Travels M]
    {packet : Option (Packet ToSend M)} (h : protocol.retry M now = .ok (packet, next)) :
    Untouched protocol.service next.service ∧ queuedEntries next = queuedEntries protocol := by
  obtain ⟨handler, hhandler, rfl⟩ := retry_frame h
  refine ⟨untouched_setCore (fun _ => rfl) rfl (stored_retry hhandler).2.2, ?_⟩
  unfold queuedEntries
  rw [core_setCore]

variable [PeerTable S] {hash : RandomState} {reliability : ReliabilityType} {sendTo : SendTo}
  {result : Result PacketId}

theorem ForTarget.hasPeer {service : S} {targets : List Target} {entry : QueueEntry}
    (h : ForTarget targets entry) (hdistinct : Distinct service)
    (htargets : (Service.core service).targets hash sendTo = .ok targets) :
    HasPeer service entry := by
  obtain ⟨target, hmem, hconnection, haddress⟩ := h
  exact ⟨target.1, hconnection, haddress ▸ (targets_ok hdistinct htargets).1 target hmem⟩

theorem untouched_schedule {payload : Payload} (hdistinct : Distinct protocol.service)
    (h : protocol.schedule hash reliability sendTo payload now = .ok (result, next)) :
    Untouched protocol.service next.service ∧ ∀ entry ∈ queuedEntries next,
      entry ∈ queuedEntries protocol ∨ HasPeer protocol.service entry := by
  rcases schedule_cases h with ⟨_, -, rfl⟩ | ⟨targets, tracker, -, htargets, -, -, rfl⟩
  · exact ⟨.refl _, fun _ hmem => .inl hmem⟩
  refine ⟨untouched_setCore (fun _ => rfl) (queued_service ..) rfl, fun entry hmem => ?_⟩
  have hmem := mem_queuedEntries_setCore.mp hmem
  rcases htargets with hnil | htargets
  · rw [hnil] at hmem
    have hnone : queued protocol.core.scheduler reliability protocol.packetIdTracker now targets
        ([] : List (Payload × Nat)).length [] = protocol.core.scheduler :=
      (queued_eq ..).symm
    rw [hnone] at hmem
    exact .inl hmem
  · exact (mem_queued hmem).imp_right fun htarget => htarget.hasPeer hdistinct htargets

theorem untouched_heartbeat (hdistinct : Distinct protocol.service)
    (h : protocol.heartbeat hash reliability sendTo now = .ok (result, next)) :
    Untouched protocol.service next.service ∧ ∀ entry ∈ queuedEntries next,
      entry ∈ queuedEntries protocol ∨ HasPeer protocol.service entry := by
  rcases heartbeat_cases h with ⟨_, -, rfl⟩ | ⟨targets, tracker, -, htargets, -, -, rfl⟩
  · exact ⟨.refl _, fun _ hmem => .inl hmem⟩
  refine ⟨untouched_setCore (fun _ => rfl) (beaten_service ..) rfl, fun entry hmem => ?_⟩
  exact (mem_beaten (mem_queuedEntries_setCore.mp hmem)).imp_right fun htarget =>
    htarget.hasPeer hdistinct htargets

end Common

section Moves

variable {S A B E : Type} [Service S A B E] [HandshakeQueue S] [PeerTable S]
  {history next : History S}

theorem CommonMove.keeps (peered : Peered history)
    (hdistinct : Distinct history.protocol.service) (move : CommonMove history next) :
    Untouched history.protocol.service next.protocol.service ∧ Peered next := by
  have hafter : ∀ {protocol : Protocol S},
      Untouched history.protocol.service protocol.service ∧
        (∀ entry ∈ queuedEntries protocol, entry ∈ queuedEntries history.protocol ∨
          HasPeer history.protocol.service entry) →
      Untouched history.protocol.service protocol.service ∧ Peered (history.after protocol) :=
    fun ⟨huntouched, hqueued⟩ => ⟨huntouched, peered.after
      (fun id address => (huntouched.connectedAt id address).mpr) hqueued⟩
  cases move with
  | schedule hash reliability sendTo payload now result protocol call =>
    exact hafter (untouched_schedule hdistinct call)
  | heartbeat hash reliability sendTo now result protocol call =>
    exact hafter (untouched_heartbeat hdistinct call)
  | drain R M start stop drained protocol call =>
    obtain ⟨huntouched, hqueued⟩ := untouched_drain call
    exact hafter ⟨huntouched, fun entry hmem => .inl (hqueued entry hmem)⟩
  | create R M message scheduled now packet placed call =>
    refine ⟨.refl _, peered.building fun id hid => ?_⟩
    obtain ⟨peer, -, call⟩ := bind_eq_ok.mp call
    cases call
    obtain ⟨id', hid', hat⟩ := peered.placed _ placed
    cases hid.symm.trans hid'
    exact hat
  | sent M packet reliability now protocol built call =>
    have hat := peered.built _ built _ (Travels.connection_body packet.message)
    obtain ⟨huntouched, hqueues⟩ := untouched_sent hdistinct hat call
    obtain ⟨-, hpeered⟩ := hafter ⟨huntouched, fun entry hmem => .inl (hqueues ▸ hmem)⟩
    exact ⟨huntouched, hpeered.accounting _⟩
  | retry M now packet protocol call =>
    obtain ⟨huntouched, hqueues⟩ := untouched_retry call
    exact hafter ⟨huntouched, fun entry hmem => .inl (hqueues ▸ hmem)⟩

end Moves

section Server

variable {crc32 : Crc32} {registry : Registry SocketAddr} {server after : Server}
  {history next : History Server} {heard : Option Header}

theorem SamePeers.connectedAt (h : SamePeers server after) (id : ConnectionId)
    (address : SocketAddr) : ConnectedAt after id address ↔ ConnectedAt server id address :=
  connectedAt_congr (fun _ => rfl) h.connected id address

theorem ServerHears.connectedAt {header : Header} (h : ServerHears server header after)
    {id : ConnectionId} {address : SocketAddr} (hat : ConnectedAt server id address) :
    ConnectedAt after id address := by
  cases h with
  | connected peer found reassembler events delivers =>
    rw [connectedAt_iff] at hat ⊢
    exact (map_lookup_insert Peer.address (hearing peer header reassembler) found rfl id).trans hat
  | awaiting peer unconnected found time reassembler events delivers =>
    exact (connectedAt_insert unconnected rfl id address).mpr (.inr hat)

theorem connectedAt_received {hash : RandomState} {raw : RawPacket} {now : Duration}
    {result : Result Unit} {protocol received : Protocol Server}
    (table : ServerTable registry protocol.service)
    (h : protocol.serverReceived crc32 hash raw now = .ok (result, received)) :
    (∀ id address, ConnectedAt protocol.service id address →
      ConnectedAt received.service id address) ∧
      queuedEntries received = queuedEntries protocol := by
  obtain ⟨answered, hreceived, -⟩ := serverReceived_onReceived h
  unfold queuedEntries
  rcases server_onReceived_cases hreceived with hsame | ⟨_, _, -, -, -, hhears⟩ | ⟨_, -, -, hadmits⟩
  · rw [Protocol.core, hsame]
    exact ⟨fun _ _ hat => hat, rfl⟩
  · refine ⟨fun _ _ => hhears.connectedAt, ?_⟩
    exact congrArg (fun scheduler => (queues scheduler).flatten) hhears.kept.1
  · rw [Protocol.core]
    generalize received.service = service at hadmits
    cases hadmits with
    | again id peer asking found =>
      rw [table.requesting, Finmap.lookup_empty] at found
      contradiction
    | registered tracker unknown counted => exact ⟨fun _ _ hat => hat, rfl⟩

theorem queuedEntries_sentConnectionAccepted {protocol sent : Protocol Server}
    {packet : Packet ToSend ConnectionAccepted} {now : Duration}
    (h : protocol.sentConnectionAccepted packet now = .ok sent) :
    queuedEntries sent = queuedEntries protocol := by
  obtain ⟨awaiting, -, rfl⟩ := sentConnectionAccepted_frame h
  rfl

theorem queuedEntries_drainConnectionAccepted {protocol left : Protocol Server} {start stop : Nat}
    {drained : List (Scheduled Reliable ConnectionAccepted)}
    (h : protocol.drainConnectionAccepted start stop = .ok (drained, left)) :
    queuedEntries left = queuedEntries protocol := by
  obtain ⟨_, -, rfl⟩ := drainConnectionAccepted_frame h
  rfl

theorem queuedEntries_retryConnectionAccepted {protocol retried : Protocol Server} {now : Duration}
    {packet : Option (Packet ToSend ConnectionAccepted)}
    (h : protocol.retryReliableConnectionAccepted now = .ok (packet, retried)) :
    queuedEntries retried = queuedEntries protocol := by
  obtain ⟨_, -, rfl⟩ := retryConnectionAccepted_frame h
  rfl

theorem queuedEntries_serverPoll {protocol polled : Protocol Server} {hash : RandomState}
    {peerHash : ConnectionId → RandomState} {elapsed now : Duration}
    {events : List (ProtocolEvent ServerEvent)}
    (h : protocol.serverPoll hash peerHash elapsed now = .ok (events, polled)) :
    queuedEntries polled = queuedEntries protocol := by
  obtain ⟨_, _, -, -, -, rfl⟩ := serverPoll_frame h
  rfl

theorem ServerMove.keeps (table : ServerTable registry history.protocol.service)
    (peered : Peered history) (move : ServerMove crc32 history heard next) :
    (∃ later, ServerTable later next.protocol.service) ∧ Peered next := by
  have hsame : ∀ {protocol : Protocol Server},
      SamePeers history.protocol.service protocol.service →
      queuedEntries protocol = queuedEntries history.protocol →
      (∃ later, ServerTable later protocol.service) ∧ Peered (history.after protocol) :=
    fun hpeers hqueues => ⟨⟨registry, table.of_samePeers hpeers⟩,
      peered.same_queues (fun id address => (hpeers.connectedAt id address).mpr) hqueues⟩
  cases move with
  | common move =>
    obtain ⟨huntouched, hpeered⟩ := move.keeps peered table.distinct
    exact ⟨⟨registry, table.of_samePeers huntouched.samePeers⟩, hpeered⟩
  | received hash raw now result protocol call =>
    obtain ⟨later, -, table'⟩ := table.of_received call
    obtain ⟨hkept, hqueues⟩ := connectedAt_received table call
    exact ⟨⟨later, table'⟩, peered.same_queues hkept hqueues⟩
  | create scheduled now packet greeted call =>
    exact ⟨⟨registry, table⟩, peered.building fun id hid => by contradiction⟩
  | sent packet now protocol built call =>
    obtain ⟨htable, hpeered⟩ := hsame (samePeers_sentConnectionAccepted call)
      (queuedEntries_sentConnectionAccepted call)
    exact ⟨htable, hpeered.accounting _⟩
  | drain start stop drained protocol call =>
    exact hsame (samePeers_drainConnectionAccepted call)
      (queuedEntries_drainConnectionAccepted call)
  | retry now packet protocol call =>
    exact hsame (samePeers_retryConnectionAccepted call)
      (queuedEntries_retryConnectionAccepted call)
  | poll hash peerHash elapsed now events protocol call =>
    exact hsame (samePeers_poll call) (queuedEntries_serverPoll call)

theorem peered_new {S A B E : Type} [Service S A B E] [HandshakeQueue S] {protocol : Protocol S}
    (hnone : queuedEntries protocol = []) : Peered (.new protocol) := by
  refine ⟨fun entry hmem => ?_, fun entry hmem => hmem, fun line hmem => ?_⟩
  · have hmem : entry ∈ queuedEntries protocol := hmem
    rw [hnone] at hmem
    contradiction
  · exact absurd hmem List.not_mem_nil

theorem serverHistories_keeps {crc32 : Crc32} {history : History Server}
    (h : (serverHistories crc32).Reachable history) :
    (∃ registry, ServerTable registry history.protocol.service) ∧ Peered history := by
  refine h.invariant (fun history =>
    (∃ registry, ServerTable registry history.protocol.service) ∧ Peered history) ?_ ?_
  · rintro _ ⟨reliableTtl, rfl⟩
    exact ⟨⟨.empty, serverTable_new reliableTtl⟩, peered_new rfl⟩
  · rintro history next - ⟨⟨registry, table⟩, peered⟩ ⟨heard, move⟩
    exact move.keeps table peered

end Server

section Client

variable {crc32 : Crc32} {asked pending : List SocketAddr} {client after : Client}
  {history next : History Client}

theorem ClientTable.of_perm (table : ClientTable asked pending client) {other : List SocketAddr}
    (h : pending.Perm other) : ClientTable asked other client :=
  { table with
    pending_nodup := h.nodup_iff.mp table.pending_nodup
    pending_iff := fun address => h.mem_iff.symm.trans (table.pending_iff address) }

theorem ClientHears.connectedAt {header : Header} (h : ClientHears client header after)
    {id : ConnectionId} {address : SocketAddr} (hat : ConnectedAt client id address) :
    ConnectedAt after id address := by
  cases h with
  | connected peer found reassembler events delivers =>
    rw [connectedAt_iff] at hat ⊢
    exact (map_lookup_insert Peer.address (hearing peer header reassembler) found rfl id).trans hat
  | awaiting peer unconnected found time events delivers =>
    exact (connectedAt_insert unconnected rfl id address).mpr (.inr hat)

theorem ClientTable.of_sent {protocol sent : Protocol Client}
    {packet : Packet ToSend ConnectionRequest} {now : Duration}
    (table : ClientTable asked pending protocol.service)
    (h : protocol.sentConnectionRequest packet now = .ok sent) :
    ClientTable asked (pending.erase packet.delivery.metadata.address) sent.service := by
  obtain ⟨peer, advanced, hfound, hadvanced, rfl⟩ := sentConnectionRequest_frame h
  have hpeer : (advanced.awaitConnectionAck now).address = packet.delivery.metadata.address := by
    obtain ⟨sequence, -, rfl⟩ := advance_eq_ok.mp hadvanced
    exact table.ownRequesting _ peer hfound
  have hpending := (table.pending_iff _).mpr (Finmap.mem_of_lookup_eq_some hfound)
  exact (table.of_perm (List.perm_cons_erase hpending)).of_requested hpeer rfl rfl rfl

structure SameTable (protocol next : Protocol Client) : Prop where
  requesting : next.service.requestingConnection = protocol.service.requestingConnection
  awaiting : next.service.awaitingConnectionAck = protocol.service.awaitingConnectionAck
  connected : next.service.connected = protocol.service.connected
  queues : queuedEntries next = queuedEntries protocol

theorem sameTable_drainConnectionRequest {protocol left : Protocol Client} {start stop : Nat}
    {drained : List (Scheduled Reliable ConnectionRequest)}
    (h : protocol.drainConnectionRequest start stop = .ok (drained, left)) :
    SameTable protocol left := by
  obtain ⟨_, -, rfl⟩ := drainConnectionRequest_frame h
  exact ⟨rfl, rfl, rfl, rfl⟩

theorem sameTable_resend {protocol resent : Protocol Client} {now : Duration}
    {packet : Option (Packet ToSend ConnectionRequest)}
    (h : protocol.resendReliableConnectionRequest now = .ok (packet, resent)) :
    SameTable protocol resent := by
  obtain ⟨_, -, rfl⟩ := resend_frame h
  exact ⟨rfl, rfl, rfl, rfl⟩

theorem sameTable_clientPoll {protocol polled : Protocol Client} {elapsed : Duration}
    {events : List (ProtocolEvent ClientEvent)}
    (h : protocol.clientPoll elapsed = .ok (events, polled)) : SameTable protocol polled := by
  obtain ⟨_, -, -, rfl⟩ := clientPoll_frame h
  exact ⟨rfl, rfl, rfl, rfl⟩

theorem ClientMove.keeps (table : ClientTable asked pending history.protocol.service)
    (peered : Peered history) (move : ClientMove crc32 history next) :
    (∃ asked pending, ClientTable asked pending next.protocol.service) ∧ Peered next := by
  have hsame : ∀ {protocol : Protocol Client}, SameTable history.protocol protocol →
      (∃ asked pending, ClientTable asked pending protocol.service) ∧
        Peered (history.after protocol) := by
    intro protocol hsame
    refine ⟨⟨asked, pending, table.congr hsame.requesting hsame.awaiting fun id => ?_⟩,
      peered.same_queues (fun id address hat => ?_) hsame.queues⟩
    · rw [hsame.connected]
    · rw [connectedAt_iff] at hat ⊢
      exact (congrArg (fun map => (map.lookup id).map Peer.address) hsame.connected).trans hat
  cases move with
  | common move =>
    obtain ⟨huntouched, hpeered⟩ := move.keeps peered table.distinct
    obtain ⟨core, hcore⟩ := huntouched.frame
    have hidentities := huntouched.identities
    rw [hcore] at hidentities ⊢
    exact ⟨⟨asked, pending, table.congr rfl rfl hidentities⟩, hpeered⟩
  | connect address now result protocol call =>
    rcases connect_cases call with ⟨_, -, rfl⟩ | ⟨tracker, hunknown, -, -, rfl⟩
    · exact hsame ⟨rfl, rfl, rfl, rfl⟩
    · exact ⟨⟨_, _, table.of_connecting hunknown history.protocol.packetIdTracker now⟩,
        peered.same_queues (fun _ _ hat => hat) rfl⟩
  | received raw now result protocol call =>
    obtain ⟨hreceived, hprotocol⟩ := clientReceived_onReceived call
    rcases client_onReceived_cases hreceived with hservice | ⟨_, -, -, hhears⟩
    · rw [hservice] at hprotocol
      rw [hprotocol]
      exact hsame ⟨rfl, rfl, rfl, rfl⟩
    · refine ⟨⟨asked, pending, table.of_hears hhears⟩,
        peered.same_queues (fun _ _ => hhears.connectedAt) ?_⟩
      exact congrArg (fun scheduler => (queues scheduler).flatten) hhears.kept.2.1
  | create scheduled now packet greeted call =>
    exact ⟨⟨asked, pending, table⟩, peered.building fun id hid => by contradiction⟩
  | sent packet now protocol built call =>
    have hsent := table.of_sent call
    obtain ⟨peer, advanced, -, -, rfl⟩ := sentConnectionRequest_frame call
    refine ⟨⟨_, _, hsent⟩, Peered.accounting (peered.same_queues ?_ ?_) _⟩
    · exact fun _ _ hat => hat
    · rfl
  | drain start stop drained protocol call => exact hsame (sameTable_drainConnectionRequest call)
  | resend now packet protocol call => exact hsame (sameTable_resend call)
  | poll elapsed events protocol call => exact hsame (sameTable_clientPoll call)

theorem clientHistories_keeps {crc32 : Crc32} {history : History Client}
    (h : (clientHistories crc32).Reachable history) :
    (∃ asked pending, ClientTable asked pending history.protocol.service) ∧ Peered history := by
  refine h.invariant (fun history =>
    (∃ asked pending, ClientTable asked pending history.protocol.service) ∧ Peered history) ?_ ?_
  · rintro _ rfl
    exact ⟨⟨[], [], clientTable_new⟩, peered_new rfl⟩
  · rintro history next - ⟨⟨asked, pending, table⟩, peered⟩ move
    exact move.keeps table peered

end Client

section Created

variable {S A B E : Type} [Service S A B E]

/-- The six functions that build a packet of a connection return it for every entry that
was in a queue at the earlier state. -/
structure CreatesAll (earlier later : Protocol S) : Prop where
  reliableDataTransfer : ∀ scheduled ∈ earlier.core.scheduler.listScheduledReliableDataTransfer,
    ∀ now, ∃ packet, later.createReliableDataTransfer scheduled now = .ok packet
  unreliableDataTransfer :
    ∀ scheduled ∈ earlier.core.scheduler.listScheduledUnreliableDataTransfer,
      ∀ now, ∃ packet, later.createUnreliableDataTransfer scheduled now = .ok packet
  reliableFragment : ∀ scheduled ∈ earlier.core.scheduler.listScheduledReliableFragment,
    ∀ now, ∃ packet, later.createReliableFragment scheduled now = .ok packet
  unreliableFragment : ∀ scheduled ∈ earlier.core.scheduler.listScheduledUnreliableFragment,
    ∀ now, ∃ packet, later.createUnreliableFragment scheduled now = .ok packet
  reliableHeartbeat : ∀ scheduled ∈ earlier.core.scheduler.listScheduledReliableHeartbeat,
    ∀ now, ∃ packet, later.createReliableHeartbeat scheduled now = .ok packet
  unreliableHeartbeat : ∀ scheduled ∈ earlier.core.scheduler.listScheduledUnreliableHeartbeat,
    ∀ now, ∃ packet, later.createUnreliableHeartbeat scheduled now = .ok packet

theorem createCarried_returns {R M : Type} [Queued R M] [Carried M] [Sendable M] [Bodied M]
    [Travels M] [QueueView R M] {earlier later : Protocol S}
    (h : ∀ entry ∈ queuedEntries earlier, HasPeer later.service entry) (message : String) :
    ∀ scheduled ∈ (Queued.queue earlier.core.scheduler : List (Scheduled R M)), ∀ now,
      ∃ packet, later.core.createCarried message scheduled now = .ok packet := by
  intro scheduled hmem now
  obtain ⟨id, hid, peer, hfound, -⟩ := h _ (List.mem_flatten_of_mem
    (QueueView.queue_mem earlier.core.scheduler) (List.mem_map_of_mem hmem))
  have hconnection := (Travels.connection_body scheduled.message).symm.trans hid
  cases hconnection
  exact ⟨_, bind_eq_ok.mpr ⟨peer, expect_eq_ok.mpr hfound, rfl⟩⟩

theorem createsAll_of_hasPeer {earlier later : Protocol S}
    (h : ∀ entry ∈ queuedEntries earlier, HasPeer later.service entry) :
    CreatesAll earlier later where
  reliableDataTransfer := createCarried_returns h _
  unreliableDataTransfer := createCarried_returns h _
  reliableFragment := createCarried_returns h _
  unreliableFragment := createCarried_returns h _
  reliableHeartbeat := createCarried_returns h _
  unreliableHeartbeat := createCarried_returns h _

end Created

section Runs

/-- Whatever is called after an entry was queued, its peer is connected at its address, and
its packet can be built. -/
def QueuesPeered {S A B E : Type} [Service S A B E] (machine : Machine (History S)) : Prop :=
  ∀ earlier later, machine.Reachable earlier → machine.Steps earlier later →
    (∀ entry ∈ queuedEntries earlier.protocol, HasPeer later.protocol.service entry) ∧
      CreatesAll earlier.protocol later.protocol

theorem CommonMove.placed {S A B E : Type} [Service S A B E] [HandshakeQueue S]
    {history next : History S} (move : CommonMove history next) :
    ∀ entry ∈ history.placed, entry ∈ next.placed := by
  cases move with
  | create R M message scheduled now packet placed call => exact fun _ hmem => hmem
  | _ => exact fun _ => List.mem_append_left _

theorem ServerMove.placed {crc32 : Crc32} {history next : History Server} {heard : Option Header}
    (move : ServerMove crc32 history heard next) :
    ∀ entry ∈ history.placed, entry ∈ next.placed := by
  cases move with
  | common move => exact move.placed
  | create scheduled now packet greeted call => exact fun _ hmem => hmem
  | _ => exact fun _ => List.mem_append_left _

theorem ClientMove.placed {crc32 : Crc32} {history next : History Client}
    (move : ClientMove crc32 history next) : ∀ entry ∈ history.placed, entry ∈ next.placed := by
  cases move with
  | common move => exact move.placed
  | create scheduled now packet greeted call => exact fun _ hmem => hmem
  | _ => exact fun _ => List.mem_append_left _

/-- The run lemma: what was placed once stays placed, and what is placed has its peer. -/
theorem queuesPeered_of {S A B E : Type} [Service S A B E] {machine : Machine (History S)}
    (hpeered : ∀ history, machine.Reachable history → Peered history)
    (hplaced : ∀ history next, machine.step history next →
      ∀ entry ∈ history.placed, entry ∈ next.placed) : QueuesPeered machine := by
  intro earlier later hreachable hsteps
  have hlater : machine.Reachable later ∧ ∀ entry ∈ earlier.placed, entry ∈ later.placed := by
    induction hsteps with
    | refl => exact ⟨hreachable, fun _ hmem => hmem⟩
    | tail _ hstep ih =>
      exact ⟨ih.1.next hstep, fun entry hmem => hplaced _ _ hstep entry (ih.2 entry hmem)⟩
  have hpeer : ∀ entry ∈ queuedEntries earlier.protocol, HasPeer later.protocol.service entry :=
    fun entry hmem => (hpeered later hlater.1).placed entry
      (hlater.2 entry ((hpeered earlier hreachable).recorded entry hmem))
  exact ⟨hpeer, createsAll_of_hasPeer hpeer⟩

/-- Queued traffic has its peer in both roles, in every state that their calls can reach. -/
theorem queued_traffic_has_its_peer (crc32 : Crc32) :
    QueuesPeered (serverHistories crc32) ∧ QueuesPeered (clientHistories crc32) := by
  refine ⟨queuesPeered_of (fun _ h => (serverHistories_keeps h).2) ?_,
    queuesPeered_of (fun _ h => (clientHistories_keeps h).2) fun _ _ move => move.placed⟩
  rintro history next ⟨heard, move⟩
  exact move.placed

def beatenServer : Protocol Server :=
  let scheduler := beaten overtakenServer.core.scheduler .reliable 1 .zero
    [(.one, .v4 0 0)]
  { overtakenServer.setCore { overtakenServer.core with scheduler := scheduler } with
    packetIdTracker := 2 }

theorem beatenServer_creates :
    ∃ history, (serverHistories ieeeCrc32).Reachable history ∧ history.protocol = beatenServer ∧
      ∃ scheduled ∈ beatenServer.core.scheduler.listScheduledReliableHeartbeat, ∀ now,
        ∃ packet, beatenServer.createReliableHeartbeat scheduled now = .ok packet := by
  let hash := Classical.arbitrary RandomState
  let start : History Server := .new (.newServer .zero)
  have hrequested : (serverHistories ieeeCrc32).Reachable (start.after requestedServer) :=
    .next (.start ⟨.zero, rfl⟩)
      ⟨_, .received hash _ .zero (.ok ()) requestedServer (newServer_requested hash)⟩
  have hconnected := hrequested.next ⟨_, .received hash earlyDatagram .zero (.ok ())
    overtakenServer (requestedServer_overtaken hash)⟩
  have hbeaten := hconnected.next ⟨_, .common (.heartbeat hash .reliable (.single ⟨1, by decide⟩)
    .zero (.ok 2) beatenServer rfl)⟩
  refine ⟨_, hbeaten, rfl, _, List.mem_singleton_self _, ?_⟩
  exact ((queued_traffic_has_its_peer ieeeCrc32).1 _ _ hbeaten .refl).2.reliableHeartbeat _
    (List.mem_singleton_self _)

end Runs

end Antarc.Properties
