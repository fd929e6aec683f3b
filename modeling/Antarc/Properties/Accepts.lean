import Antarc.Properties.Queueing
import Antarc.Properties.ServerTable

/-! The accept that is queued for a peer. It can be built while its peer awaits the ack,
and a packet of the connection that is received first takes the peer away from it. -/
namespace Antarc.Properties

open Library

section Calls

variable {server next : Server} {protocol after : Protocol Server}

def queuedAccepts (server : Server) : List ConnectionId :=
  server.scheduler.service.listScheduledConnectionAccepted.map fun scheduled =>
    scheduled.message.connectionId

/-- Every queued accept is for a peer that awaits its ack. -/
def AcceptsBuildable (server : Server) : Prop :=
  ∀ id ∈ queuedAccepts server, id ∈ server.awaitingConnectionAck

theorem createConnectionAccepted_iff (protocol : Protocol Server)
    (scheduled : Scheduled Reliable ConnectionAccepted) (now : Duration) :
    (∃ packet, protocol.createConnectionAccepted scheduled now = .ok packet) ↔
      scheduled.message.connectionId ∈ protocol.service.awaitingConnectionAck := by
  unfold Protocol.createConnectionAccepted Server.createConnectionAccepted
  rw [mem_iff_lookup]
  cases protocol.service.awaitingConnectionAck.lookup scheduled.message.connectionId with
  | none => simp [expect]
  | some peer => simp [expect, pure, Except.pure]

inductive OwnCall (protocol next : Protocol Server) : Prop where
  | schedule (hash : RandomState) (reliability : ReliabilityType) (sendTo : SendTo)
      (payload : Payload) (now : Duration) (result : Result PacketId)
      (call : protocol.schedule hash reliability sendTo payload now = .ok (result, next))
  | heartbeat (hash : RandomState) (reliability : ReliabilityType) (sendTo : SendTo)
      (now : Duration) (result : Result PacketId)
      (call : protocol.heartbeat hash reliability sendTo now = .ok (result, next))
  | drain (R M : Type) [Queued R M] [Sendable M] [Bodied M] [QueueView R M] (start stop : Nat)
      (drained : List (Scheduled R M))
      (call : protocol.drain R M start stop = .ok (drained, next))
  | drainConnectionAccepted (start stop : Nat)
      (drained : List (Scheduled Reliable ConnectionAccepted))
      (call : protocol.drainConnectionAccepted start stop = .ok (drained, next))
  | sent (M : Type) [Carried M] (packet : Packet ToSend M) (reliability : ReliabilityType)
      (now : Duration) (call : protocol.sent packet reliability now = .ok next)
  | sentConnectionAccepted (packet : Packet ToSend ConnectionAccepted) (now : Duration)
      (call : protocol.sentConnectionAccepted packet now = .ok next)
  | retry (M : Type) [Carried M] (now : Duration) (packet : Option (Packet ToSend M))
      (call : protocol.retry M now = .ok (packet, next))
  | retryConnectionAccepted (now : Duration) (packet : Option (Packet ToSend ConnectionAccepted))
      (call : protocol.retryReliableConnectionAccepted now = .ok (packet, next))
  | poll (hash : RandomState) (peerHash : ConnectionId → RandomState) (elapsed now : Duration)
      (events : List (ProtocolEvent ServerEvent))
      (call : protocol.serverPoll hash peerHash elapsed now = .ok (events, next))

structure KeepsAccepts (server next : Server) : Prop where
  peers : SamePeers server next
  queue : ∀ id ∈ queuedAccepts next, id ∈ queuedAccepts server

theorem KeepsAccepts.of_eq (hpeers : SamePeers server next)
    (h : next.scheduler.service = server.scheduler.service) : KeepsAccepts server next := by
  refine ⟨hpeers, ?_⟩
  unfold queuedAccepts
  rw [h]
  exact fun id hid => hid

theorem keepsAccepts_drainConnectionAccepted {start stop : Nat}
    {drained : List (Scheduled Reliable ConnectionAccepted)}
    (h : protocol.drainConnectionAccepted start stop = .ok (drained, after)) :
    KeepsAccepts protocol.service after.service := by
  refine ⟨samePeers_drainConnectionAccepted h, ?_⟩
  obtain ⟨queue, hqueue, rfl⟩ := drainConnectionAccepted_frame h
  intro id hid
  obtain ⟨scheduled, hmem, rfl⟩ := List.mem_map.mp hid
  exact List.mem_map_of_mem (mem_drainRange hqueue scheduled hmem)

/-- Nothing but `on_received` adds an accept, or takes a peer away from one. -/
theorem OwnCall.keepsAccepts (h : OwnCall protocol after) :
    KeepsAccepts protocol.service after.service := by
  cases h with
  | schedule hash reliability sendTo payload now result call =>
    refine .of_eq (samePeers_schedule call) ?_
    rcases schedule_cases call with ⟨_, -, rfl⟩ | ⟨_, _, -, -, -, -, rfl⟩
    · rfl
    · exact queued_service ..
  | heartbeat hash reliability sendTo now result call =>
    refine .of_eq (samePeers_heartbeat call) ?_
    rcases heartbeat_cases call with ⟨_, -, rfl⟩ | ⟨_, _, -, -, -, -, rfl⟩
    · rfl
    · exact beaten_service ..
  | drain R M start stop drained call =>
    refine .of_eq (samePeers_drain call) ?_
    obtain ⟨queue, rfl⟩ := drain_frame call
    exact QueueView.service_setQueue _ queue
  | drainConnectionAccepted start stop drained call =>
    exact keepsAccepts_drainConnectionAccepted call
  | sent M packet reliability now call =>
    refine .of_eq (samePeers_sent call) ?_
    obtain ⟨completes, core, -, hcore, rfl⟩ := sent_frame call
    obtain ⟨connected, rfl⟩ := advanced_frame hcore
    rfl
  | sentConnectionAccepted packet now call =>
    refine .of_eq (samePeers_sentConnectionAccepted call) ?_
    obtain ⟨awaiting, -, rfl⟩ := sentConnectionAccepted_frame call
    rfl
  | retry M now packet call =>
    refine .of_eq (samePeers_retry call) ?_
    obtain ⟨handler, -, rfl⟩ := retry_frame call
    rfl
  | retryConnectionAccepted now packet call =>
    refine .of_eq (samePeers_retryConnectionAccepted call) ?_
    obtain ⟨_, -, rfl⟩ := retryConnectionAccepted_frame call
    rfl
  | poll hash peerHash elapsed now events call =>
    refine .of_eq (samePeers_poll call) ?_
    obtain ⟨_, _, -, -, -, rfl⟩ := serverPoll_frame call
    rfl

end Calls

section Runs

variable {crc32 : Crc32} {protocol next : Protocol Server} {raw : RawPacket} {now : Duration}

/-- The datagram is a packet of a connection whose accept is still queued. -/
def Overtakes (crc32 : Crc32) (server : Server) (raw : RawPacket) (now : Duration) : Prop :=
  ∃ decoded header, raw.decode crc32 DecodedForServer.tryFrom now = .ok (.ok decoded) ∧
    forServerHeader decoded = some header ∧ header.connectionId ∈ queuedAccepts server

/-- One call, but for the receipt of a datagram that overtakes an accept. -/
inductive OrderlyCall (crc32 : Crc32) (protocol next : Protocol Server) : Prop where
  | own (call : OwnCall protocol next)
  | received (hash : RandomState) (raw : RawPacket) (now : Duration) (result : Result Unit)
      (inOrder : ¬Overtakes crc32 protocol.service raw now)
      (call : protocol.serverReceived crc32 hash raw now = .ok (result, next))

def orderlyCalls (crc32 : Crc32) : Machine (Protocol Server) where
  init protocol := ∃ reliableTtl, protocol = .newServer reliableTtl
  step := OrderlyCall crc32

theorem SamePeers.mem_awaiting {server next : Server} (h : SamePeers server next)
    {id : ConnectionId} (hid : id ∈ server.awaitingConnectionAck) :
    id ∈ next.awaitingConnectionAck := by
  rwa [← Finmap.lookup_isSome, map_eq_isSome (h.awaiting id), Finmap.lookup_isSome]

theorem KeepsAccepts.buildable {server next : Server} (h : KeepsAccepts server next)
    (hbuildable : AcceptsBuildable server) : AcceptsBuildable next :=
  fun id hid => h.peers.mem_awaiting (hbuildable id (h.queue id hid))

theorem ServerHears.mem_awaiting {server next : Server} {header : Header}
    (h : ServerHears server header next) {id : ConnectionId} (hne : id ≠ header.connectionId)
    (hid : id ∈ server.awaitingConnectionAck) : id ∈ next.awaitingConnectionAck := by
  cases h with
  | connected peer found reassembler events delivers => exact hid
  | awaiting peer unconnected found time reassembler events delivers =>
    exact Finmap.mem_erase.mpr ⟨hne, hid⟩

theorem ServerHears.queuedAccepts {server next : Server} {header : Header}
    (h : ServerHears server header next) : queuedAccepts next = queuedAccepts server := by
  unfold Properties.queuedAccepts
  rw [h.kept.1]

theorem buildable_admits {server next : Server} {packet : Packet Received ConnectionRequest}
    {packetId : PacketId} {time : Duration} (hrequesting : server.requestingConnection = ∅)
    (hbuildable : AcceptsBuildable server) (h : ServerAdmits server packet packetId time next) :
    AcceptsBuildable next := by
  cases h with
  | again id peer asking found =>
    rw [hrequesting, Finmap.lookup_empty] at found
    contradiction
  | registered tracker unknown counted =>
    intro id hid
    simp only [queuedAccepts, admitting, List.map_append, List.mem_append, List.map_cons,
      List.map_nil, List.mem_singleton] at hid
    refine Finmap.mem_insert.mpr ?_
    rcases hid with hid | hid
    · exact .inr (hbuildable id hid)
    · exact .inl hid

theorem buildable_received {hash : RandomState} {result : Result Unit}
    (hrequesting : protocol.service.requestingConnection = ∅)
    (hbuildable : AcceptsBuildable protocol.service)
    (hinOrder : ¬Overtakes crc32 protocol.service raw now)
    (h : protocol.serverReceived crc32 hash raw now = .ok (result, next)) :
    AcceptsBuildable next.service := by
  obtain ⟨answered, hreceived, -⟩ := serverReceived_onReceived h
  rcases server_onReceived_cases hreceived with
    hsame | ⟨decoded, header, hdecode, hheader, -, hhears⟩ | ⟨_, -, -, hadmits⟩
  · rw [hsame]
    exact hbuildable
  · intro id hid
    rw [hhears.queuedAccepts] at hid
    refine hhears.mem_awaiting ?_ (hbuildable id hid)
    rintro rfl
    exact hinOrder ⟨decoded, header, hdecode, hheader, hid⟩
  · exact buildable_admits hrequesting hbuildable hadmits

/-- A datagram that overtakes an accept leaves it without its peer. -/
theorem overtaken_not_buildable {registry : Registry SocketAddr} {hash : RandomState}
    {result : Result Unit} (table : ServerTable registry protocol.service)
    (hbuildable : AcceptsBuildable protocol.service)
    (hovertakes : Overtakes crc32 protocol.service raw now)
    (h : protocol.serverReceived crc32 hash raw now = .ok (result, next)) :
    ¬AcceptsBuildable next.service := by
  obtain ⟨decoded, header, hdecode, hheader, hqueued⟩ := hovertakes
  obtain ⟨answered, hreceived, -⟩ := serverReceived_onReceived h
  have hawaiting := hbuildable _ hqueued
  obtain ⟨-, hhears⟩ := server_onReceived_hears hdecode hheader (.inr hawaiting) hreceived
  intro hnext
  have hstill := hnext header.connectionId (by rwa [hhears.queuedAccepts])
  generalize next.service = service at hhears hstill
  cases hhears with
  | connected peer found reassembler events delivers =>
    exact table.disjoint _ hawaiting (Finmap.mem_of_lookup_eq_some found)
  | awaiting peer unconnected found time reassembler events delivers =>
    exact (Finmap.mem_erase.mp hstill).1 rfl

theorem buildable_newServer (reliableTtl : Duration) :
    AcceptsBuildable (Protocol.newServer reliableTtl).service :=
  fun _ hid => absurd hid List.not_mem_nil

theorem OrderlyCall.keeps {registry : Registry SocketAddr}
    (table : ServerTable registry protocol.service)
    (hbuildable : AcceptsBuildable protocol.service) (h : OrderlyCall crc32 protocol next) :
    (∃ later, ServerTable later next.service) ∧ AcceptsBuildable next.service := by
  cases h with
  | own call =>
    have hkeeps := call.keepsAccepts
    exact ⟨⟨registry, table.of_samePeers hkeeps.peers⟩, hkeeps.buildable hbuildable⟩
  | received hash raw now result inOrder call =>
    obtain ⟨later, -, table'⟩ := table.of_received call
    exact ⟨⟨later, table'⟩, buildable_received table.requesting hbuildable inOrder call⟩

theorem orderly_buildable (h : (orderlyCalls crc32).Reachable protocol) :
    (∃ registry, ServerTable registry protocol.service) ∧ AcceptsBuildable protocol.service := by
  refine h.invariant (fun protocol => (∃ registry, ServerTable registry protocol.service) ∧
    AcceptsBuildable protocol.service) ?_ ?_
  · rintro _ ⟨reliableTtl, rfl⟩
    exact ⟨⟨.empty, serverTable_new reliableTtl⟩, buildable_newServer reliableTtl⟩
  · rintro protocol next - ⟨⟨registry, table⟩, hbuildable⟩ hstep
    exact hstep.keeps table hbuildable

/-- Where no received packet overtakes an accept that is queued, every queued accept can be
built. Whatever was called before, the first packet that does takes the peer away. -/
theorem accepts_buildable_unless_overtaken (crc32 : Crc32) :
    (∀ protocol, (orderlyCalls crc32).Reachable protocol → AcceptsBuildable protocol.service ∧
      ∀ scheduled ∈ protocol.service.scheduler.service.listScheduledConnectionAccepted, ∀ now,
        ∃ packet, protocol.createConnectionAccepted scheduled now = .ok packet) ∧
    ∀ protocol, (serverCalls crc32).Reachable protocol → AcceptsBuildable protocol.service →
      ∀ hash raw now result next,
        protocol.serverReceived crc32 hash raw now = .ok (result, next) →
        (AcceptsBuildable next.service ↔ ¬Overtakes crc32 protocol.service raw now) := by
  constructor
  · intro protocol h
    obtain ⟨-, hbuildable⟩ := orderly_buildable h
    refine ⟨hbuildable, fun scheduled hmem now => ?_⟩
    rw [createConnectionAccepted_iff]
    exact hbuildable _ (List.mem_map_of_mem hmem)
  · intro protocol h hbuildable hash raw now result next hreceived
    obtain ⟨registry, table⟩ := serverTable_reachable h
    constructor
    · intro hnext hovertakes
      exact overtaken_not_buildable table hbuildable hovertakes hreceived hnext
    · intro hinOrder
      exact buildable_received table.requesting hbuildable hinOrder hreceived

/-- The accept is still queued, and its peer does not await it any more. -/
theorem overtakenServer_cannot_build :
    (serverCalls ieeeCrc32).Reachable overtakenServer ∧
      ∃ scheduled ∈ overtakenServer.service.scheduler.service.listScheduledConnectionAccepted,
        scheduled.message.connectionId ∉ overtakenServer.service.awaitingConnectionAck ∧
        overtakenServer.createConnectionAccepted scheduled .zero =
          .error (.expect "Creating a packet (connection accepted) should never fail!") := by
  let hash := Classical.arbitrary RandomState
  have hnone : overtakenServer.service.awaitingConnectionAck.lookup ⟨1, by decide⟩ = none :=
    Finmap.lookup_erase ..
  refine ⟨requestedServer_reachable.next
    (.received hash earlyDatagram .zero (.ok ()) (requestedServer_overtaken hash)),
    ⟨0, .v4 0 0, .zero, {}, ⟨⟨connectionAccepted⟩, ⟨1, by decide⟩⟩⟩, List.mem_singleton.mpr rfl,
    Finmap.lookup_eq_none.mp hnone, ?_⟩
  unfold Protocol.createConnectionAccepted Server.createConnectionAccepted
  rw [hnone]
  rfl

/-- A server that has received a request can build the accept, and a packet of its peer that
comes first overtakes it. -/
theorem requestedServer_buildable :
    (AcceptsBuildable requestedServer.service ∧
      ∀ scheduled ∈ requestedServer.service.scheduler.service.listScheduledConnectionAccepted,
        ∀ now, ∃ packet, requestedServer.createConnectionAccepted scheduled now = .ok packet) ∧
    (AcceptsBuildable overtakenServer.service ↔
      ¬Overtakes ieeeCrc32 requestedServer.service earlyDatagram .zero) := by
  let hash := Classical.arbitrary RandomState
  have horderly : (orderlyCalls ieeeCrc32).Reachable requestedServer := by
    refine .next (.start ⟨.zero, rfl⟩)
      (.received hash _ .zero (.ok ()) ?_ (newServer_requested hash))
    rintro ⟨_, _, -, -, hqueued⟩
    exact List.not_mem_nil hqueued
  have hbuildable := (accepts_buildable_unless_overtaken ieeeCrc32).1 requestedServer horderly
  exact ⟨hbuildable, (accepts_buildable_unless_overtaken ieeeCrc32).2 requestedServer
    requestedServer_reachable hbuildable.1 hash earlyDatagram .zero (.ok ()) overtakenServer
    (requestedServer_overtaken hash)⟩

end Runs

end Antarc.Properties
