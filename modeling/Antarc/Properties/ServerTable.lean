import Antarc.Library.Crc32
import Antarc.Library.Registry
import Antarc.Properties.Accounting
import Antarc.Properties.Codec
import Antarc.Properties.Receiving

/-! The server's connection table. Whatever a server receives and whatever is called on
it, its two maps of peers are one registry of addresses: connection ids are given out
in order, each to an address that has none, and none is taken back. -/
namespace Antarc.Properties

open Library

def addressOf (server : Server) (connectionId : ConnectionId) : Option SocketAddr :=
  ((server.connected.lookup connectionId).map Peer.address).or
    ((server.awaitingConnectionAck.lookup connectionId).map Peer.address)

/-- The maps hold the registry's addresses, each under its number. -/
structure ServerTable (registry : Registry SocketAddr) (server : Server) : Prop where
  requesting : server.requestingConnection = ∅
  disjoint : ∀ id, id ∈ server.awaitingConnectionAck → id ∉ server.connected
  ownId : ∀ id peer, server.connected.lookup id = some peer → peer.connection.connectionId = id
  next : registry.next = server.connectionIdTracker.get.toNat
  holder : ∀ id : ConnectionId, registry.holder id.get.toNat = addressOf server id

section Frames

/-- A change to the server after which every map shows the same peers as before. -/
structure SamePeers (server next : Server) : Prop where
  requesting : next.requestingConnection = server.requestingConnection
  tracker : next.connectionIdTracker = server.connectionIdTracker
  awaiting : ∀ id, (next.awaitingConnectionAck.lookup id).map Peer.address =
    (server.awaitingConnectionAck.lookup id).map Peer.address
  connected : ∀ id, (next.connected.lookup id).map identity =
    (server.connected.lookup id).map identity

variable {registry : Registry SocketAddr} {server next : Server}

theorem SamePeers.refl (server : Server) : SamePeers server server :=
  ⟨rfl, rfl, fun _ => rfl, fun _ => rfl⟩

theorem SamePeers.trans {later : Server} (first : SamePeers server next)
    (second : SamePeers next later) : SamePeers server later where
  requesting := second.requesting.trans first.requesting
  tracker := second.tracker.trans first.tracker
  awaiting id := (second.awaiting id).trans (first.awaiting id)
  connected id := (second.connected id).trans (first.connected id)

theorem map_eq_isSome {first : Option α} {second : Option α} {view : α → β}
    (h : first.map view = second.map view) : first.isSome = second.isSome := by
  have hsome := congrArg Option.isSome h
  rwa [Option.isSome_map, Option.isSome_map] at hsome

theorem SamePeers.addressOf_eq (h : SamePeers server next) (id : ConnectionId) :
    addressOf next id = addressOf server id := by
  have hconnected := congrArg (Option.map Prod.fst) (h.connected id)
  simp only [Option.map_map] at hconnected
  exact congrArg₂ Option.or hconnected (h.awaiting id)

theorem ServerTable.of_samePeers (table : ServerTable registry server) (h : SamePeers server next) :
    ServerTable registry next where
  requesting := h.requesting.trans table.requesting
  disjoint := by
    intro id hawaiting hconnected
    rw [← Finmap.lookup_isSome, map_eq_isSome (h.awaiting id), Finmap.lookup_isSome] at hawaiting
    rw [← Finmap.lookup_isSome, map_eq_isSome (h.connected id), Finmap.lookup_isSome] at hconnected
    exact table.disjoint id hawaiting hconnected
  ownId := by
    intro id peer hpeer
    have hconnected := h.connected id
    rw [hpeer, Option.map_some, eq_comm, Option.map_eq_some_iff] at hconnected
    obtain ⟨old, hold, hidentity⟩ := hconnected
    exact (congrArg Prod.snd hidentity).symm.trans (table.ownId id old hold)
  next := by rw [table.next, h.tracker]
  holder := by
    intro id
    rw [table.holder, h.addressOf_eq]

end Frames

section Receiving

variable {registry : Registry SocketAddr} {server next : Server}

theorem one_le_get (id : ConnectionId) : 1 ≤ id.get.toNat := by
  have hne : id.get.toNat ≠ 0 := fun hzero => id.ne_zero (UInt16.toNat_inj.mp hzero)
  omega

theorem exists_id {n : Nat} (hpositive : 1 ≤ n) (hsmall : n < 2 ^ 16) :
    ∃ id : ConnectionId, id.get.toNat = n := by
  have hget : (UInt16.ofNat n).toNat = n := UInt16.toNat_ofNat_of_lt' hsmall
  refine ⟨⟨UInt16.ofNat n, fun hzero => ?_⟩, hget⟩
  rw [hzero] at hget
  have : n = 0 := hget.symm
  omega

theorem ServerTable.mem_iff (table : ServerTable registry server) (id : ConnectionId) :
    id ∈ server.awaitingConnectionAck ∨ id ∈ server.connected ↔
      id.get.toNat < server.connectionIdTracker.get.toNat := by
  have hnumbered := registry.numbered id.get.toNat
  rw [table.holder, table.next, addressOf, Option.isSome_or, Option.isSome_map, Option.isSome_map,
    Bool.or_eq_true, Finmap.lookup_isSome, Finmap.lookup_isSome] at hnumbered
  rw [or_comm, hnumbered]
  simp only [one_le_get id, true_and]

theorem ServerTable.next_unused (table : ServerTable registry server) :
    server.awaitingConnectionAck.lookup server.connectionIdTracker = none ∧
      server.connected.lookup server.connectionIdTracker = none := by
  have hnot := mt (table.mem_iff server.connectionIdTracker).mp (Nat.lt_irrefl _)
  rw [not_or] at hnot
  exact ⟨Finmap.lookup_eq_none.mpr hnot.1, Finmap.lookup_eq_none.mpr hnot.2⟩

theorem known_of_addressOf {id : ConnectionId} {address : SocketAddr}
    (h : addressOf server id = some address) :
    server.connectionRequestAnotherState address = true := by
  unfold Server.connectionRequestAnotherState
  rw [Bool.or_eq_true, anyValue_iff, anyValue_iff]
  rw [addressOf, Option.or_eq_some_iff] at h
  rcases h with h | ⟨-, h⟩
  · obtain ⟨peer, hpeer, haddress⟩ := Option.map_eq_some_iff.mp h
    exact .inr ⟨id, peer, hpeer, by simpa using haddress⟩
  · obtain ⟨peer, hpeer, haddress⟩ := Option.map_eq_some_iff.mp h
    exact .inl ⟨id, peer, hpeer, by simpa using haddress⟩

theorem ServerTable.fresh (table : ServerTable registry server) {address : SocketAddr}
    (unknown : server.connectionRequestAnotherState address = false) (n : Nat) :
    registry.holder n ≠ some address := by
  intro hholder
  have hrange := (registry.numbered n).mp (by rw [hholder]; rfl)
  rw [table.next] at hrange
  obtain ⟨id, hid⟩ := exists_id hrange.1
    (Nat.lt_trans hrange.2 server.connectionIdTracker.get.toNat_lt)
  rw [← hid, table.holder] at hholder
  rw [known_of_addressOf hholder] at unknown
  contradiction

/-- A packet that is heard leaves every address under its id; a peer that it connects
moves from one map to the other. -/
theorem ServerTable.of_hears {header : Header} (table : ServerTable registry server)
    (h : ServerHears server header next) : ServerTable registry next := by
  cases h with
  | connected peer found reassembler events _ =>
    refine table.of_samePeers ⟨rfl, rfl, fun _ => rfl, fun id => ?_⟩
    exact map_lookup_insert identity (hearing peer header reassembler) found rfl id
  | awaiting peer unconnected found time reassembler events _ =>
    refine ⟨table.requesting, ?_, ?_, table.next, ?_⟩
    · intro id hawaiting hconnected
      rw [Finmap.mem_erase] at hawaiting
      rw [Finmap.mem_insert] at hconnected
      rcases hconnected with hid | hconnected
      · exact hawaiting.1 hid
      · exact table.disjoint id hawaiting.2 hconnected
    · intro id other hother
      simp only [lookup_insert_eq] at hother
      split at hother
      · next hid =>
        cases hother
        exact hid.symm
      · exact table.ownId id other hother
    · intro id
      rw [table.holder]
      simp only [addressOf, lookup_insert_eq, lookup_erase_eq]
      split
      · next hid =>
        rw [hid, unconnected, found]
        rfl
      · rfl

theorem ServerTable.enrolls {packet : Packet Received ConnectionRequest} {packetId : PacketId}
    {time : Duration} (table : ServerTable registry server)
    (h : ServerAdmits server packet packetId time next) :
    next.connected = server.connected ∧
      ∃ fresh, ServerTable (registry.enroll packet.delivery.metadata.address fresh) next := by
  cases h with
  | again id peer asking found =>
    rw [table.requesting, Finmap.lookup_empty] at found
    contradiction
  | registered tracker unknown counted =>
    have hfresh := table.fresh unknown
    obtain ⟨hawaiting, hconnected⟩ := table.next_unused
    refine ⟨rfl, hfresh, ?_, ?_, ?_, ?_, ?_⟩
    · simp only [admitting, table.requesting, erase_insert_empty]
    · intro id hid
      simp only [admitting, Finmap.mem_insert] at hid ⊢
      rcases hid with hid | hid
      · rw [hid]
        exact Finmap.lookup_eq_none.mp hconnected
      · exact table.disjoint id hid
    · exact table.ownId
    · rw [admitting, counted, ← table.next]
      rfl
    · intro id
      simp only [Registry.enroll, addressOf, admitting, lookup_insert_eq, table.next,
        UInt16.toNat_inj, ← NonZeroU16.ext_iff]
      split
      · next hid =>
        rw [hid, hconnected]
        rfl
      · exact table.holder id

theorem ServerTable.of_admits {packet : Packet Received ConnectionRequest} {packetId : PacketId}
    {time : Duration} (table : ServerTable registry server)
    (h : ServerAdmits server packet packetId time next) :
    ∃ later, registry.Extends later ∧ ServerTable later next := by
  obtain ⟨-, hfresh, htable⟩ := table.enrolls h
  exact ⟨_, registry.extends_enroll _ hfresh, htable⟩

end Receiving

section Calls

variable {protocol next : Protocol Server} {now : Duration}

theorem samePeers_setCore {core : ServiceCore ServerScheduler ServerReliabilityHandler ServerEvent}
    (h : core.connected = protocol.core.connected) :
    SamePeers protocol.service (protocol.setCore core).service :=
  ⟨rfl, rfl, fun _ => rfl, fun id => congrArg (fun map => (map.lookup id).map identity) h⟩

theorem samePeers_schedule {hash : RandomState} {reliability : ReliabilityType} {sendTo : SendTo}
    {payload : Payload} {result : Result PacketId}
    (h : protocol.schedule hash reliability sendTo payload now = .ok (result, next)) :
    SamePeers protocol.service next.service := by
  rcases schedule_cases h with ⟨_, -, rfl⟩ | ⟨_, _, -, -, -, -, rfl⟩
  · exact .refl _
  · exact samePeers_setCore rfl

theorem samePeers_heartbeat {hash : RandomState} {reliability : ReliabilityType} {sendTo : SendTo}
    {result : Result PacketId}
    (h : protocol.heartbeat hash reliability sendTo now = .ok (result, next)) :
    SamePeers protocol.service next.service := by
  rcases heartbeat_cases h with ⟨_, -, rfl⟩ | ⟨_, _, -, -, -, -, rfl⟩
  · exact .refl _
  · exact samePeers_setCore rfl

theorem samePeers_drain {R M : Type} [Queued R M] {start stop : Nat}
    {drained : List (Scheduled R M)} (h : protocol.drain R M start stop = .ok (drained, next)) :
    SamePeers protocol.service next.service := by
  obtain ⟨queue, rfl⟩ := drain_frame h
  exact samePeers_setCore rfl

theorem samePeers_drainConnectionAccepted {start stop : Nat}
    {drained : List (Scheduled Reliable ConnectionAccepted)}
    (h : protocol.drainConnectionAccepted start stop = .ok (drained, next)) :
    SamePeers protocol.service next.service := by
  obtain ⟨_, -, rfl⟩ := drainConnectionAccepted_frame h
  exact ⟨rfl, rfl, fun _ => rfl, fun _ => rfl⟩

theorem samePeers_retry {M : Type} [Carried M] {packet : Option (Packet ToSend M)}
    (h : protocol.retry M now = .ok (packet, next)) :
    SamePeers protocol.service next.service := by
  obtain ⟨handler, -, rfl⟩ := retry_frame h
  exact samePeers_setCore rfl

theorem samePeers_retryConnectionAccepted {packet : Option (Packet ToSend ConnectionAccepted)}
    (h : protocol.retryReliableConnectionAccepted now = .ok (packet, next)) :
    SamePeers protocol.service next.service := by
  obtain ⟨_, -, rfl⟩ := retryConnectionAccepted_frame h
  exact ⟨rfl, rfl, fun _ => rfl, fun _ => rfl⟩

theorem samePeers_sent {M : Type} [Carried M] {packet : Packet ToSend M}
    {reliability : ReliabilityType} (h : protocol.sent packet reliability now = .ok next) :
    SamePeers protocol.service next.service := by
  obtain ⟨completes, core, -, hcore, rfl⟩ := sent_frame h
  refine ⟨rfl, rfl, fun _ => rfl, fun id => ?_⟩
  change (core.connected.lookup id).map identity = (protocol.core.connected.lookup id).map identity
  cases completes with
  | false =>
    cases hcore
    rfl
  | true =>
    rcases advanceConnected_cases hcore with ⟨-, rfl⟩ | ⟨peer, advanced, hfound, hadvance, rfl⟩
    · rfl
    · obtain ⟨sequence, -, rfl⟩ := advance_eq_ok.mp hadvance
      exact map_lookup_insert identity { peer with sequenceTracker := sequence } hfound rfl id

theorem samePeers_sentConnectionAccepted {packet : Packet ToSend ConnectionAccepted}
    (h : protocol.sentConnectionAccepted packet now = .ok next) :
    SamePeers protocol.service next.service := by
  obtain ⟨awaiting, hawaiting, rfl⟩ := sentConnectionAccepted_frame h
  refine ⟨rfl, rfl, fun id => ?_, fun _ => rfl⟩
  rcases hawaiting with ⟨-, rfl⟩ | ⟨peer, advanced, hfound, hadvance, rfl⟩
  · rfl
  · obtain ⟨sequence, -, rfl⟩ := advance_eq_ok.mp hadvance
    exact map_lookup_insert Peer.address { peer with sequenceTracker := sequence } hfound rfl id

theorem poll_frame {hash : RandomState} {peer polled : Peer Connected}
    (h : peer.poll hash now = .ok polled) :
    ∃ reassembler, polled = peer.keepFragments reassembler := by
  obtain ⟨tested, -, h⟩ := bind_eq_ok.mp h
  split at h
  · obtain ⟨_, -, h⟩ := bind_eq_ok.mp h
    cases h
    exact ⟨_, rfl⟩
  · cases h
    exact ⟨peer.connection.reassembler, rfl⟩

theorem samePeers_poll {hash : RandomState} {peerHash : ConnectionId → RandomState}
    {elapsed : Duration} {events : List (ProtocolEvent ServerEvent)}
    (h : protocol.serverPoll hash peerHash elapsed now = .ok (events, next)) :
    SamePeers protocol.service next.service := by
  obtain ⟨_, _, -, hconnected, -, rfl⟩ := serverPoll_frame h
  refine ⟨rfl, rfl, fun _ => rfl, fun id => ?_⟩
  refine map_lookup_updateEach _ identity _ hconnected (fun _ peer polled hpoll => ?_) id
  obtain ⟨reassembler, rfl⟩ := poll_frame hpoll
  rfl

theorem ServerTable.of_received {registry : Registry SocketAddr} {crc32 : Crc32}
    {hash : RandomState} {raw : RawPacket} {result : Result Unit}
    (table : ServerTable registry protocol.service)
    (h : protocol.serverReceived crc32 hash raw now = .ok (result, next)) :
    ∃ later, registry.Extends later ∧ ServerTable later next.service := by
  obtain ⟨answered, hreceived, -⟩ := serverReceived_onReceived h
  rcases server_onReceived_cases hreceived with hsame | ⟨_, _, -, -, -, hhears⟩ | ⟨_, -, -, hadmits⟩
  · rw [hsame]
    exact ⟨registry, .refl registry, table⟩
  · exact ⟨registry, .refl registry, table.of_hears hhears⟩
  · exact table.of_admits hadmits

end Calls

section Runs

/-- One call of the server's protocol that returns. The functions that create packets
change nothing, and a packet accounted as sent need not be one of theirs. -/
inductive ServerCall (crc32 : Crc32) (protocol next : Protocol Server) : Prop where
  | received (hash : RandomState) (raw : RawPacket) (now : Duration) (result : Result Unit)
      (call : protocol.serverReceived crc32 hash raw now = .ok (result, next))
  | schedule (hash : RandomState) (reliability : ReliabilityType) (sendTo : SendTo)
      (payload : Payload) (now : Duration) (result : Result PacketId)
      (call : protocol.schedule hash reliability sendTo payload now = .ok (result, next))
  | heartbeat (hash : RandomState) (reliability : ReliabilityType) (sendTo : SendTo)
      (now : Duration) (result : Result PacketId)
      (call : protocol.heartbeat hash reliability sendTo now = .ok (result, next))
  | drain (R M : Type) [Queued R M] (start stop : Nat) (drained : List (Scheduled R M))
      (call : protocol.drain R M start stop = .ok (drained, next))
  | drainConnectionAccepted (start stop : Nat)
      (drained : List (Scheduled Reliable ConnectionAccepted))
      (call : protocol.drainConnectionAccepted start stop = .ok (drained, next))
  | sent (M : Type) [Carried M] (packet : Packet ToSend M) (reliability : ReliabilityType)
      (now : Duration) (call : protocol.sent packet reliability now = .ok next)
  | sentConnectionAccepted (packet : Packet ToSend ConnectionAccepted) (now : Duration)
      (call : protocol.sentConnectionAccepted packet now = .ok next)
  | retry (M : Type) [Carried M] (now : Duration) (packet : Option (Packet ToSend M))
      (call : protocol.retry M now = .ok (packet, next))
  | retryConnectionAccepted (now : Duration) (packet : Option (Packet ToSend ConnectionAccepted))
      (call : protocol.retryReliableConnectionAccepted now = .ok (packet, next))
  | poll (hash : RandomState) (peerHash : ConnectionId → RandomState) (elapsed now : Duration)
      (events : List (ProtocolEvent ServerEvent))
      (call : protocol.serverPoll hash peerHash elapsed now = .ok (events, next))

def serverCalls (crc32 : Crc32) : Machine (Protocol Server) where
  init protocol := ∃ reliableTtl, protocol = .newServer reliableTtl
  step := ServerCall crc32

theorem serverTable_new (reliableTtl : Duration) :
    ServerTable .empty (Protocol.newServer reliableTtl).service where
  requesting := rfl
  disjoint := fun _ hawaiting => absurd hawaiting Finmap.notMem_empty
  ownId := fun id _ hpeer => by
    rw [show (Protocol.newServer reliableTtl).service.connected = ∅ from rfl,
      Finmap.lookup_empty] at hpeer
    contradiction
  next := rfl
  holder := fun _ => rfl

theorem ServerTable.step {crc32 : Crc32} {registry : Registry SocketAddr}
    {protocol next : Protocol Server} (table : ServerTable registry protocol.service)
    (h : ServerCall crc32 protocol next) :
    ∃ later, registry.Extends later ∧ ServerTable later next.service := by
  have hsame : SamePeers protocol.service next.service →
      ∃ later, registry.Extends later ∧ ServerTable later next.service := fun hpeers =>
    ⟨registry, .refl registry, table.of_samePeers hpeers⟩
  cases h with
  | received hash raw now result call => exact table.of_received call
  | schedule hash reliability sendTo payload now result call => exact hsame (samePeers_schedule call)
  | heartbeat hash reliability sendTo now result call => exact hsame (samePeers_heartbeat call)
  | drain R M start stop drained call => exact hsame (samePeers_drain call)
  | drainConnectionAccepted start stop drained call =>
    exact hsame (samePeers_drainConnectionAccepted call)
  | sent M packet reliability now call => exact hsame (samePeers_sent call)
  | sentConnectionAccepted packet now call => exact hsame (samePeers_sentConnectionAccepted call)
  | retry M now packet call => exact hsame (samePeers_retry call)
  | retryConnectionAccepted now packet call => exact hsame (samePeers_retryConnectionAccepted call)
  | poll hash peerHash elapsed now events call => exact hsame (samePeers_poll call)

theorem serverTable_reachable {crc32 : Crc32} {protocol : Protocol Server}
    (h : (serverCalls crc32).Reachable protocol) :
    ∃ registry, ServerTable registry protocol.service := by
  refine h.invariant (fun protocol => ∃ registry, ServerTable registry protocol.service) ?_ ?_
  · rintro _ ⟨reliableTtl, rfl⟩
    exact ⟨.empty, serverTable_new reliableTtl⟩
  · rintro state next - ⟨registry, table⟩ hstep
    obtain ⟨later, -, table⟩ := table.step hstep
    exact ⟨later, table⟩

structure ServerTableInvariant (server : Server) : Prop where
  requesting_empty : server.requestingConnection = ∅
  disjoint : ∀ id, ¬(id ∈ server.awaitingConnectionAck ∧ id ∈ server.connected)
  keys : ∀ id : ConnectionId, id ∈ server.awaitingConnectionAck ∨ id ∈ server.connected ↔
    1 ≤ id.get.toNat ∧ id.get.toNat ≤ server.connectionIdTracker.get.toNat - 1
  own_id : ∀ id peer, server.connected.lookup id = some peer → peer.connection.connectionId = id
  distinct_awaiting : ∀ id id' peer peer', server.awaitingConnectionAck.lookup id = some peer →
    server.awaitingConnectionAck.lookup id' = some peer' → peer.address = peer'.address → id = id'
  distinct_connected : ∀ id id' peer peer', server.connected.lookup id = some peer →
    server.connected.lookup id' = some peer' → peer.address = peer'.address → id = id'
  distinct_across : ∀ id id' peer peer', server.awaitingConnectionAck.lookup id = some peer →
    server.connected.lookup id' = some peer' → peer.address ≠ peer'.address

theorem ServerTable.addressOf_connected {server : Server} {id : ConnectionId}
    {peer : Peer Connected} (h : server.connected.lookup id = some peer) :
    addressOf server id = some peer.address := by
  rw [addressOf, h]
  rfl

theorem ServerTable.addressOf_awaiting {registry : Registry SocketAddr} {server : Server}
    (table : ServerTable registry server) {id : ConnectionId} {peer : Peer AwaitingConnectionAck}
    (h : server.awaitingConnectionAck.lookup id = some peer) :
    addressOf server id = some peer.address := by
  have hunconnected : server.connected.lookup id = none :=
    Finmap.lookup_eq_none.mpr (table.disjoint id ((mem_iff_lookup _ _).mpr ⟨peer, h⟩))
  rw [addressOf, hunconnected, h]
  rfl

theorem ServerTable.injective {registry : Registry SocketAddr} {server : Server}
    (table : ServerTable registry server) {id id' : ConnectionId} {address : SocketAddr}
    (h : addressOf server id = some address) (h' : addressOf server id' = some address) :
    id = id' := by
  rw [← table.holder] at h h'
  exact NonZeroU16.ext (UInt16.toNat_inj.mp (registry.distinct _ _ _ h h'))

theorem ServerTable.invariant {registry : Registry SocketAddr} {server : Server}
    (table : ServerTable registry server) : ServerTableInvariant server where
  requesting_empty := table.requesting
  disjoint := fun id h => table.disjoint id h.1 h.2
  keys := by
    intro id
    rw [table.mem_iff]
    have hid := one_le_get id
    have htracker := one_le_get server.connectionIdTracker
    omega
  own_id := table.ownId
  distinct_awaiting := fun _ _ _ _ h h' haddress =>
    table.injective (table.addressOf_awaiting h) (haddress ▸ table.addressOf_awaiting h')
  distinct_connected := fun _ _ _ _ h h' haddress =>
    table.injective (addressOf_connected h) (haddress ▸ addressOf_connected h')
  distinct_across := by
    intro id id' peer peer' h h' haddress
    have hid := table.injective (table.addressOf_awaiting h) (haddress ▸ addressOf_connected h')
    rw [← hid] at h'
    exact table.disjoint id ((mem_iff_lookup _ _).mpr ⟨peer, h⟩)
      ((mem_iff_lookup _ _).mpr ⟨peer', h'⟩)

/-- Receiving never reports a peer that was not found: the peer that is answered has just
been inserted. -/
theorem ServerTable.reports_no_notFound {registry : Registry SocketAddr} {crc32 : Crc32}
    {hash : RandomState} {raw : RawPacket} {now : Duration} {result : Result Unit}
    {protocol next : Protocol Server} (table : ServerTable registry protocol.service)
    (h : protocol.serverReceived crc32 hash raw now = .ok (result, next)) (id : ConnectionId)
    (hevent : .fail (.notFound id) ∈ next.service.api) :
    .fail (.notFound id) ∈ protocol.service.api := by
  obtain ⟨answered, hreceived, -⟩ := serverReceived_onReceived h
  rcases server_onReceived_cases hreceived with hsame | ⟨_, _, -, -, -, hhears⟩ | ⟨_, -, -, hadmits⟩
  · rwa [hsame] at hevent
  · obtain ⟨events, hdelivers, hapi⟩ := hhears.api
    rw [hapi, List.mem_append] at hevent
    rcases hevent with hevent | hevent
    · exact hevent
    · obtain ⟨payload, hpayload⟩ := hdelivers _ hevent
      contradiction
  · generalize next.service = service at hadmits hevent
    cases hadmits with
    | again id peer asking found =>
      rw [table.requesting, Finmap.lookup_empty] at found
      contradiction
    | registered tracker unknown counted => exact hevent

/-- The server's connection table, in every state that its calls can reach. No peer is
found that is still asking, and none that is answered is missing. -/
theorem server_table_invariant (crc32 : Crc32) (protocol : Protocol Server)
    (h : (serverCalls crc32).Reachable protocol) :
    ServerTableInvariant protocol.service ∧
      (∀ (hash : RandomState) (address : SocketAddr),
        (hash.iterate protocol.service.requestingConnection).entries.find?
          (fun entry => entry.2.address = address) = none) ∧
      (∀ hash raw now result next,
        protocol.serverReceived crc32 hash raw now = .ok (result, next) →
        ∀ id, .fail (.notFound id) ∈ next.service.api →
          .fail (.notFound id) ∈ protocol.service.api) := by
  obtain ⟨registry, table⟩ := serverTable_reachable h
  refine ⟨table.invariant, ?_, ?_⟩
  · intro hash address
    rw [table.requesting, Iteration.entries_empty]
    rfl
  · intro hash raw now result next hreceived id hevent
    exact table.reports_no_notFound hreceived id hevent

def firstRequest : Packet Received ConnectionRequest :=
  ⟨⟨⟨.zero, .v4 0 0⟩⟩, .one, 0, ⟨⟨connectionRequest⟩⟩⟩

/-- A server that has received one request. -/
def requestedServer : Protocol Server :=
  ⟨1, admitting .new firstRequest 0 .zero .two, .zero⟩

def askingPacket : Packet ToSend ConnectionRequest :=
  ⟨⟨0, ⟨.zero, .v4 0 0⟩⟩, .one, 0, ⟨⟨connectionRequest⟩⟩⟩

def requestFrom (source : SocketAddr) : RawPacket :=
  ⟨source, (askingPacket.datagram ieeeCrc32).bytes⟩

theorem newServer_registers (hash : RandomState) (reliableTtl : Duration) :
    (Protocol.newServer reliableTtl).serverReceived ieeeCrc32 hash (requestFrom (.v4 0 0)) .zero =
      .ok (.ok (), { requestedServer with reliableTtl := reliableTtl }) := by
  have hdecode : (requestFrom (.v4 0 0)).decode ieeeCrc32 DecodedForServer.tryFrom .zero =
      .ok (.ok (.connectionRequest firstRequest)) :=
    (Codec.roundTrips_connectionRequest _ askingPacket _ _ rfl).2.1
  have hunknown : Server.new.connectionRequestAnotherState (.v4 0 0) = false := by decide
  exact serverReceived_registers hdecode rfl hunknown List.not_mem_nil rfl rfl

theorem newServer_requested (hash : RandomState) :
    (Protocol.newServer .zero).serverReceived ieeeCrc32 hash (requestFrom (.v4 0 0)) .zero =
      .ok (.ok (), requestedServer) :=
  newServer_registers hash .zero

theorem requestedServer_reachable : (serverCalls ieeeCrc32).Reachable requestedServer :=
  .next (.start ⟨.zero, rfl⟩)
    (.received (Classical.arbitrary RandomState) _ .zero (.ok ()) (newServer_requested _))

def earlyHeartbeat : Packet ToSend Heartbeat :=
  ⟨⟨0, ⟨.zero, .v4 1 1⟩⟩, .one, 0, .new .one⟩

def earlyDatagram : RawPacket :=
  ⟨.v4 0 0, (earlyHeartbeat.datagram ieeeCrc32).bytes⟩

def overtakenServer : Protocol Server :=
  let server := requestedServer.service
  let peer := (Peer.new .zero (.v4 0 0) 1).awaitConnectionAck .zero
  { requestedServer with service := { server with
      awaitingConnectionAck := server.awaitingConnectionAck.erase .one
      connected := server.connected.insert .one
        ((peer.acknowledge .one 0).connected .zero .one) } }

theorem requestedServer_overtaken (hash : RandomState) :
    requestedServer.serverReceived ieeeCrc32 hash earlyDatagram .zero =
      .ok (.ok (), overtakenServer) := by
  have hdecode := (Codec.roundTrips_heartbeat ieeeCrc32 earlyHeartbeat (.v4 0 0) .zero rfl).2.1
  unfold Protocol.serverReceived Server.onReceived
  rw [show earlyDatagram = ⟨.v4 0 0, (earlyHeartbeat.datagram ieeeCrc32).bytes⟩ from rfl, hdecode]
  simp only [ok_bind, Server.onHeartbeat]
  rfl

theorem three_ne_zero : (3 : UInt16) ≠ 0 := by
  decide

/-- A server that has one client connected, and another that awaits the ack of its accept. -/
def sharedServer : Protocol Server :=
  ⟨2, admitting overtakenServer.service (Codec.arrived askingPacket (.v4 1 1) .zero) 1 .zero
    ⟨3, three_ne_zero⟩, .zero⟩

theorem overtakenServer_shared (hash : RandomState) :
    overtakenServer.serverReceived ieeeCrc32 hash (requestFrom (.v4 1 1)) .zero =
      .ok (.ok (), sharedServer) := by
  have hdecode : (requestFrom (.v4 1 1)).decode ieeeCrc32 DecodedForServer.tryFrom .zero =
      .ok (.ok (.connectionRequest (Codec.arrived askingPacket (.v4 1 1) .zero))) :=
    (Codec.roundTrips_connectionRequest _ askingPacket _ _ rfl).2.1
  have hunknown : overtakenServer.service.connectionRequestAnotherState (.v4 1 1) = false := by
    decide
  exact serverReceived_registers hdecode rfl hunknown List.not_mem_nil rfl rfl

theorem sharedServer_reachable : (serverCalls ieeeCrc32).Reachable sharedServer := by
  let hash := Classical.arbitrary RandomState
  have hovertaken : (serverCalls ieeeCrc32).Reachable overtakenServer :=
    requestedServer_reachable.next
      (.received hash earlyDatagram .zero (.ok ()) (requestedServer_overtaken hash))
  exact hovertaken.next (.received hash _ .zero (.ok ()) (overtakenServer_shared hash))

theorem sharedServer_table :
    (⟨1, by decide⟩ ∈ sharedServer.service.connected ∧
      ⟨2, by decide⟩ ∈ sharedServer.service.awaitingConnectionAck) ∧
    ServerTableInvariant sharedServer.service ∧
      (∀ (hash : RandomState) (address : SocketAddr),
        (hash.iterate sharedServer.service.requestingConnection).entries.find?
          (fun entry => entry.2.address = address) = none) ∧
      (∀ hash raw now result next,
        sharedServer.serverReceived ieeeCrc32 hash raw now = .ok (result, next) →
        ∀ id, .fail (.notFound id) ∈ next.service.api →
          .fail (.notFound id) ∈ sharedServer.service.api) :=
  ⟨⟨Finmap.mem_insert.mpr (.inl rfl), Finmap.mem_insert.mpr (.inl rfl)⟩,
    server_table_invariant ieeeCrc32 sharedServer sharedServer_reachable⟩

end Runs

end Antarc.Properties
