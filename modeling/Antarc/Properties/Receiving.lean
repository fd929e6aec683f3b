import Antarc.Protocol.Operations

/-! What receiving a datagram does to a service, said once. A packet of a connection is
heard by the peer of its connection id, or connects a peer that was waiting for it; a
request admits a new peer; everything else leaves the service as it was. `connect`, which
starts the client's half of the handshake, stands at the end. -/
namespace Antarc.Properties

open Library

theorem reassemble_frame {peer next : Peer Connected} {packet : Packet Received Fragment}
    {payload : Option Payload} (h : peer.reassemble packet = .ok (next, payload)) :
    ∃ reassembler, next = peer.keepFragments reassembler := by
  unfold Peer.reassemble at h
  split at h
  · cases h
    exact ⟨_, rfl⟩
  · obtain ⟨fragments, -, h⟩ := bind_eq_ok.mp h
    obtain ⟨whole, -, h⟩ := bind_eq_ok.mp h
    cases h
    exact ⟨_, rfl⟩

/-- What a service reads of a packet to find its peer and to move its trackers. -/
structure Header where
  source : SocketAddr
  connectionId : ConnectionId
  sequence : Sequence
  ack : Ack

def headerOf (connectionId : M → ConnectionId) (packet : Packet Received M) : Header :=
  ⟨packet.delivery.metadata.address, connectionId packet.message, packet.sequence, packet.ack⟩

def hearing (peer : Peer Connected) (header : Header) (reassembler : Reassembler) :
    Peer Connected :=
  (peer.acknowledge header.sequence header.ack).keepFragments reassembler

def Delivers {S : Type} (header : Header) (events : List (ProtocolEvent S)) : Prop :=
  ∀ event ∈ events, ∃ payload, event = .dataTransfer header.connectionId payload

theorem delivers_nil {S : Type} (header : Header) :
    Delivers header ([] : List (ProtocolEvent S)) := by
  intro event hmem
  contradiction

theorem delivers_one {S : Type} (header : Header) (payload : Payload) :
    Delivers header [(.dataTransfer header.connectionId payload : ProtocolEvent S)] := by
  intro event hmem
  exact ⟨payload, List.mem_singleton.mp hmem⟩

section Server

/-- The header of every packet that the server takes, but for a connection request. -/
def forServerHeader : DecodedForServer → Option Header
  | .connectionRequest _ => none
  | .dataTransfer packet => some (headerOf DataTransfer.connectionId packet)
  | .fragment packet => some (headerOf Fragment.connectionId packet)
  | .heartbeat packet => some (headerOf Heartbeat.connectionId packet)

/-- A packet is heard by the connected peer of its id, or by the awaiting one, which is
connected by it. -/
inductive ServerHears (server : Server) (header : Header) : Server → Prop where
  | connected (peer : Peer Connected)
      (found : server.connected.lookup header.connectionId = some peer)
      (reassembler : Reassembler) (events : List (ProtocolEvent ServerEvent))
      (delivers : Delivers header events) :
      ServerHears server header { server with
        connected := server.connected.insert header.connectionId (hearing peer header reassembler)
        api := server.api ++ events }
  | awaiting (peer : Peer AwaitingConnectionAck)
      (unconnected : server.connected.lookup header.connectionId = none)
      (found : server.awaitingConnectionAck.lookup header.connectionId = some peer)
      (time : Duration) (reassembler : Reassembler) (events : List (ProtocolEvent ServerEvent))
      (delivers : Delivers header events) :
      ServerHears server header { server with
        awaitingConnectionAck := server.awaitingConnectionAck.erase header.connectionId
        connected := server.connected.insert header.connectionId
          (hearing (peer.connected time header.connectionId) header reassembler)
        api := server.api ++ events }

/-- A new peer is registered under the next connection id, and awaits the ack of the accept
that is queued for it. -/
def admitting (server : Server) (packet : Packet Received ConnectionRequest) (packetId : PacketId)
    (time : Duration) (tracker : ConnectionId) : Server :=
  let connectionId := server.connectionIdTracker
  let peer := Peer.new time packet.delivery.metadata.address packet.sequence.get
  let accept : Scheduled Reliable ConnectionAccepted :=
    ⟨packetId, peer.address, time, {}, ⟨⟨connectionAccepted⟩, connectionId⟩⟩
  { server with
    requestingConnection :=
      (server.requestingConnection.insert connectionId peer).erase connectionId
    connectionIdTracker := tracker
    scheduler := { server.scheduler with
      service := ⟨server.scheduler.service.listScheduledConnectionAccepted ++ [accept]⟩ }
    awaitingConnectionAck :=
      server.awaitingConnectionAck.insert connectionId (peer.awaitConnectionAck time) }

/-- A request from an address that is not known is answered: for the peer that has asked
before, or for one that is registered. -/
inductive ServerAdmits (server : Server) (packet : Packet Received ConnectionRequest)
    (packetId : PacketId) (time : Duration) : Server → Prop where
  | again (connectionId : ConnectionId) (peer asking : Peer RequestingConnection)
      (found : server.requestingConnection.lookup connectionId = some peer) :
      ServerAdmits server packet packetId time ({ server with
        requestingConnection := server.requestingConnection.insert connectionId asking
        }.acceptConnection connectionId packetId time)
  | registered (tracker : ConnectionId)
      (unknown : server.connectionRequestAnotherState packet.delivery.metadata.address = false)
      (counted : tracker.get.toNat = server.connectionIdTracker.get.toNat + 1) :
      ServerAdmits server packet packetId time (admitting server packet packetId time tracker)

variable {server next acked : Server} {time : Duration} {packetId : PacketId}
  {result : Result Bool}

theorem serverHears_of_acknowledge (header : Header)
    (h : server.acknowledge header.connectionId header.sequence header.ack time = some acked) :
    ∃ peer, acked.connected.lookup header.connectionId = some peer ∧ acked.api = server.api ∧
      ∀ reassembler events, Delivers header events → ServerHears server header { acked with
        connected := acked.connected.insert header.connectionId (peer.keepFragments reassembler)
        api := acked.api ++ events } := by
  unfold Server.acknowledge at h
  split at h
  · next peer hfound =>
    cases h
    refine ⟨_, Finmap.lookup_insert _, rfl, fun reassembler events hevents => ?_⟩
    simp only [Finmap.insert_insert]
    exact .connected peer hfound reassembler events hevents
  · next hnone =>
    split at h
    · next peer hfound =>
      cases h
      refine ⟨_, Finmap.lookup_insert _, rfl, fun reassembler events hevents => ?_⟩
      simp only [Finmap.insert_insert]
      exact .awaiting peer hnone hfound time reassembler events hevents
    · contradiction

theorem serverHears_events (header : Header)
    (h : server.acknowledge header.connectionId header.sequence header.ack time = some acked)
    (events : List (ProtocolEvent ServerEvent)) (hevents : Delivers header events) :
    ServerHears server header { acked with api := acked.api ++ events } := by
  obtain ⟨peer, hfound, -, hhears⟩ := serverHears_of_acknowledge header h
  have hsame : acked.connected.insert header.connectionId
      (peer.keepFragments peer.connection.reassembler) = acked.connected :=
    insert_of_lookup hfound
  have hfinal := hhears peer.connection.reassembler events hevents
  rwa [hsame] at hfinal

theorem ServerHears.api {header : Header} (h : ServerHears server header next) :
    ∃ events, Delivers header events ∧ next.api = server.api ++ events := by
  cases h with
  | connected peer found reassembler events delivers => exact ⟨events, delivers, rfl⟩
  | awaiting peer unconnected found time reassembler events delivers =>
    exact ⟨events, delivers, rfl⟩

theorem ServerHears.kept {header : Header} (h : ServerHears server header next) :
    next.scheduler = server.scheduler ∧ next.reliabilityHandler = server.reliabilityHandler := by
  cases h with
  | connected peer found reassembler events delivers => exact ⟨rfl, rfl⟩
  | awaiting peer unconnected found time reassembler events delivers => exact ⟨rfl, rfl⟩

theorem acknowledge_of_known {id : ConnectionId} (sequence : Sequence) (ack : Ack)
    (time : Duration) (hknown : id ∈ server.connected ∨ id ∈ server.awaitingConnectionAck) :
    ∃ acked, server.acknowledge id sequence ack time = some acked ∧ acked.api = server.api ∧
      id ∈ acked.connected := by
  unfold Server.acknowledge
  cases hconnected : server.connected.lookup id with
  | some peer => exact ⟨_, rfl, rfl, Finmap.mem_insert.mpr (.inl rfl)⟩
  | none =>
    rcases hknown with hmem | hmem
    · obtain ⟨peer, hfound⟩ := (mem_iff_lookup _ _).mp hmem
      rw [hconnected] at hfound
      contradiction
    · obtain ⟨peer, hfound⟩ := (mem_iff_lookup _ _).mp hmem
      rw [hfound]
      exact ⟨_, rfl, rfl, Finmap.mem_insert.mpr (.inl rfl)⟩

theorem server_onDataTransfer_hears {packet : Packet Received DataTransfer}
    (hacked : server.acknowledge packet.message.connectionId packet.sequence packet.ack time =
      some acked) (h : server.onDataTransfer packet time = .ok (result, next)) :
    result = .ok false ∧ ServerHears server (headerOf DataTransfer.connectionId packet) next := by
  unfold Server.onDataTransfer at h
  simp only [hacked] at h
  cases h
  exact ⟨rfl, serverHears_events (headerOf DataTransfer.connectionId packet) hacked _
    (delivers_one _ _)⟩

theorem server_onFragment_hears {packet : Packet Received Fragment}
    (hacked : server.acknowledge packet.message.connectionId packet.sequence packet.ack time =
      some acked) (h : server.onFragment packet time = .ok (result, next)) :
    result = .ok false ∧ ServerHears server (headerOf Fragment.connectionId packet) next := by
  unfold Server.onFragment at h
  simp only [hacked] at h
  obtain ⟨peer, hfound, -, hhears⟩ :=
    serverHears_of_acknowledge (headerOf Fragment.connectionId packet) hacked
  obtain ⟨found, hexpect, h⟩ := bind_eq_ok.mp h
  cases hfound.symm.trans (expect_eq_ok.mp hexpect)
  obtain ⟨⟨reassembled, payload⟩, hreassemble, h⟩ := bind_eq_ok.mp h
  obtain ⟨reassembler, rfl⟩ := reassemble_frame hreassemble
  cases payload with
  | none =>
    cases h
    have hquiet := hhears reassembler [] (delivers_nil _)
    rw [List.append_nil] at hquiet
    exact ⟨rfl, hquiet⟩
  | some payload =>
    cases h
    exact ⟨rfl, hhears reassembler _ (delivers_one _ _)⟩

theorem server_onHeartbeat_hears {packet : Packet Received Heartbeat}
    (hacked : server.acknowledge packet.message.connectionId packet.sequence packet.ack time =
      some acked) (h : server.onHeartbeat packet time = .ok (result, next)) :
    result = .ok false ∧ ServerHears server (headerOf Heartbeat.connectionId packet) next := by
  unfold Server.onHeartbeat at h
  simp only [hacked] at h
  cases h
  have hquiet := serverHears_events (headerOf Heartbeat.connectionId packet) hacked []
    (delivers_nil _)
  rw [List.append_nil] at hquiet
  exact ⟨rfl, hquiet⟩

theorem server_onDataTransfer_cases {packet : Packet Received DataTransfer}
    (h : server.onDataTransfer packet time = .ok (result, next)) :
    next = server ∧ result ≠ .ok true ∨
      result = .ok false ∧ ServerHears server (headerOf DataTransfer.connectionId packet) next := by
  cases hacked : server.acknowledge packet.message.connectionId packet.sequence packet.ack time with
  | some acked => exact .inr (server_onDataTransfer_hears hacked h)
  | none =>
    simp only [Server.onDataTransfer, hacked] at h
    cases h
    exact .inl ⟨rfl, by simp⟩

theorem server_onFragment_cases {packet : Packet Received Fragment}
    (h : server.onFragment packet time = .ok (result, next)) :
    next = server ∧ result ≠ .ok true ∨
      result = .ok false ∧ ServerHears server (headerOf Fragment.connectionId packet) next := by
  cases hacked : server.acknowledge packet.message.connectionId packet.sequence packet.ack time with
  | some acked => exact .inr (server_onFragment_hears hacked h)
  | none =>
    simp only [Server.onFragment, hacked] at h
    cases h
    exact .inl ⟨rfl, by simp⟩

theorem server_onHeartbeat_cases {packet : Packet Received Heartbeat}
    (h : server.onHeartbeat packet time = .ok (result, next)) :
    next = server ∧ result ≠ .ok true ∨
      result = .ok false ∧ ServerHears server (headerOf Heartbeat.connectionId packet) next := by
  cases hacked : server.acknowledge packet.message.connectionId packet.sequence packet.ack time with
  | some acked => exact .inr (server_onHeartbeat_hears hacked h)
  | none =>
    simp only [Server.onHeartbeat, hacked] at h
    cases h
    exact .inl ⟨rfl, by simp⟩

theorem server_onConnectionRequest_decides {hash : RandomState}
    {packet : Packet Received ConnectionRequest}
    (h : server.onConnectionRequest hash packet packetId time = .ok (result, next)) :
    (∃ error, server.unexpectedConnection packet.delivery.metadata.address = .error error ∧
      result = .error error ∧ next = server) ∨
    server.unexpectedConnection packet.delivery.metadata.address = .ok () ∧ result = .ok true ∧
      ServerAdmits server packet packetId time next := by
  unfold Server.onConnectionRequest at h
  dsimp only at h
  split at h
  · next error hunexpected =>
    cases h
    exact .inl ⟨error, hunexpected, rfl, rfl⟩
  · next hunexpected =>
    have hunknown : server.connectionRequestAnotherState packet.delivery.metadata.address =
        false := by
      by_contra hknown
      rw [Server.unexpectedConnection, if_pos (by simpa using hknown)] at hunexpected
      contradiction
    refine .inr ⟨hunexpected, ?_⟩
    split at h
    · next connectionId peer hasking =>
      obtain ⟨attempts, -, h⟩ := bind_eq_ok.mp h
      cases h
      have hmem := List.mem_of_find?_eq_some hasking
      exact ⟨rfl, .again connectionId peer _ ((Iteration.mem_iff _ _ _).mp hmem)⟩
    · obtain ⟨sum, hsum, h⟩ := bind_eq_ok.mp h
      obtain ⟨tracker, htracker, h⟩ := bind_eq_ok.mp h
      cases h
      have hget := NonZeroU16.new_eq_some.mp (unwrap_eq_ok.mp htracker)
      refine ⟨rfl, ?_⟩
      have hcounted : tracker.get.toNat = server.connectionIdTracker.get.toNat + 1 := by
        rw [hget]
        unfold addU16 at hsum
        split at hsum
        · next hlt =>
          cases hsum
          rw [UInt16.toNat_add, Nat.mod_eq_of_lt hlt]
          rfl
        · contradiction
      have hregistered : ServerAdmits server packet packetId time
          (admitting server packet packetId time tracker) := .registered tracker hunknown hcounted
      unfold Server.acceptConnection
      simp only [Finmap.lookup_insert]
      exact hregistered

theorem server_onConnectionRequest_cases {hash : RandomState}
    {packet : Packet Received ConnectionRequest}
    (h : server.onConnectionRequest hash packet packetId time = .ok (result, next)) :
    next = server ∨ result = .ok true ∧ ServerAdmits server packet packetId time next := by
  rcases server_onConnectionRequest_decides h with ⟨_, -, -, hsame⟩ | ⟨-, hanswered⟩
  · exact .inl hsame
  · exact .inr hanswered

theorem server_onConnectionRequest_registers (hash : RandomState)
    (packet : Packet Received ConnectionRequest) (packetId : PacketId) (time : Duration)
    (tracker : ConnectionId) (hrequesting : server.requestingConnection = ∅)
    (hunknown : server.connectionRequestAnotherState packet.delivery.metadata.address = false)
    (hallowed : packet.delivery.metadata.address ∉ server.banList)
    (hcounted : tracker.get.toNat = server.connectionIdTracker.get.toNat + 1) :
    server.onConnectionRequest hash packet packetId time =
      .ok (.ok true, admitting server packet packetId time tracker) := by
  have hexpected : server.unexpectedConnection packet.delivery.metadata.address = .ok () := by
    rw [Server.unexpectedConnection, if_neg (by simp [hunknown]), if_neg hallowed]
  have hlt : server.connectionIdTracker.get.toNat + (1 : UInt16).toNat < UInt16.size := by
    have hsmall := tracker.get.toNat_lt
    rw [hcounted] at hsmall
    exact hsmall
  have hnext : addU16 server.connectionIdTracker.get 1 = .ok tracker.get := by
    rw [addU16, if_pos hlt]
    refine congrArg Except.ok (UInt16.toNat_inj.mp ?_)
    rw [UInt16.toNat_add, Nat.mod_eq_of_lt hlt, hcounted]
    rfl
  have hnone : (hash.iterate server.requestingConnection).entries.find?
      (fun entry => entry.2.address = packet.delivery.metadata.address) = none := by
    rw [hrequesting, Iteration.entries_empty]
    rfl
  simp only [Server.onConnectionRequest, hexpected, hnone, hnext, ok_bind, NonZeroU16.new_get,
    unwrap, Server.acceptConnection, Finmap.lookup_insert]
  rfl

/-- What the server's `on_received` can do, and when it answers a request. -/
theorem server_onReceived_decides {crc32 : Crc32} {hash : RandomState} {raw : RawPacket}
    (h : server.onReceived crc32 hash raw packetId time = .ok (result, next)) :
    (next = server ∧ result ≠ .ok true ∧ ∀ packet,
      raw.decode crc32 DecodedForServer.tryFrom time = .ok (.ok (.connectionRequest packet)) →
        server.unexpectedConnection packet.delivery.metadata.address ≠ .ok ()) ∨
      (∃ decoded header, raw.decode crc32 DecodedForServer.tryFrom time = .ok (.ok decoded) ∧
        forServerHeader decoded = some header ∧ result = .ok false ∧
        ServerHears server header next) ∨
      ∃ packet, raw.decode crc32 DecodedForServer.tryFrom time =
          .ok (.ok (.connectionRequest packet)) ∧
        server.unexpectedConnection packet.delivery.metadata.address = .ok () ∧
        result = .ok true ∧ ServerAdmits server packet packetId time next := by
  obtain ⟨decoded, hdecode, h⟩ := bind_eq_ok.mp h
  rcases decoded with error | packet | packet | packet | packet
  · cases h
    refine .inl ⟨rfl, by simp, fun asked hasked => ?_⟩
    cases hdecode.symm.trans hasked
  · rcases server_onConnectionRequest_decides h with
      ⟨error, hrefused, rfl, rfl⟩ | ⟨hexpected, hresult, hadmits⟩
    · refine .inl ⟨rfl, by simp, fun asked hasked hexpected => ?_⟩
      cases hdecode.symm.trans hasked
      cases hrefused.symm.trans hexpected
    · exact .inr (.inr ⟨packet, hdecode, hexpected, hresult, hadmits⟩)
  · rcases server_onDataTransfer_cases h with ⟨hsame, hresult⟩ | ⟨hresult, hhears⟩
    · refine .inl ⟨hsame, hresult, fun asked hasked => ?_⟩
      cases hdecode.symm.trans hasked
    · exact .inr (.inl ⟨_, _, hdecode, rfl, hresult, hhears⟩)
  · rcases server_onFragment_cases h with ⟨hsame, hresult⟩ | ⟨hresult, hhears⟩
    · refine .inl ⟨hsame, hresult, fun asked hasked => ?_⟩
      cases hdecode.symm.trans hasked
    · exact .inr (.inl ⟨_, _, hdecode, rfl, hresult, hhears⟩)
  · rcases server_onHeartbeat_cases h with ⟨hsame, hresult⟩ | ⟨hresult, hhears⟩
    · refine .inl ⟨hsame, hresult, fun asked hasked => ?_⟩
      cases hdecode.symm.trans hasked
    · exact .inr (.inl ⟨_, _, hdecode, rfl, hresult, hhears⟩)

theorem server_onReceived_cases {crc32 : Crc32} {hash : RandomState} {raw : RawPacket}
    (h : server.onReceived crc32 hash raw packetId time = .ok (result, next)) :
    next = server ∨
      (∃ decoded header, raw.decode crc32 DecodedForServer.tryFrom time = .ok (.ok decoded) ∧
        forServerHeader decoded = some header ∧ result = .ok false ∧
        ServerHears server header next) ∨
      ∃ packet, raw.decode crc32 DecodedForServer.tryFrom time =
          .ok (.ok (.connectionRequest packet)) ∧ result = .ok true ∧
        ServerAdmits server packet packetId time next := by
  rcases server_onReceived_decides h with
    ⟨hsame, -⟩ | hhears | ⟨packet, hdecode, -, hresult, hadmits⟩
  · exact .inl hsame
  · exact .inr (.inl hhears)
  · exact .inr (.inr ⟨packet, hdecode, hresult, hadmits⟩)

theorem server_onReceived_hears {crc32 : Crc32} {hash : RandomState} {raw : RawPacket}
    {decoded : DecodedForServer} {header : Header}
    (hdecode : raw.decode crc32 DecodedForServer.tryFrom time = .ok (.ok decoded))
    (hheader : forServerHeader decoded = some header)
    (hknown : header.connectionId ∈ server.connected ∨
      header.connectionId ∈ server.awaitingConnectionAck)
    (h : server.onReceived crc32 hash raw packetId time = .ok (result, next)) :
    result = .ok false ∧ ServerHears server header next := by
  obtain ⟨acked, hacked, -, -⟩ := acknowledge_of_known header.sequence header.ack time hknown
  unfold Server.onReceived at h
  rw [hdecode] at h
  cases decoded with
  | connectionRequest packet => contradiction
  | dataTransfer packet =>
    cases hheader
    exact server_onDataTransfer_hears hacked h
  | fragment packet =>
    cases hheader
    exact server_onFragment_hears hacked h
  | heartbeat packet =>
    cases hheader
    exact server_onHeartbeat_hears hacked h

theorem serverReceived_onReceived {protocol after : Protocol Server} {crc32 : Crc32}
    {hash : RandomState} {raw : RawPacket} {outcome : Result Unit}
    (h : protocol.serverReceived crc32 hash raw time = .ok (outcome, after)) :
    ∃ answered, protocol.service.onReceived crc32 hash raw protocol.packetIdTracker time =
        .ok (answered, after.service) ∧
      ∀ error, outcome = .error error →
        answered = .error error ∧ after = { protocol with service := after.service } := by
  obtain ⟨⟨answered, service⟩, hreceived, h⟩ := bind_eq_ok.mp h
  refine ⟨answered, ?_⟩
  rcases answered with error | updatePacketId
  · cases h
    exact ⟨hreceived, fun _ herror => by cases herror; exact ⟨rfl, rfl⟩⟩
  · cases updatePacketId with
    | false =>
      cases h
      exact ⟨hreceived, fun _ herror => by contradiction⟩
    | true =>
      obtain ⟨tracker, -, h⟩ := bind_eq_ok.mp h
      cases h
      exact ⟨hreceived, fun _ herror => by contradiction⟩

theorem serverReceived_registers {protocol : Protocol Server} {crc32 : Crc32} {hash : RandomState}
    {raw : RawPacket} {packet : Packet Received ConnectionRequest} {tracker : ConnectionId}
    {counter : PacketId}
    (hdecode : raw.decode crc32 DecodedForServer.tryFrom time = .ok (.ok (.connectionRequest packet)))
    (hrequesting : protocol.service.requestingConnection = ∅)
    (hunknown : protocol.service.connectionRequestAnotherState packet.delivery.metadata.address =
      false)
    (hallowed : packet.delivery.metadata.address ∉ protocol.service.banList)
    (htracker : tracker.get.toNat = protocol.service.connectionIdTracker.get.toNat + 1)
    (hcounter : addU64 protocol.packetIdTracker 1 = .ok counter) :
    protocol.serverReceived crc32 hash raw time = .ok (.ok (), {
      packetIdTracker := counter
      service := admitting protocol.service packet protocol.packetIdTracker time tracker
      reliableTtl := protocol.reliableTtl }) := by
  unfold Protocol.serverReceived Server.onReceived
  simp only [hdecode, ok_bind]
  rw [server_onConnectionRequest_registers hash packet protocol.packetIdTracker time tracker
    hrequesting hunknown hallowed htracker]
  simp only [ok_bind, hcounter]
  rfl

end Server

section Client

def forClientHeader : DecodedForClient → Header
  | .connectionAccepted packet => headerOf ConnectionAccepted.connectionId packet
  | .dataTransfer packet => headerOf DataTransfer.connectionId packet
  | .fragment packet => headerOf Fragment.connectionId packet
  | .heartbeat packet => headerOf Heartbeat.connectionId packet

def connectedAs (client : Client) (id : ConnectionId) : Option SocketAddr :=
  (client.connected.lookup id).map Peer.address

def awaitingAt (client : Client) (address : SocketAddr) : Option SocketAddr :=
  (client.awaitingConnectionAck.lookup address).map Peer.address

/-- The peer that the client takes a packet to be from: the connected one of its id, else the
one that awaits at its source. A fragment needs the former, an accept the latter. -/
def addressee (client : Client) : DecodedForClient → Option SocketAddr
  | .connectionAccepted packet =>
      if packet.delivery.metadata.address ∈ client.requestingConnection ∨
          packet.message.connectionId ∈ client.connected then none
      else awaitingAt client packet.delivery.metadata.address
  | .dataTransfer packet => (connectedAs client packet.message.connectionId).or
      (awaitingAt client packet.delivery.metadata.address)
  | .fragment packet => connectedAs client packet.message.connectionId
  | .heartbeat packet => (connectedAs client packet.message.connectionId).or
      (awaitingAt client packet.delivery.metadata.address)

/-- A packet is heard by the connected peer of its id, or by the peer that awaits at its
source, which is connected under that id. -/
inductive ClientHears (client : Client) (header : Header) : Client → Prop where
  | connected (peer : Peer Connected)
      (found : client.connected.lookup header.connectionId = some peer)
      (reassembler : Reassembler) (events : List (ProtocolEvent ClientEvent))
      (delivers : Delivers header events) :
      ClientHears client header { client with
        connected := client.connected.insert header.connectionId (hearing peer header reassembler)
        api := client.api ++ events }
  | awaiting (peer : Peer AwaitingConnectionAck)
      (unconnected : client.connected.lookup header.connectionId = none)
      (found : client.awaitingConnectionAck.lookup header.source = some peer)
      (time : Duration) (events : List (ProtocolEvent ClientEvent))
      (delivers : Delivers header events) :
      ClientHears client header { client with
        awaitingConnectionAck := client.awaitingConnectionAck.erase header.source
        connected := client.connected.insert header.connectionId
          (hearing (peer.connected time header.connectionId) header ∅)
        api := client.api ++ events }

variable {client next : Client} {time : Duration} {result : Result Unit}

theorem ClientHears.api {header : Header} (h : ClientHears client header next) :
    ∃ events, Delivers header events ∧ next.api = client.api ++ events := by
  cases h with
  | connected peer found reassembler events delivers => exact ⟨events, delivers, rfl⟩
  | awaiting peer unconnected found time events delivers => exact ⟨events, delivers, rfl⟩

theorem ClientHears.kept {header : Header} (h : ClientHears client header next) :
    next.requestingConnection = client.requestingConnection ∧
      next.scheduler = client.scheduler ∧ next.reliabilityHandler = client.reliabilityHandler := by
  cases h with
  | connected peer found reassembler events delivers => exact ⟨rfl, rfl, rfl⟩
  | awaiting peer unconnected found time events delivers => exact ⟨rfl, rfl, rfl⟩

theorem client_onConnectionAccepted_cases {packet : Packet Received ConnectionAccepted}
    (h : client.onConnectionAccepted packet time = (result, next)) :
    (next = client ∧ addressee client (.connectionAccepted packet) = none) ∨
      ∃ address, addressee client (.connectionAccepted packet) = some address ∧ result = .ok () ∧
        ClientHears client (headerOf ConnectionAccepted.connectionId packet) next := by
  unfold Client.onConnectionAccepted at h
  dsimp only at h
  split at h
  · next hknown =>
    cases h
    exact .inl ⟨rfl, if_pos hknown⟩
  · next hfresh =>
    have haddressee : addressee client (.connectionAccepted packet) =
        awaitingAt client packet.delivery.metadata.address := if_neg hfresh
    rw [haddressee, awaitingAt]
    split at h
    · next peer hfound =>
      cases h
      have hunconnected : client.connected.lookup packet.message.connectionId = none :=
        Finmap.lookup_eq_none.mpr fun hmem => hfresh (.inr hmem)
      have hhears : ClientHears client (headerOf ConnectionAccepted.connectionId packet) _ :=
        .awaiting peer hunconnected hfound time [] (delivers_nil _)
      simp only [List.append_nil] at hhears
      exact .inr ⟨peer.address, by rw [hfound]; rfl, rfl, hhears⟩
    · next hnone =>
      cases h
      exact .inl ⟨rfl, by rw [hnone]; rfl⟩

theorem client_onDataTransfer_hears {packet : Packet Received DataTransfer} {peer : Peer Connected}
    (hfound : client.connected.lookup packet.message.connectionId = some peer)
    (h : client.onDataTransfer packet time = (result, next)) :
    result = .ok () ∧ ClientHears client (headerOf DataTransfer.connectionId packet) next := by
  unfold Client.onDataTransfer at h
  simp only [hfound] at h
  cases h
  have hhears : ClientHears client (headerOf DataTransfer.connectionId packet) _ :=
    .connected peer hfound peer.connection.reassembler [] (delivers_nil _)
  simp only [List.append_nil] at hhears
  exact ⟨rfl, hhears⟩

theorem client_onFragment_hears {packet : Packet Received Fragment} {peer : Peer Connected}
    (hfound : client.connected.lookup packet.message.connectionId = some peer)
    (h : client.onFragment packet = .ok (result, next)) :
    result = .ok () ∧ ClientHears client (headerOf Fragment.connectionId packet) next := by
  unfold Client.onFragment at h
  simp only [hfound] at h
  obtain ⟨found, hexpect, h⟩ := bind_eq_ok.mp h
  cases (Finmap.lookup_insert _).symm.trans (expect_eq_ok.mp hexpect)
  obtain ⟨⟨reassembled, payload⟩, hreassemble, h⟩ := bind_eq_ok.mp h
  obtain ⟨reassembler, rfl⟩ := reassemble_frame hreassemble
  cases payload with
  | none =>
    cases h
    have hhears : ClientHears client (headerOf Fragment.connectionId packet) _ :=
      .connected peer hfound reassembler [] (delivers_nil _)
    simp only [List.append_nil] at hhears
    refine ⟨rfl, ?_⟩
    simp only [Finmap.insert_insert]
    exact hhears
  | some payload =>
    cases h
    refine ⟨rfl, ?_⟩
    simp only [Finmap.insert_insert]
    exact .connected peer hfound reassembler _ (delivers_one _ _)

theorem client_onHeartbeat_hears {packet : Packet Received Heartbeat} {peer : Peer Connected}
    (hfound : client.connected.lookup packet.message.connectionId = some peer)
    (h : client.onHeartbeat packet time = (result, next)) :
    result = .ok () ∧ ClientHears client (headerOf Heartbeat.connectionId packet) next := by
  unfold Client.onHeartbeat at h
  simp only [hfound] at h
  cases h
  have hhears : ClientHears client (headerOf Heartbeat.connectionId packet) _ :=
    .connected peer hfound peer.connection.reassembler [] (delivers_nil _)
  simp only [List.append_nil] at hhears
  exact ⟨rfl, hhears⟩

theorem client_onDataTransfer_cases {packet : Packet Received DataTransfer}
    (h : client.onDataTransfer packet time = (result, next)) :
    (next = client ∧ addressee client (.dataTransfer packet) = none) ∨
      ∃ address, addressee client (.dataTransfer packet) = some address ∧ result = .ok () ∧
        ClientHears client (headerOf DataTransfer.connectionId packet) next := by
  rw [addressee, connectedAs, awaitingAt]
  cases hconnected : client.connected.lookup packet.message.connectionId with
  | some peer => exact .inr ⟨peer.address, rfl, client_onDataTransfer_hears hconnected h⟩
  | none =>
    simp only [Client.onDataTransfer, hconnected] at h
    split at h
    · next peer hfound =>
      cases h
      refine .inr ⟨peer.address, by rw [hfound]; rfl, rfl, ?_⟩
      exact .awaiting peer hconnected hfound time _ (delivers_one _ _)
    · next hnone =>
      cases h
      exact .inl ⟨rfl, by rw [hnone]; rfl⟩

theorem client_onFragment_cases {packet : Packet Received Fragment}
    (h : client.onFragment packet = .ok (result, next)) :
    (next = client ∧ addressee client (.fragment packet) = none) ∨
      ∃ address, addressee client (.fragment packet) = some address ∧ result = .ok () ∧
        ClientHears client (headerOf Fragment.connectionId packet) next := by
  rw [addressee, connectedAs]
  cases hconnected : client.connected.lookup packet.message.connectionId with
  | some peer => exact .inr ⟨peer.address, rfl, client_onFragment_hears hconnected h⟩
  | none =>
    simp only [Client.onFragment, hconnected] at h
    cases h
    exact .inl ⟨rfl, rfl⟩

theorem client_onHeartbeat_cases {packet : Packet Received Heartbeat}
    (h : client.onHeartbeat packet time = (result, next)) :
    (next = client ∧ addressee client (.heartbeat packet) = none) ∨
      ∃ address, addressee client (.heartbeat packet) = some address ∧ result = .ok () ∧
        ClientHears client (headerOf Heartbeat.connectionId packet) next := by
  rw [addressee, connectedAs, awaitingAt]
  cases hconnected : client.connected.lookup packet.message.connectionId with
  | some peer => exact .inr ⟨peer.address, rfl, client_onHeartbeat_hears hconnected h⟩
  | none =>
    simp only [Client.onHeartbeat, hconnected] at h
    split at h
    · next peer hfound =>
      cases h
      have hhears : ClientHears client (headerOf Heartbeat.connectionId packet) _ :=
        .awaiting peer hconnected hfound time [] (delivers_nil _)
      simp only [List.append_nil] at hhears
      exact .inr ⟨peer.address, by rw [hfound]; rfl, rfl, hhears⟩
    · next hnone =>
      cases h
      exact .inl ⟨rfl, by rw [hnone]; rfl⟩

/-- What the client's `on_received` does, decided by the addressee of the packet. -/
theorem client_onReceived_decides {crc32 : Crc32} {raw : RawPacket}
    (h : client.onReceived crc32 raw time = .ok (result, next)) :
    (next = client ∧ ∀ decoded,
      raw.decode crc32 DecodedForClient.tryFrom time = .ok (.ok decoded) →
        addressee client decoded = none) ∨
      ∃ decoded address, raw.decode crc32 DecodedForClient.tryFrom time = .ok (.ok decoded) ∧
        addressee client decoded = some address ∧ result = .ok () ∧
        ClientHears client (forClientHeader decoded) next := by
  obtain ⟨decoded, hdecode, h⟩ := bind_eq_ok.mp h
  rcases decoded with error | decoded
  · cases h
    exact .inl ⟨rfl, fun other hother => by cases hdecode.symm.trans hother⟩
  have hcases : (next = client ∧ addressee client decoded = none) ∨
      ∃ address, addressee client decoded = some address ∧ result = .ok () ∧
        ClientHears client (forClientHeader decoded) next := by
    cases decoded with
    | connectionAccepted packet => exact client_onConnectionAccepted_cases (Except.ok.inj h)
    | dataTransfer packet => exact client_onDataTransfer_cases (Except.ok.inj h)
    | fragment packet => exact client_onFragment_cases h
    | heartbeat packet => exact client_onHeartbeat_cases (Except.ok.inj h)
  rcases hcases with ⟨hsame, hnone⟩ | ⟨address, hsome, hhears⟩
  · refine .inl ⟨hsame, fun other hother => ?_⟩
    cases hdecode.symm.trans hother
    exact hnone
  · exact .inr ⟨decoded, address, hdecode, hsome, hhears⟩

theorem client_onReceived_cases {crc32 : Crc32} {raw : RawPacket}
    (h : client.onReceived crc32 raw time = .ok (result, next)) :
    next = client ∨
      ∃ decoded, raw.decode crc32 DecodedForClient.tryFrom time = .ok (.ok decoded) ∧
        result = .ok () ∧ ClientHears client (forClientHeader decoded) next := by
  rcases client_onReceived_decides h with ⟨hsame, -⟩ | ⟨decoded, _, hdecode, -, hhears⟩
  · exact .inl hsame
  · exact .inr ⟨decoded, hdecode, hhears⟩

theorem client_onReceived_hears {crc32 : Crc32} {raw : RawPacket} {decoded : DecodedForClient}
    {peer : Peer Connected}
    (hdecode : raw.decode crc32 DecodedForClient.tryFrom time = .ok (.ok decoded))
    (hcarried : ∀ packet, decoded ≠ .connectionAccepted packet)
    (hfound : client.connected.lookup (forClientHeader decoded).connectionId = some peer)
    (h : client.onReceived crc32 raw time = .ok (result, next)) :
    result = .ok () ∧ ClientHears client (forClientHeader decoded) next := by
  unfold Client.onReceived at h
  rw [hdecode] at h
  cases decoded with
  | connectionAccepted packet => exact absurd rfl (hcarried packet)
  | dataTransfer packet => exact client_onDataTransfer_hears hfound (Except.ok.inj h)
  | fragment packet => exact client_onFragment_hears hfound h
  | heartbeat packet => exact client_onHeartbeat_hears hfound (Except.ok.inj h)

def connecting (client : Client) (remoteAddress : SocketAddr) (packetId : PacketId)
    (time : Duration) : Client :=
  let request := Scheduled.connectionRequest packetId remoteAddress time
  { client with
    scheduler := { client.scheduler with
      service := ⟨client.scheduler.service.listScheduledConnectionRequest ++ [request]⟩ }
    requestingConnection :=
      client.requestingConnection.insert remoteAddress (.new time remoteAddress 0) }

theorem connect_cases {protocol after : Protocol Client} {remoteAddress : SocketAddr}
    (h : protocol.connect remoteAddress time = .ok (result, after)) :
    (∃ error, result = .error error ∧ after = protocol) ∨
      ∃ tracker, protocol.service.knownPeer remoteAddress = false ∧
        addU64 protocol.packetIdTracker 1 = .ok tracker ∧ result = .ok () ∧
        after = { protocol with
          service := connecting protocol.service remoteAddress protocol.packetIdTracker time
          packetIdTracker := tracker } := by
  unfold Protocol.connect Client.connect at h
  cases hknown : protocol.service.knownPeer remoteAddress with
  | true =>
    rw [if_pos hknown] at h
    cases h
    exact .inl ⟨_, rfl, rfl⟩
  | false =>
    rw [if_neg (by simp [hknown])] at h
    obtain ⟨tracker, htracker, h⟩ := bind_eq_ok.mp h
    cases h
    exact .inr ⟨tracker, rfl, htracker, rfl, rfl⟩

end Client

end Antarc.Properties
