import Antarc.Properties.Answering
import Antarc.Properties.Delivery

/-! What a received packet leaves alone. A packet of a connection is attributed by its
connection id, whatever address it comes from; an accept by its source. -/
namespace Antarc.Properties

open Library

section Packets

def carriedHeader : DecodedCommon → Option Header
  | .connectionRequest _ => none
  | .connectionAccepted _ => none
  | .dataTransfer packet => some (headerOf DataTransfer.connectionId packet)
  | .fragment packet => some (headerOf Fragment.connectionId packet)
  | .heartbeat packet => some (headerOf Heartbeat.connectionId packet)

/-- The packet acts on the connection of its id: the peer is connected at its own address, with
the acks of the packet, every other connected peer is as before, and so are the events
but for data transfers of that connection. -/
structure ActsOn {A B E : Type} (header : Header) (address : SocketAddr) (sequence : Sequence)
    (core next : ServiceCore A B E) : Prop where
  peer : ∃ peer, next.connected.lookup header.connectionId = some peer ∧ peer.address = address ∧
    trackersOf peer = ⟨sequence, header.sequence.get, header.ack⟩
  others : ∀ id, id ≠ header.connectionId → next.connected.lookup id = core.connected.lookup id
  events : ∃ events, next.api = core.api ++ events ∧ Delivers header events

/-- The fragments that are kept for a connection: none before its peer is connected. -/
def fragmentsOf {A B E : Type} (core : ServiceCore A B E) (id : ConnectionId) : Reassembler :=
  match core.connected.lookup id with
  | some peer => peer.connection.reassembler
  | none => ∅

/-- What each kind of packet does to the fragments of its connection. A data transfer and a
heartbeat leave them alone, a fragment moves its own group at most; a heartbeat causes no event,
and a data transfer none but its own payload. -/
def KeepsFragments {A B E : Type} (core next : ServiceCore A B E) : DecodedCommon → Prop
  | .connectionRequest _ => True
  | .connectionAccepted _ => True
  | .dataTransfer packet =>
      fragmentsOf next packet.message.connectionId = fragmentsOf core packet.message.connectionId ∧
        (next.api = core.api ∨ next.api =
          core.api ++ [.dataTransfer packet.message.connectionId packet.message.payload])
  | .fragment packet =>
      ∀ sequence, sequence ≠ packet.sequence →
        (fragmentsOf next packet.message.connectionId).lookup sequence =
          (fragmentsOf core packet.message.connectionId).lookup sequence
  | .heartbeat packet =>
      fragmentsOf next packet.message.connectionId = fragmentsOf core packet.message.connectionId ∧
        next.api = core.api

inductive Registered (server : Server) (id : ConnectionId) : SocketAddr → Sequence → Prop where
  | connected (peer : Peer Connected) (found : server.connected.lookup id = some peer) :
      Registered server id peer.address peer.sequenceTracker
  | awaiting (peer : Peer AwaitingConnectionAck) (unconnected : server.connected.lookup id = none)
      (found : server.awaitingConnectionAck.lookup id = some peer) :
      Registered server id peer.address peer.sequenceTracker

/-- What is left of the server: no peer but the one of the id has moved. -/
structure ServerActsOn (header : Header) (address : SocketAddr) (sequence : Sequence)
    (server next : Server) : Prop where
  acts : ActsOn header address sequence server.toServiceCore next.toServiceCore
  requesting : next.requestingConnection = server.requestingConnection
  awaiting : ∀ id, id ≠ header.connectionId →
    next.awaitingConnectionAck.lookup id = server.awaitingConnectionAck.lookup id

structure ClientActsOn (header : Header) (address : SocketAddr) (sequence : Sequence)
    (client next : Client) : Prop where
  acts : ActsOn header address sequence client.toServiceCore next.toServiceCore
  requesting : next.requestingConnection = client.requestingConnection
  awaiting : next.awaitingConnectionAck = client.awaitingConnectionAck

end Packets

section Fragments

variable {A B E : Type} {core next : ServiceCore A B E} {id : ConnectionId} {peer : Peer Connected}

theorem fragmentsOf_connected (h : core.connected.lookup id = some peer) :
    fragmentsOf core id = peer.connection.reassembler := by
  rw [fragmentsOf, h]

theorem fragmentsOf_insert (peer : Peer Connected)
    (h : next.connected = core.connected.insert id peer) :
    fragmentsOf next id = peer.connection.reassembler :=
  fragmentsOf_connected (by rw [h, Finmap.lookup_insert])

theorem joinGroup_others (reassembler : Reassembler) (packet : Packet Received Fragment)
    {sequence : Sequence} (h : sequence ≠ packet.sequence) :
    (joinGroup reassembler packet).1.lookup sequence = reassembler.lookup sequence := by
  unfold joinGroup
  split <;> exact Finmap.lookup_insert_of_ne _ h

theorem reassemble_others {peer joined : Peer Connected} {packet : Packet Received Fragment}
    {payload : Option Payload} (h : peer.reassemble packet = .ok (joined, payload))
    {sequence : Sequence} (hother : sequence ≠ packet.sequence) :
    joined.connection.reassembler.lookup sequence =
      peer.connection.reassembler.lookup sequence := by
  have hjoined := joinGroup_others peer.connection.reassembler packet hother
  unfold Peer.reassemble at h
  split at h
  · next reassembler hgroup =>
    cases h
    rwa [hgroup] at hjoined
  · next reassembler hgroup =>
    obtain ⟨fragments, -, h⟩ := bind_eq_ok.mp h
    obtain ⟨whole, -, h⟩ := bind_eq_ok.mp h
    cases h
    rw [hgroup] at hjoined
    exact (Finmap.lookup_erase_ne hother).trans hjoined

end Fragments

section Server

variable {server next : Server} {header : Header} {address : SocketAddr} {sequence : Sequence}

theorem Registered.known (h : Registered server header.connectionId address sequence) :
    header.connectionId ∈ server.connected ∨
      header.connectionId ∈ server.awaitingConnectionAck := by
  cases h with
  | connected peer found => exact .inl (Finmap.mem_of_lookup_eq_some found)
  | awaiting peer unconnected found => exact .inr (Finmap.mem_of_lookup_eq_some found)

theorem ServerHears.actsOn (h : ServerHears server header next)
    (hregistered : Registered server header.connectionId address sequence) :
    ServerActsOn header address sequence server next := by
  cases h with
  | connected peer found reassembler events delivers =>
    cases hregistered with
    | connected known hknown =>
      cases found.symm.trans hknown
      refine ⟨⟨⟨_, Finmap.lookup_insert _, rfl, rfl⟩, ?_, ⟨events, rfl, delivers⟩⟩, rfl,
        fun _ _ => rfl⟩
      exact fun id hne => Finmap.lookup_insert_of_ne _ hne
    | awaiting known hnone _ => cases found.symm.trans hnone
  | awaiting peer unconnected found time reassembler events delivers =>
    cases hregistered with
    | connected known hknown => cases unconnected.symm.trans hknown
    | awaiting known _ hknown =>
      cases found.symm.trans hknown
      refine ⟨⟨⟨_, Finmap.lookup_insert _, rfl, rfl⟩, ?_, ⟨events, rfl, delivers⟩⟩, rfl, ?_⟩
      · exact fun id hne => Finmap.lookup_insert_of_ne _ hne
      · exact fun id hne => Finmap.lookup_erase_ne hne

theorem acknowledge_fragments {acked : Server} {id : ConnectionId} {ack : Ack} {time : Duration}
    (h : server.acknowledge id sequence ack time = some acked) :
    ∃ peer, acked.connected.lookup id = some peer ∧
      peer.connection.reassembler = fragmentsOf server.toServiceCore id ∧
      acked.api = server.api := by
  unfold Server.acknowledge at h
  split at h
  · next peer hfound =>
    cases h
    exact ⟨_, Finmap.lookup_insert _, (fragmentsOf_connected hfound).symm, rfl⟩
  · next hnone =>
    split at h
    · next peer hfound =>
      cases h
      refine ⟨_, Finmap.lookup_insert _, ?_, rfl⟩
      rw [fragmentsOf, hnone]
      rfl
    · contradiction

theorem server_dataTransfer_keeps {packet : Packet Received DataTransfer} {time : Duration}
    {result : Result Bool} (h : server.onDataTransfer packet time = .ok (result, next)) :
    KeepsFragments server.toServiceCore next.toServiceCore (.dataTransfer packet) := by
  unfold Server.onDataTransfer at h
  dsimp only at h
  split at h
  · next acked hacked =>
    obtain ⟨peer, hfound, hfragments, hapi⟩ := acknowledge_fragments hacked
    cases h
    exact ⟨(fragmentsOf_connected hfound).trans hfragments, .inr (congrArg (· ++ _) hapi)⟩
  · cases h
    exact ⟨rfl, .inl rfl⟩

theorem server_fragment_keeps {packet : Packet Received Fragment} {time : Duration}
    {result : Result Bool} (h : server.onFragment packet time = .ok (result, next)) :
    KeepsFragments server.toServiceCore next.toServiceCore (.fragment packet) := by
  unfold Server.onFragment at h
  dsimp only at h
  split at h
  · next acked hacked =>
    obtain ⟨peer, hfound, hfragments, -⟩ := acknowledge_fragments hacked
    obtain ⟨found, hexpect, h⟩ := bind_eq_ok.mp h
    cases hfound.symm.trans (expect_eq_ok.mp hexpect)
    obtain ⟨⟨joined, payload⟩, hreassemble, h⟩ := bind_eq_ok.mp h
    intro sequence hother
    have hkept := reassemble_others hreassemble hother
    rw [hfragments] at hkept
    cases payload <;> cases h <;> rwa [fragmentsOf_insert joined rfl]
  · cases h
    exact fun _ _ => rfl

theorem server_heartbeat_keeps {packet : Packet Received Heartbeat} {time : Duration}
    {result : Result Bool} (h : server.onHeartbeat packet time = .ok (result, next)) :
    KeepsFragments server.toServiceCore next.toServiceCore (.heartbeat packet) := by
  unfold Server.onHeartbeat at h
  dsimp only at h
  split at h
  · next acked hacked =>
    obtain ⟨peer, hfound, hfragments, hapi⟩ := acknowledge_fragments hacked
    cases h
    exact ⟨(fragmentsOf_connected hfound).trans hfragments, hapi⟩
  · cases h
    exact ⟨rfl, rfl⟩

theorem server_keepsFragments {crc32 : Crc32} {raw : RawPacket} {now : Duration}
    {decoded : DecodedCommon} {hash : RandomState} {packetId : PacketId} {result : Result Bool}
    (hdecode : (raw.innerDecode crc32 now).run = .ok (.ok decoded))
    (h : server.onReceived crc32 hash raw packetId now = .ok (result, next)) :
    KeepsFragments server.toServiceCore next.toServiceCore decoded := by
  unfold Server.onReceived RawPacket.decode at h
  rw [hdecode] at h
  cases decoded with
  | connectionRequest packet => exact trivial
  | connectionAccepted packet => exact trivial
  | dataTransfer packet => exact server_dataTransfer_keeps h
  | fragment packet => exact server_fragment_keeps h
  | heartbeat packet => exact server_heartbeat_keeps h

/-- The server takes a packet of a registered peer, from wherever it comes. -/
theorem serverReceived_actsOn {crc32 : Crc32} {raw : RawPacket} {now : Duration}
    {decoded : DecodedCommon} {protocol : Protocol Server} (hash : RandomState)
    (hdecode : (raw.innerDecode crc32 now).run = .ok (.ok decoded))
    (hheader : carriedHeader decoded = some header)
    (hregistered : Registered protocol.service header.connectionId address sequence) :
    ∃ next, protocol.serverReceived crc32 hash raw now = .ok (.ok (), next) ∧
      ServerActsOn header address sequence protocol.service next.service ∧
      KeepsFragments protocol.core next.core decoded := by
  have hother : ¬AsksForPeer protocol.service decoded := by
    rintro ⟨packet, rfl, -⟩
    contradiction
  have hserver : ∃ forServer, raw.decode crc32 DecodedForServer.tryFrom now =
      .ok (.ok forServer) ∧ forServerHeader forServer = some header := by
    unfold RawPacket.decode
    rw [hdecode]
    cases decoded with
    | connectionRequest packet => contradiction
    | connectionAccepted packet => contradiction
    | dataTransfer packet => exact ⟨_, rfl, hheader⟩
    | fragment packet => exact ⟨_, rfl, hheader⟩
    | heartbeat packet => exact ⟨_, rfl, hheader⟩
  obtain ⟨forServer, hforServer, hforHeader⟩ := hserver
  obtain ⟨⟨result, next⟩, hreceived, -⟩ := returns_iff.mp
    (returns_onReceived_other hash protocol.packetIdTracker hdecode hother)
  obtain ⟨rfl, hhears⟩ :=
    server_onReceived_hears hforServer hforHeader hregistered.known hreceived
  refine ⟨{ protocol with service := next }, ?_, hhears.actsOn hregistered,
    server_keepsFragments hdecode hreceived⟩
  unfold Protocol.serverReceived
  rw [hreceived]
  rfl

end Server

section Client

variable {client next : Client} {header : Header} {peer : Peer Connected}

theorem ClientHears.actsOn (h : ClientHears client header next)
    (hfound : client.connected.lookup header.connectionId = some peer) :
    ClientActsOn header peer.address peer.sequenceTracker client next := by
  cases h with
  | connected known found reassembler events delivers =>
    cases hfound.symm.trans found
    refine ⟨⟨⟨_, Finmap.lookup_insert _, rfl, rfl⟩, ?_, ⟨events, rfl, delivers⟩⟩, rfl, rfl⟩
    exact fun id hne => Finmap.lookup_insert_of_ne _ hne
  | awaiting known unconnected found time events delivers => cases unconnected.symm.trans hfound

theorem client_dataTransfer_keeps (client : Client) (packet : Packet Received DataTransfer)
    (time : Duration) :
    KeepsFragments client.toServiceCore (client.onDataTransfer packet time).2.toServiceCore
      (.dataTransfer packet) := by
  unfold Client.onDataTransfer
  dsimp only
  split
  · next peer hfound =>
    refine ⟨(fragmentsOf_connected (Finmap.lookup_insert _)).trans ?_, .inl rfl⟩
    exact (fragmentsOf_connected hfound).symm
  · next hnone =>
    split
    · refine ⟨(fragmentsOf_connected (Finmap.lookup_insert _)).trans ?_, .inr rfl⟩
      rw [fragmentsOf, hnone]
      rfl
    · exact ⟨rfl, .inl rfl⟩

theorem client_fragment_keeps {packet : Packet Received Fragment} {result : Result Unit}
    (h : client.onFragment packet = .ok (result, next)) :
    KeepsFragments client.toServiceCore next.toServiceCore (.fragment packet) := by
  unfold Client.onFragment at h
  dsimp only at h
  split at h
  · next peer hfound =>
    obtain ⟨found, hexpect, h⟩ := bind_eq_ok.mp h
    cases (Finmap.lookup_insert _).symm.trans (expect_eq_ok.mp hexpect)
    obtain ⟨⟨joined, payload⟩, hreassemble, h⟩ := bind_eq_ok.mp h
    rw [Finmap.insert_insert] at h
    intro sequence hother
    have hkept := reassemble_others hreassemble hother
    rw [fragmentsOf_connected hfound]
    cases payload <;> cases h <;> rwa [fragmentsOf_insert joined rfl]
  · cases h
    exact fun _ _ => rfl

theorem client_heartbeat_keeps (client : Client) (packet : Packet Received Heartbeat)
    (time : Duration) :
    KeepsFragments client.toServiceCore (client.onHeartbeat packet time).2.toServiceCore
      (.heartbeat packet) := by
  unfold Client.onHeartbeat
  dsimp only
  split
  · next peer hfound =>
    refine ⟨(fragmentsOf_connected (Finmap.lookup_insert _)).trans ?_, rfl⟩
    exact (fragmentsOf_connected hfound).symm
  · next hnone =>
    split
    · refine ⟨(fragmentsOf_connected (Finmap.lookup_insert _)).trans ?_, rfl⟩
      rw [fragmentsOf, hnone]
      rfl
    · exact ⟨rfl, rfl⟩

theorem client_keepsFragments {crc32 : Crc32} {raw : RawPacket} {now : Duration}
    {decoded : DecodedCommon} {result : Result Unit}
    (hdecode : (raw.innerDecode crc32 now).run = .ok (.ok decoded))
    (h : client.onReceived crc32 raw now = .ok (result, next)) :
    KeepsFragments client.toServiceCore next.toServiceCore decoded := by
  unfold Client.onReceived RawPacket.decode at h
  rw [hdecode] at h
  cases decoded with
  | connectionRequest packet => exact trivial
  | connectionAccepted packet => exact trivial
  | dataTransfer packet =>
    have hnext : (client.onDataTransfer packet now).2 = next := congrArg Prod.snd (Except.ok.inj h)
    exact hnext ▸ client_dataTransfer_keeps client packet now
  | fragment packet => exact client_fragment_keeps h
  | heartbeat packet =>
    have hnext : (client.onHeartbeat packet now).2 = next := congrArg Prod.snd (Except.ok.inj h)
    exact hnext ▸ client_heartbeat_keeps client packet now

theorem clientReceived_actsOn {crc32 : Crc32} {raw : RawPacket} {now : Duration}
    {decoded : DecodedCommon} {protocol : Protocol Client}
    (hdecode : (raw.innerDecode crc32 now).run = .ok (.ok decoded))
    (hheader : carriedHeader decoded = some header)
    (hfound : protocol.service.connected.lookup header.connectionId = some peer) :
    ∃ next, protocol.clientReceived crc32 raw now = .ok (.ok (), next) ∧
      ClientActsOn header peer.address peer.sequenceTracker protocol.service next.service ∧
      KeepsFragments protocol.core next.core decoded := by
  have hclient : ∃ forClient, raw.decode crc32 DecodedForClient.tryFrom now =
      .ok (.ok forClient) ∧ forClientHeader forClient = header ∧
      ∀ packet, forClient ≠ .connectionAccepted packet := by
    unfold RawPacket.decode
    rw [hdecode]
    cases decoded with
    | connectionRequest packet => contradiction
    | connectionAccepted packet => contradiction
    | dataTransfer packet => exact ⟨_, rfl, Option.some.inj hheader, fun _ h => by cases h⟩
    | fragment packet => exact ⟨_, rfl, Option.some.inj hheader, fun _ h => by cases h⟩
    | heartbeat packet => exact ⟨_, rfl, Option.some.inj hheader, fun _ h => by cases h⟩
  obtain ⟨forClient, hforClient, rfl, hcarried⟩ := hclient
  obtain ⟨⟨result, next⟩, hreceived, -⟩ := returns_iff.mp (returns_clientReceived hdecode protocol)
  obtain ⟨⟨answered, service⟩, hservice, hnext⟩ := bind_eq_ok.mp hreceived
  obtain ⟨rfl, hhears⟩ := client_onReceived_hears hforClient hcarried hfound hservice
  cases hnext
  exact ⟨_, hreceived, hhears.actsOn hfound, client_keepsFragments hdecode hservice⟩

end Client

/-- A packet of a connection acts on the connection that it names and on no other, from
whatever address it comes: the source is not compared with that of the peer. -/
theorem packet_acts_on_its_connection (crc32 : Crc32) (raw : RawPacket) (now : Duration)
    (decoded : DecodedCommon) (header : Header)
    (hdecode : (raw.innerDecode crc32 now).run = .ok (.ok decoded))
    (hheader : carriedHeader decoded = some header) :
    (∀ (protocol : Protocol Server) (hash : RandomState) (address : SocketAddr)
        (sequence : Sequence), Registered protocol.service header.connectionId address sequence →
      ∃ next, protocol.serverReceived crc32 hash raw now = .ok (.ok (), next) ∧
        ServerActsOn header address sequence protocol.service next.service ∧
        KeepsFragments protocol.core next.core decoded) ∧
    ∀ (protocol : Protocol Client) (peer : Peer Connected),
      protocol.service.connected.lookup header.connectionId = some peer →
      ∃ next, protocol.clientReceived crc32 raw now = .ok (.ok (), next) ∧
        ClientActsOn header peer.address peer.sequenceTracker protocol.service next.service ∧
        KeepsFragments protocol.core next.core decoded :=
  ⟨fun _ hash _ _ hregistered => serverReceived_actsOn hash hdecode hheader hregistered,
    fun _ _ hfound => clientReceived_actsOn hdecode hheader hfound⟩

def intruding : Packet ToSend DataTransfer :=
  ⟨⟨0, ⟨.zero, .v4 1 1⟩⟩, ⟨7, by decide⟩, 5, .new .one [42]⟩

def intrudingDatagram : RawPacket :=
  ⟨.v4 9 9, (intruding.datagram ieeeCrc32).bytes⟩

theorem intrudingDatagram_decodes :
    (intrudingDatagram.innerDecode ieeeCrc32 .zero).run =
      .ok (.ok (.dataTransfer (Codec.arrived intruding (.v4 9 9) .zero))) :=
  (Codec.roundTrips_dataTransfer ieeeCrc32 intruding (.v4 9 9) .zero rfl).1

theorem requestedServer_registered :
    Registered requestedServer.service ⟨1, by decide⟩ (.v4 0 0) ⟨1, by decide⟩ :=
  .awaiting ((Peer.new .zero (.v4 0 0) 1).awaitConnectionAck .zero) rfl rfl

def intrudedServer : Protocol Server :=
  let server := requestedServer.service
  let peer := (Peer.new .zero (.v4 0 0) 1).awaitConnectionAck .zero
  { requestedServer with service := { server with
      api := [.dataTransfer .one [42]]
      awaitingConnectionAck := server.awaitingConnectionAck.erase .one
      connected := server.connected.insert .one
        ((peer.acknowledge ⟨7, by decide⟩ 5).connected .zero .one) } }

theorem requestedServer_intruded (hash : RandomState) :
    requestedServer.serverReceived ieeeCrc32 hash intrudingDatagram .zero =
      .ok (.ok (), intrudedServer) := by
  have hdecode := (Codec.roundTrips_dataTransfer ieeeCrc32 intruding (.v4 9 9) .zero rfl).2.1
  unfold Protocol.serverReceived Server.onReceived
  rw [show intrudingDatagram = ⟨.v4 9 9, (intruding.datagram ieeeCrc32).bytes⟩ from rfl, hdecode]
  simp only [ok_bind, Server.onDataTransfer]
  rfl

/-- A data transfer from a foreign address connects the peer that awaits its ack, and reaches
the application as one of that peer. -/
theorem intrusion_acts :
    (serverCalls ieeeCrc32).Reachable requestedServer ∧
    Registered requestedServer.service ⟨1, by decide⟩ (.v4 0 0) ⟨1, by decide⟩ ∧
    (intrudingDatagram.innerDecode ieeeCrc32 .zero).run =
      .ok (.ok (.dataTransfer (Codec.arrived intruding (.v4 9 9) .zero))) ∧
    intrudingDatagram.address ≠ .v4 0 0 ∧
    ∀ hash, requestedServer.serverReceived ieeeCrc32 hash intrudingDatagram .zero =
        .ok (.ok (), intrudedServer) ∧
      ⟨1, by decide⟩ ∈ requestedServer.service.awaitingConnectionAck ∧
      ⟨1, by decide⟩ ∉ intrudedServer.service.awaitingConnectionAck ∧
      .dataTransfer ⟨1, by decide⟩ [42] ∈ intrudedServer.service.api := by
  refine ⟨requestedServer_reachable, requestedServer_registered, intrudingDatagram_decodes,
    by decide, fun hash => ⟨requestedServer_intruded hash, ?_, ?_, List.mem_singleton.mpr rfl⟩⟩
  · exact Finmap.mem_insert.mpr (.inl rfl)
  · exact fun hmem => (Finmap.mem_erase.mp hmem).1 rfl

theorem intrusion_stays :
    ∃ next, requestedServer.serverReceived ieeeCrc32 (Classical.arbitrary RandomState)
        intrudingDatagram .zero = .ok (.ok (), next) ∧
      ServerActsOn (headerOf DataTransfer.connectionId (Codec.arrived intruding (.v4 9 9) .zero))
        (.v4 0 0) ⟨1, by decide⟩ requestedServer.service next.service ∧
      KeepsFragments requestedServer.core next.core
        (.dataTransfer (Codec.arrived intruding (.v4 9 9) .zero)) :=
  (packet_acts_on_its_connection ieeeCrc32 intrudingDatagram .zero _ _ intrudingDatagram_decodes
    rfl).1 requestedServer _ _ _ requestedServer_registered

section Accept

variable {client : Client} {address : SocketAddr} {id : ConnectionId}

/-- The peer that awaited at an address is connected under an id, and no other peer has moved. -/
structure ConnectsOnly (address : SocketAddr) (id : ConnectionId) (client next : Client) : Prop where
  peer : ∃ peer, next.connected.lookup id = some peer ∧ peer.address = address
  left : address ∉ next.awaitingConnectionAck
  connected : ∀ other, other ≠ id → next.connected.lookup other = client.connected.lookup other
  awaiting : ∀ other, other ≠ address →
    next.awaitingConnectionAck.lookup other = client.awaitingConnectionAck.lookup other
  requesting : next.requestingConnection = client.requestingConnection

theorem onConnectionAccepted_free {packet : Packet Received ConnectionAccepted}
    {waiting : Peer AwaitingConnectionAck} (time : Duration)
    (hrequesting : packet.delivery.metadata.address ∉ client.requestingConnection)
    (hfound : client.awaitingConnectionAck.lookup packet.delivery.metadata.address = some waiting)
    (hown : waiting.address = packet.delivery.metadata.address)
    (hfree : packet.message.connectionId ∉ client.connected) :
    ∃ next, client.onConnectionAccepted packet time = (.ok (), next) ∧
      ConnectsOnly packet.delivery.metadata.address packet.message.connectionId client next := by
  unfold Client.onConnectionAccepted
  simp only [hrequesting, hfree, or_self, if_false, hfound]
  refine ⟨_, rfl, ⟨_, Finmap.lookup_insert _, hown⟩, ?_, ?_, ?_, rfl⟩
  · exact fun hmem => (Finmap.mem_erase.mp hmem).1 rfl
  · exact fun other hne => Finmap.lookup_insert_of_ne _ hne
  · exact fun other hne => Finmap.lookup_erase_ne hne

theorem onConnectionAccepted_taken {packet : Packet Received ConnectionAccepted} (time : Duration)
    (htaken : packet.message.connectionId ∈ client.connected) :
    client.onConnectionAccepted packet time =
      (.error (.peerInAnotherState packet.delivery.metadata.address), client) := by
  unfold Client.onConnectionAccepted
  rw [if_pos (.inr htaken)]

theorem clientReceived_accept {crc32 : Crc32} {raw : RawPacket} {now : Duration}
    {packet : Packet Received ConnectionAccepted} (protocol : Protocol Client)
    (hdecode : (raw.innerDecode crc32 now).run = .ok (.ok (.connectionAccepted packet))) :
    protocol.clientReceived crc32 raw now =
      .ok ((protocol.service.onConnectionAccepted packet now).1,
        { protocol with service := (protocol.service.onConnectionAccepted packet now).2 }) := by
  unfold Protocol.clientReceived Client.onReceived RawPacket.decode
  rw [hdecode]
  rfl

/-- An accept from an address that awaits one connects its peer, and moves no other, unless the
client is connected under that id already: then it is refused, and changes nothing. -/
theorem accept_connects_unless_id_taken (crc32 : Crc32) (run : ClientRun)
    (h : (clientRuns crc32).Reachable run) (raw : RawPacket) (now : Duration)
    (packet : Packet Received ConnectionAccepted)
    (hdecode : (raw.innerDecode crc32 now).run = .ok (.ok (.connectionAccepted packet)))
    (hawaiting : packet.delivery.metadata.address ∈ run.net.antarc.service.awaitingConnectionAck) :
    (packet.message.connectionId ∉ run.net.antarc.service.connected →
      ∃ next, run.net.antarc.clientReceived crc32 raw now = .ok (.ok (), next) ∧
        ConnectsOnly packet.delivery.metadata.address packet.message.connectionId
          run.net.antarc.service next.service) ∧
    (packet.message.connectionId ∈ run.net.antarc.service.connected →
      run.net.antarc.clientReceived crc32 raw now =
        .ok (.error (.peerInAnotherState packet.delivery.metadata.address), run.net.antarc)) := by
  obtain ⟨numbering, -, -, -, side⟩ := books_of_reachable h
  rw [clientReceived_accept _ hdecode]
  constructor
  · intro hfree
    obtain ⟨waiting, hfound⟩ := (mem_iff_lookup _ _).mp hawaiting
    have hrequesting := fun hmem => side.table.disjoint _ hmem hawaiting
    obtain ⟨next, hnext, honly⟩ := onConnectionAccepted_free now hrequesting hfound
      (side.table.ownAwaiting _ _ hfound) hfree
    rw [hnext]
    exact ⟨_, rfl, honly⟩
  · intro htaken
    rw [onConnectionAccepted_taken now htaken]

/-- The first accept of the second server, which numbers its clients from 1 as the first does. -/
def secondAccept : Packet ToSend ConnectionAccepted :=
  ⟨⟨0, ⟨.zero, .v4 1 1⟩⟩, .one, 1, ⟨⟨connectionAccepted⟩, .one⟩⟩

def fromSecondServer (packet : Packet ToSend ConnectionAccepted) : RawPacket :=
  ⟨.v4 0 1, (packet.datagram ieeeCrc32).bytes⟩

theorem fromSecondServer_decodes (packet : Packet ToSend ConnectionAccepted)
    (hmetadata : packet.message.metadata = ⟨connectionAccepted⟩) :
    ((fromSecondServer packet).innerDecode ieeeCrc32 .zero).run =
      .ok (.ok (.connectionAccepted (Codec.arrived packet (.v4 0 1) .zero))) :=
  (Codec.roundTrips_connectionAccepted ieeeCrc32 packet (.v4 0 1) .zero hmetadata).1

/-- The accept of the second server is refused, and the client goes on awaiting it. -/
theorem secondAccept_refused :
    (clientRuns ieeeCrc32).Reachable twoServersRun ∧
      .v4 0 1 ∈ twoServersRun.net.antarc.service.awaitingConnectionAck ∧
      ((fromSecondServer secondAccept).innerDecode ieeeCrc32 .zero).run =
        .ok (.ok (.connectionAccepted (Codec.arrived secondAccept (.v4 0 1) .zero))) ∧
      twoServersRun.net.antarc.clientReceived ieeeCrc32 (fromSecondServer secondAccept) .zero =
        .ok (.error (.peerInAnotherState (.v4 0 1)), twoServersRun.net.antarc) := by
  have hdecode := fromSecondServer_decodes secondAccept rfl
  refine ⟨twoServersRun_reachable, Finmap.mem_insert.mpr (.inl rfl), hdecode, ?_⟩
  have htaken : secondAccept.message.connectionId ∈
      twoServersRun.net.antarc.service.connected := Finmap.mem_insert.mpr (.inl rfl)
  rw [clientReceived_accept _ hdecode, onConnectionAccepted_taken .zero htaken]
  rfl

/-- An accept of the second server under another id connects it. -/
theorem otherAccept_connects :
    ∃ next, twoServersRun.net.antarc.clientReceived ieeeCrc32
        (fromSecondServer { secondAccept with message := ⟨⟨connectionAccepted⟩, ⟨2, by decide⟩⟩ })
        .zero = .ok (.ok (), next) ∧
      ConnectsOnly (.v4 0 1) ⟨2, by decide⟩ twoServersRun.net.antarc.service next.service := by
  refine (accept_connects_unless_id_taken ieeeCrc32 twoServersRun twoServersRun_reachable _ .zero _
    (fromSecondServer_decodes _ rfl) (Finmap.mem_insert.mpr (.inl rfl))).1 ?_
  intro hmem
  rcases Finmap.mem_insert.mp hmem with hsame | hnone
  · exact absurd hsame (by decide)
  · exact Finmap.notMem_empty hnone

end Accept

end Antarc.Properties
