import Antarc.Properties.Connections
import Antarc.Properties.Deliveries

/-! Connections are mutual. A server connects a client only when it hears of it on that
connection, so a peer that is connected at the server is connected at the client, under the
same id, and it stays so at both ends. -/
namespace Antarc.Properties

open Library

section Server

variable {crc32 : Crc32} {registry : Registry SocketAddr} {server next : Server}
  {net after : AntarcNet Server} {id : ConnectionId} {address : SocketAddr}

theorem ServerHears.connectedAt_iff {header : Header} (h : ServerHears server header next) :
    ConnectedAt next id address ↔ ConnectedAt server id address ∨
      id = header.connectionId ∧ addressOf server id = some address := by
  cases h with
  | connected peer found reassembler events delivers =>
    have hsame : ConnectedAt
        { server with
          connected := server.connected.insert header.connectionId
            (hearing peer header reassembler)
          api := server.api ++ events } id address ↔ ConnectedAt server id address := by
      rw [connectedAt_iff, connectedAt_iff]
      exact Eq.congr_left
        (map_lookup_insert Peer.address (hearing peer header reassembler) found rfl id)
    rw [hsame]
    refine (or_iff_left_of_imp ?_).symm
    rintro ⟨rfl, haddress⟩
    rw [ServerTable.addressOf_connected found] at haddress
    exact ⟨peer, found, Option.some.inj haddress⟩
  | awaiting peer unconnected found time reassembler events delivers =>
    refine (connectedAt_insert unconnected rfl id address).trans ?_
    rw [or_comm]
    refine or_congr_right (and_congr_right ?_)
    rintro rfl
    rw [addressOf, unconnected, found]
    exact Option.some_inj.symm

theorem ServerTable.connectedAt_admits (table : ServerTable registry server)
    {packet : Packet Received ConnectionRequest} {packetId : PacketId} {time : Duration}
    (h : ServerAdmits server packet packetId time next) :
    ConnectedAt next id address ↔ ConnectedAt server id address := by
  rw [connectedAt_iff, connectedAt_iff,
    show (Service.core next).connected = (Service.core server).connected from (table.enrolls h).1]

theorem samePeers_work {protocol later : Protocol Server} {kept : Option Duration}
    (h : ServerWork protocol kept later) : SamePeers protocol.service later.service := by
  cases h with
  | common call =>
    cases call with
    | schedule hash reliability sendTo payload now result next call => exact samePeers_schedule call
    | heartbeat hash reliability sendTo now result next call => exact samePeers_heartbeat call
    | drain R M start stop drained next call => exact samePeers_drain call
    | sent M packet reliability now next call => exact samePeers_sent call
    | retry M now packet next call => exact samePeers_retry call
  | drainConnectionAccepted start stop drained next call =>
    exact samePeers_drainConnectionAccepted call
  | sentConnectionAccepted packet now next call => exact samePeers_sentConnectionAccepted call
  | retryConnectionAccepted now packet next call => exact samePeers_retryConnectionAccepted call
  | poll hash peerHash elapsed now events next call => exact samePeers_poll call

theorem samePeers_serverSend {clock : Clock} (h : net.serverSend crc32 clock = .ok after) :
    SamePeers net.antarc.service after.antarc.service :=
  (works_serverSend h).keeps
    (fun protocol => SamePeers net.antarc.service protocol.service)
    (fun _ _ _ hsame hwork => hsame.trans (samePeers_work hwork)) (.refl _)

theorem samePeers_serverCalled (h : CarriedDrive net (.ok after)) :
    SamePeers net.antarc.service after.antarc.service := by
  obtain ⟨⟨_, hwork⟩, -⟩ := works_carriedDrive (fun _ _ _ => ServerWork.common) h
  exact samePeers_work hwork

def ReadOn (crc32 : Crc32) (raw : RawPacket) (time : Duration) (id : ConnectionId) : Prop :=
  ∃ decoded header, raw.decode crc32 DecodedForServer.tryFrom time = .ok (.ok decoded) ∧
    forServerHeader decoded = some header ∧ header.connectionId = id

theorem serverReceive_hears {hash : RandomState} {peerHash : ConnectionId → RandomState}
    {received elapsed now : Duration} {raw : RawPacket} {events : List (ProtocolEvent ServerEvent)}
    (h : net.serverReceive crc32 hash peerHash received elapsed now (some raw) =
      .ok (events, after)) :
    ∃ (heard : Server) (outcome : Result Bool),
      net.antarc.service.onReceived crc32 hash raw net.antarc.packetIdTracker received =
        .ok (outcome, heard) ∧ SamePeers heard after.antarc.service := by
  obtain ⟨outcome, heard, hreceived, hpoll, -⟩ := serverReceive_calls h
  obtain ⟨answered, hcall, -⟩ := serverReceived_onReceived hreceived
  refine ⟨heard.service, answered, hcall, ?_⟩
  have hpolled := samePeers_poll hpoll
  cases outcome <;> exact ⟨hpolled.requesting, hpolled.tracker, hpolled.awaiting, hpolled.connected⟩

theorem connectedAt_serverReceive (table : ServerTable registry net.antarc.service)
    {hash : RandomState} {peerHash : ConnectionId → RandomState}
    {received elapsed now : Duration} {raw : RawPacket} {events : List (ProtocolEvent ServerEvent)}
    (h : net.serverReceive crc32 hash peerHash received elapsed now (some raw) =
      .ok (events, after)) :
    ConnectedAt after.antarc.service id address ↔
      ConnectedAt net.antarc.service id address ∨
        ReadOn crc32 raw received id ∧ addressOf net.antarc.service id = some address := by
  obtain ⟨heard, outcome, hcall, hpolled⟩ := serverReceive_hears h
  rw [hpolled.connectedAt id address]
  constructor
  · intro hat
    rcases server_onReceived_cases hcall with
      hsame | ⟨decoded, header, hdecode, hheader, -, hhears⟩ | ⟨packet, -, -, hadmits⟩
    · rw [hsame] at hat
      exact .inl hat
    · exact (hhears.connectedAt_iff.mp hat).imp_right fun ⟨hid, haddress⟩ =>
        ⟨⟨decoded, header, hdecode, hheader, hid.symm⟩, haddress⟩
    · exact .inl ((table.connectedAt_admits hadmits).mp hat)
  · rintro (hat | ⟨⟨decoded, header, hdecode, hheader, rfl⟩, haddress⟩)
    · rcases server_onReceived_cases hcall with
        hsame | ⟨decoded, header, -, -, -, hhears⟩ | ⟨packet, -, -, hadmits⟩
      · rwa [hsame]
      · exact hhears.connectedAt hat
      · exact (table.connectedAt_admits hadmits).mpr hat
    · have hknown : header.connectionId ∈ net.antarc.service.connected ∨
          header.connectionId ∈ net.antarc.service.awaitingConnectionAck := by
        obtain ⟨_, hpeer⟩ := serverPeer_of_addressOf haddress
        cases hpeer with
        | awaiting peer found => exact .inr (Finmap.mem_of_lookup_eq_some found)
        | connected peer found => exact .inl (Finmap.mem_of_lookup_eq_some found)
      obtain ⟨-, hhears⟩ := server_onReceived_hears hdecode hheader hknown hcall
      exact hhears.connectedAt_iff.mpr (.inr ⟨rfl, haddress⟩)

end Server

section Worlds

variable {crc32 : Crc32} {host : SocketAddr} {world : World} {registry : Registry SocketAddr}
  {server : Numbering SocketAddr PacketId} {clients : SocketAddr → Numbering SocketAddr PacketId}

/-- The client at an address has sent something to the server on a connection. -/
def SpeaksOn (host : SocketAddr) (world : World) (id : ConnectionId) (address : SocketAddr) :
    Prop :=
  ∃ transmission ∈ (world.clients address).socket,
    (lineOf transmission.packet).address = host ∧
      (lineOf transmission.packet).body.connection = some id

theorem SpeaksOn.connected (agrees : Agrees crc32 host registry server clients world)
    {id : ConnectionId} {address : SocketAddr} (client : address ≠ host)
    (h : SpeaksOn host world id address) :
    ConnectedAt (world.clients address).antarc.service id host := by
  obtain ⟨transmission, hmem, rfl, hconnection⟩ := h
  exact ((agrees.clientLedger address client).sent transmission hmem).connection id hconnection

/-- Whoever is connected at the server has spoken. -/
def Spoken (host : SocketAddr) (world : World) : Prop :=
  ∀ id address, ConnectedAt world.server.antarc.service id address →
    address ≠ host ∧ SpeaksOn host world id address

theorem Spoken.client_moves (h : Spoken host world) {address : SocketAddr} {net : AntarcNet Client}
    (hgrows : (world.clients address).socket <+: net.socket) :
    Spoken host (world.setClient address net) := by
  intro id other hat
  obtain ⟨client, transmission, hmem, hspoken⟩ := h id other hat
  refine ⟨client, transmission, ?_, hspoken⟩
  rcases clients_setClient world address net other with ⟨rfl, hclient⟩ | hclient
  · rw [hclient]
    exact hgrows.subset hmem
  · rwa [hclient]

theorem Spoken.server_moves (h : Spoken host world) {net : AntarcNet Server}
    (hconnected : ∀ id address, ConnectedAt net.antarc.service id address →
      ConnectedAt world.server.antarc.service id address ∨
        address ≠ host ∧ SpeaksOn host world id address) :
    Spoken host { world with server := net } :=
  fun id address hat => (hconnected id address hat).elim (h id address) fun hspoken => hspoken

theorem Agrees.speaks (agrees : Agrees crc32 host registry server clients world)
    {raw : RawPacket} (arrives : World.InFlight host world host raw) {time : Duration}
    {id : ConnectionId} {address : SocketAddr} (hread : ReadOn crc32 raw time id)
    (hregistered : addressOf world.server.antarc.service id = some address) :
    address ≠ host ∧ SpeaksOn host world id address := by
  obtain ⟨decoded, header, hdecode, hheader, rfl⟩ := hread
  obtain ⟨source, client, transmission, hmem, haddress, hwellFormed, rfl⟩ :=
    agrees.reaches_server arrives
  rcases server_takes hwellFormed hdecode with
    ⟨_, hheader', -, hconnection⟩ | ⟨request, rfl, -⟩
  · cases hheader.symm.trans hheader'
    have ledger := agrees.clientLedger source client
    obtain ⟨-, hnamed⟩ :=
      ledger.named _ _ ((ledger.sent transmission hmem).connection _ hconnection)
    rw [agrees.serverSide.table.holder, hregistered] at hnamed
    cases hnamed
    exact ⟨client, transmission, hmem, haddress, hconnection⟩
  · contradiction

/-- The step lemma. A server connects whom it hears, and it hears a client on a connection
only once that client has spoken there. -/
theorem spoken_step {next : World} (agrees : Agrees crc32 host registry server clients world)
    (h : Spoken host world) (hstep : World.Step crc32 host world next) : Spoken host next := by
  cases hstep with
  | connect address client now result net call =>
    exact h.client_moves ((works_connect call).2 ▸ List.prefix_rfl)
  | clientCalled address client outcome call net returned =>
    rw [returned] at call
    obtain ⟨-, hsocket⟩ := works_carriedDrive (fun _ _ _ => ClientWork.common) call
    exact h.client_moves (hsocket ▸ List.prefix_rfl)
  | clientSent address client clock net call => exact h.client_moves (grows_clientSend call)
  | clientReceived address client raw arrives received elapsed events net call =>
    obtain ⟨-, -, -, -, hsocket⟩ := clientReceive_calls call
    exact h.client_moves (hsocket ▸ List.prefix_rfl)
  | serverCalled outcome call net returned =>
    rw [returned] at call
    exact h.server_moves fun _ _ hat => .inl (((samePeers_serverCalled call).connectedAt _ _).mp hat)
  | serverSent clock net call =>
    exact h.server_moves fun _ _ hat => .inl (((samePeers_serverSend call).connectedAt _ _).mp hat)
  | serverReceived raw arrives hash peerHash received elapsed now events net call =>
    exact h.server_moves fun id address hat =>
      ((connectedAt_serverReceive agrees.serverSide.table call).mp hat).imp_right
        fun ⟨hread, hregistered⟩ => agrees.speaks arrives hread hregistered

theorem spoken_of_reachable (h : (worlds crc32 host).Reachable world) : Spoken host world := by
  refine h.invariant (Spoken host) ?_ fun _ _ hreachable hspoken hstep => ?_
  · rintro _ ⟨reliableTtl, rfl⟩ id address ⟨peer, hfound, -⟩
    exact absurd hfound (by simp [AntarcNet.newServer, Protocol.newServer, Server.new,
      Service.core])
  · obtain ⟨registry, server, clients, agrees⟩ := agrees_of_reachable hreachable
    exact spoken_step agrees hspoken hstep

theorem connectedAt_step {next : World} (agrees : Agrees crc32 host registry server clients world)
    (hstep : World.Step crc32 host world next) {id : ConnectionId} {address : SocketAddr}
    (hat : ConnectedAt world.server.antarc.service id address) :
    ConnectedAt next.server.antarc.service id address := by
  cases hstep with
  | connect address client now result net call => exact hat
  | clientCalled address client outcome call net returned => exact hat
  | clientSent address client clock net call => exact hat
  | clientReceived address client raw arrives received elapsed events net call => exact hat
  | serverCalled outcome call net returned =>
    rw [returned] at call
    exact ((samePeers_serverCalled call).connectedAt id address).mpr hat
  | serverSent clock net call => exact ((samePeers_serverSend call).connectedAt id address).mpr hat
  | serverReceived raw arrives hash peerHash received elapsed now events net call =>
    exact (connectedAt_serverReceive agrees.serverSide.table call).mpr (.inl hat)

/-- In every state that a server and its clients reach over a network that does not forge: a
peer that is connected at the server is a client that is connected to the server under the
same id, and from then on both are for good. -/
theorem connections_are_mutual (crc32 : Crc32) (host : SocketAddr) (world later : World)
    (h : (worlds crc32 host).Reachable world) (hsteps : (worlds crc32 host).Steps world later)
    (id : ConnectionId) (address : SocketAddr)
    (hconnected : ConnectedAt world.server.antarc.service id address) :
    address ≠ host ∧ ConnectedAt later.server.antarc.service id address ∧
      ConnectedAt (later.clients address).antarc.service id host := by
  have hstays : (worlds crc32 host).Reachable later ∧
      ConnectedAt later.server.antarc.service id address := by
    induction hsteps with
    | refl => exact ⟨h, hconnected⟩
    | tail _ hstep ih =>
      obtain ⟨hreachable, hat⟩ := ih
      obtain ⟨registry, server, clients, agrees⟩ := agrees_of_reachable hreachable
      exact ⟨hreachable.next hstep, connectedAt_step agrees hstep hat⟩
  obtain ⟨hreachable, hat⟩ := hstays
  obtain ⟨client, hspeaks⟩ := spoken_of_reachable hreachable id address hat
  obtain ⟨registry, server, clients, agrees⟩ := agrees_of_reachable hreachable
  exact ⟨client, hat, hspeaks.connected agrees client⟩

/-- The client that has sent the greeting and the server that has heard it are connected. -/
theorem greeting_connects : ∃ world, (worlds ieeeCrc32 (.v4 0 0)).Reachable world ∧
    SocketAddr.v4 1 1 ≠ .v4 0 0 ∧ ConnectedAt world.server.antarc.service .one (.v4 1 1) ∧
      ConnectedAt (world.clients (.v4 1 1)).antarc.service .one (.v4 0 0) := by
  let hash := Classical.arbitrary RandomState
  obtain ⟨world, hworld, hserver, harrives⟩ := greeting_in_flight
  obtain ⟨net, hreceived⟩ := answeringServer_receives hash fun _ => hash
  rw [← hserver] at hreceived
  obtain ⟨registry, server, clients, agrees⟩ := agrees_of_reachable hworld
  have hread : ReadOn ieeeCrc32 (World.receivedFrom (.v4 1 1) greetingTransmission) .zero .one := by
    rw [show World.receivedFrom (.v4 1 1) greetingTransmission =
      ⟨.v4 1 1, (greetingTransfer.datagram ieeeCrc32).bytes⟩ from
        receivedFrom_encoded (.v4 1 1) rfl ⟨rfl, by decide⟩]
    exact ⟨_, _, (Codec.roundTrips_dataTransfer ieeeCrc32 greetingTransfer (.v4 1 1) .zero rfl).2.1,
      rfl, rfl⟩
  have hconnected := (connectedAt_serverReceive agrees.serverSide.table hreceived).mpr
    (.inr ⟨hread, show addressOf world.server.antarc.service .one = some (.v4 1 1) by
      rw [hserver]
      rfl⟩)
  have hnext := hworld.next
    (.serverReceived _ harrives hash (fun _ => hash) .zero .zero .zero _ net hreceived)
  exact ⟨_, hnext, connections_are_mutual ieeeCrc32 (.v4 0 0) _ _ hnext .refl .one (.v4 1 1)
    hconnected⟩

end Worlds

end Antarc.Properties
