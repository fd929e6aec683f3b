import Antarc.Net.World
import Antarc.Properties.Arrival
import Antarc.Properties.Delivery
import Antarc.Properties.ServerBooks
import Antarc.Properties.Sequences

/-! The handshake agrees, and no sequence is acked that was not sent. The books of the
server and of every client are kept together: what each side promises of its peers is
said in the numbers that the other side has reached. Numbers only grow and an id keeps
its address, so when one side moves, the promises of the others stand. -/
namespace Antarc.Properties

open Library

/-- The server's peers are clients. An ack names a sequence that the client has passed. -/
def serverPolicy (host : SocketAddr) (clients : SocketAddr → Numbering SocketAddr PacketId) :
    Policy where
  peer address trackers := address ≠ host ∧
    trackers.remoteAck.toNat < (clients address).next host ∧
    trackers.localAck.toNat < trackers.sequence.get.toNat
  ack address ack := address ≠ host ∧ ack.toNat < (clients address).next host
  id _ _ := True
  stamp _ _ h := ⟨h.1, h.2.1⟩
  advance _ _ _ h hnext := ⟨h.1, h.2.1, by have := h.2.2; dsimp only; omega⟩

/-- The one peer of a client is the server, under an id that is the client's there. -/
def clientPolicy (host own : SocketAddr) (registry : Registry SocketAddr)
    (server : Numbering SocketAddr PacketId) : Policy where
  peer address trackers := address = host ∧
    trackers.remoteAck.toNat < server.next own ∧
    trackers.localAck.toNat < trackers.sequence.get.toNat
  ack address ack := address = host ∧ ack.toNat < server.next own
  id address id := address = host ∧ registry.holder id.get.toNat = some own
  stamp _ _ h := ⟨h.1, h.2.1⟩
  advance _ _ _ h hnext := ⟨h.1, h.2.1, by have := h.2.2; dsimp only; omega⟩

/-- All books are in order, and no party is in the middle of a packet. -/
structure Agrees (crc32 : Crc32) (host : SocketAddr) (registry : Registry SocketAddr)
    (server : Numbering SocketAddr PacketId) (clients : SocketAddr → Numbering SocketAddr PacketId)
    (world : World) : Prop where
  serverLedger : Ledger crc32 (serverPolicy host clients) server world.server
  serverSettled : Settled server
  serverSide : ServerSide registry [] world.server
  clientLedger : ∀ address, address ≠ host →
    Ledger crc32 (clientPolicy host address registry server) (clients address)
      (world.clients address)
  clientSettled : ∀ address, address ≠ host → Settled (clients address)
  clientSide : ∀ address, address ≠ host → ∃ asked, ClientSide asked [] (world.clients address)

section Steps

variable {crc32 : Crc32} {host : SocketAddr} {registry : Registry SocketAddr}
  {server : Numbering SocketAddr PacketId} {clients : SocketAddr → Numbering SocketAddr PacketId}
  {world : World}

theorem Agrees.serverBooks (agrees : Agrees crc32 host registry server clients world) :
    Books crc32 (serverPolicy host clients) server (ServerSide registry []) world.server :=
  ⟨server, agrees.serverLedger, agrees.serverSettled, .refl, agrees.serverSide⟩

theorem Agrees.clientBooks (agrees : Agrees crc32 host registry server clients world)
    {address : SocketAddr} (client : address ≠ host) :
    ∃ asked, Books crc32 (clientPolicy host address registry server) (clients address)
      (ClientSide asked []) (world.clients address) := by
  obtain ⟨asked, side⟩ := agrees.clientSide address client
  exact ⟨asked, clients address, agrees.clientLedger address client,
    agrees.clientSettled address client, .refl, side⟩

theorem Agrees.server_moves (agrees : Agrees crc32 host registry server clients world)
    {later : Registry SocketAddr} {net : AntarcNet Server} (hextends : registry.Extends later)
    (books : Books crc32 (serverPolicy host clients) server (ServerSide later []) net) :
    ∃ moved, Agrees crc32 host later moved clients { world with server := net } := by
  obtain ⟨moved, ledger, settled, hsteps, side⟩ := books
  refine ⟨moved, ledger, settled, side, ?_, agrees.clientSettled, agrees.clientSide⟩
  intro address client
  have hnext := Numbering.next_le_of_steps hsteps address
  refine (agrees.clientLedger address client).weaken ?_ ?_ ?_
  · exact fun _ _ h => ⟨h.1, h.2.1.trans_le hnext, h.2.2⟩
  · exact fun _ _ h => ⟨h.1, h.2.trans_le hnext⟩
  · exact fun _ _ h => ⟨h.1, hextends _ _ h.2⟩

theorem Agrees.client_moves (agrees : Agrees crc32 host registry server clients world)
    {address : SocketAddr} {net : AntarcNet Client}
    (books : ∃ asked, Books crc32 (clientPolicy host address registry server) (clients address)
      (ClientSide asked []) net) :
    ∃ moved, Agrees crc32 host registry server (Function.update clients address moved)
      (world.setClient address net) := by
  obtain ⟨asked, moved, ledger, settled, hsteps, side⟩ := books
  have hplaces : ∀ other, (other = address ∧ Function.update clients address moved other = moved ∧
      (world.setClient address net).clients other = net) ∨
      (Function.update clients address moved other = clients other ∧
        (world.setClient address net).clients other = world.clients other) := by
    intro other
    by_cases hother : other = address
    · subst hother
      exact .inl ⟨rfl, Function.update_self .., Function.update_self ..⟩
    · exact .inr ⟨Function.update_of_ne hother .., Function.update_of_ne hother ..⟩
  have hnext : ∀ other, (clients other).next host ≤
      (Function.update clients address moved other).next host := by
    intro other
    rcases hplaces other with ⟨rfl, hmoved, -⟩ | ⟨hsame, -⟩
    · rw [hmoved]
      exact Numbering.next_le_of_steps hsteps host
    · rw [hsame]
  refine ⟨moved, ?_, agrees.serverSettled, agrees.serverSide, ?_, ?_, ?_⟩
  · refine agrees.serverLedger.weaken ?_ ?_ fun _ _ h => h
    · exact fun other _ h => ⟨h.1, h.2.1.trans_le (hnext other), h.2.2⟩
    · exact fun other _ h => ⟨h.1, h.2.trans_le (hnext other)⟩
  · intro other client
    rcases hplaces other with ⟨rfl, hmoved, hnet⟩ | ⟨hsame, hnet⟩
    · rw [hmoved, hnet]
      exact ledger
    · rw [hsame, hnet]
      exact agrees.clientLedger other client
  · intro other client
    rcases hplaces other with ⟨rfl, hmoved, -⟩ | ⟨hsame, -⟩
    · rw [hmoved]
      exact settled
    · rw [hsame]
      exact agrees.clientSettled other client
  · intro other client
    rcases hplaces other with ⟨rfl, -, hnet⟩ | ⟨-, hnet⟩
    · rw [hnet]
      exact ⟨asked, side⟩
    · rw [hnet]
      exact agrees.clientSide other client

theorem receivedFrom_encoded {transmission : Transmission} (source : SocketAddr)
    (hraw : transmission.raw = datagramOf crc32 transmission.packet)
    (hwellFormed : (lineOf transmission.packet).body.WellFormed) :
    World.receivedFrom source transmission =
      ⟨source, (datagramOf crc32 transmission.packet).bytes⟩ := by
  have hlength := length_datagramOf crc32 hwellFormed
  have hfits : maxFragmentSize ≤ recvBufferSize := by decide
  rw [World.receivedFrom, hraw, List.take_of_length_le (hlength.trans hfits)]

theorem address_sent {S A B E : Type} [Service S A B E] {policy : Policy} {service : S}
    {transmission : Transmission} (h : SentOk crc32 policy service transmission) :
    transmission.raw.address = (lineOf transmission.packet).address := by
  rw [h.raw]
  exact (datagramOf_line transmission.packet).1

/-- What reaches a client was sent to it by the server, under a number the server has passed
and with an ack for one the client has. -/
theorem Agrees.clientMayHear (agrees : Agrees crc32 host registry server clients world)
    {address : SocketAddr} (client : address ≠ host) {raw : RawPacket}
    (arrives : World.InFlight host world address raw) {time : Duration}
    {decoded : DecodedForClient}
    (hdecode : raw.decode crc32 DecodedForClient.tryFrom time = .ok (.ok decoded)) :
    ClientMayHear (clientPolicy host address registry server)
      (world.clients address).antarc.service (forClientHeader decoded) := by
  cases arrives with
  | fromServer transmission sent addressed =>
    have hsent := agrees.serverLedger.sent transmission sent
    have haddress := (address_sent hsent).symm.trans addressed
    have hnumber := agrees.serverLedger.sent_lt agrees.serverSettled sent
    have hack := hsent.ack
    rw [receivedFrom_encoded _ hsent.raw hsent.wellFormed] at hdecode
    obtain ⟨hread, hconnection⟩ := client_takes hsent.wellFormed hdecode
    rw [haddress] at hnumber hack
    refine ⟨?_, hread.source, ?_⟩
    · intro other trackers hholds _
      have htrusted := (agrees.clientLedger address client).trusted other trackers hholds
      have hsequence := (agrees.clientLedger address client).sequences other trackers hholds
      refine ⟨htrusted.1, ?_, ?_⟩
      · simp only [trackersHearing, hread.sequence]
        exact hnumber
      · simp only [trackersHearing, hread.ack]
        rw [hsequence, htrusted.1]
        exact hack.2
    · have hregistered : addressOf world.server.antarc.service
          (forClientHeader decoded).connectionId = some address := by
        rcases hconnection with hid | ⟨message, hbody, hid⟩
        · rw [← haddress]
          exact addressOf_of_connectedAt (hsent.connection _ hid)
        · rw [← haddress, ← hid]
          exact agrees.serverSide.sent transmission sent message hbody
      rw [agrees.serverSide.table.holder]
      exact hregistered
  | fromClient other client' transmission sent addressed =>
    have hsent := (agrees.clientLedger other client').sent transmission sent
    have hhost := hsent.ack.1
    rw [← address_sent hsent, addressed] at hhost
    exact absurd hhost client

theorem Agrees.serverMayTake (agrees : Agrees crc32 host registry server clients world)
    {raw : RawPacket} (arrives : World.InFlight host world host raw) {time : Duration}
    {decoded : DecodedForServer}
    (hdecode : raw.decode crc32 DecodedForServer.tryFrom time = .ok (.ok decoded)) :
    ServerMayTake (serverPolicy host clients) world.server.antarc.service decoded := by
  cases arrives with
  | fromServer transmission sent addressed =>
    have hsent := agrees.serverLedger.sent transmission sent
    have hclient := hsent.ack.1
    rw [← address_sent hsent] at hclient
    exact absurd addressed hclient
  | fromClient source client transmission sent addressed =>
    have hsent := (agrees.clientLedger source client).sent transmission sent
    have haddress := (address_sent hsent).symm.trans addressed
    have hnumber := (agrees.clientLedger source client).sent_lt
      (agrees.clientSettled source client) sent
    have hack := hsent.ack
    rw [receivedFrom_encoded _ hsent.raw hsent.wellFormed] at hdecode
    rw [haddress] at hnumber hack
    refine ⟨?_, ?_⟩
    · intro header address trackers hheader hregistered hholds
      rcases server_takes hsent.wellFormed hdecode with
        ⟨header', hheader', hread, hconnection⟩ | ⟨request, hrequest, -⟩
      · cases hheader.symm.trans hheader'
        obtain ⟨-, hnamed⟩ := (agrees.clientLedger source client).named _ _
          (hsent.connection _ hconnection)
        rw [agrees.serverSide.table.holder, hregistered] at hnamed
        cases hnamed
        refine ⟨⟨client, ?_, ?_⟩, trivial⟩
        · simp only [trackersHearing, hread.sequence]
          exact hnumber
        · simp only [trackersHearing, hread.ack]
          rw [agrees.serverLedger.sequences _ _ hholds]
          exact hack.2
      · rw [hrequest] at hheader
        contradiction
    · rintro packet rfl
      rcases server_takes hsent.wellFormed hdecode with
        ⟨header, hheader, -⟩ | ⟨request, hrequest, hsource, hsequence⟩
      · contradiction
      · cases hrequest
        rw [hsource, hsequence]
        exact ⟨client, hnumber, Nat.zero_lt_one⟩

theorem Agrees.connects (agrees : Agrees crc32 host registry server clients world)
    {address : SocketAddr} (client : address ≠ host) {now : Duration} {result : Result Unit}
    {net : AntarcNet Client}
    (h : (world.clients address).connect host now = .ok (result, net)) :
    ∃ asked, Books crc32 (clientPolicy host address registry server) (clients address)
      (ClientSide asked []) net := by
  obtain ⟨asked, books⟩ := agrees.clientBooks client
  obtain ⟨⟨_, antarc⟩, hconnect, h⟩ := bind_eq_ok.mp h
  cases h
  have hfresh : (clientPolicy host address registry server).peer host (freshTrackers 0) :=
    ⟨rfl, Numbering.one_le_next agrees.serverLedger.run address, Nat.zero_lt_one⟩
  rcases books.connect hfresh (attempt_eq_ok.mp hconnect) with ⟨error, -, hsame⟩ | ⟨-, hbooks⟩
  · rw [hsame]
    exact ⟨asked, books⟩
  · exact ⟨_, hbooks⟩

theorem agrees_step {next : World} (agrees : Agrees crc32 host registry server clients world)
    (h : World.Step crc32 host world next) :
    ∃ registry server clients, Agrees crc32 host registry server clients next := by
  cases h with
  | connect address client now result net call =>
    exact ⟨registry, server, _, (agrees.client_moves (agrees.connects client call)).choose_spec⟩
  | clientCalled address client outcome call net returned =>
    obtain ⟨asked, books⟩ := agrees.clientBooks client
    have hbooks := books.carriedDrive (stable_clientSide crc32 _ asked []) call
    rw [returned] at hbooks
    exact ⟨registry, server, _, (agrees.client_moves ⟨asked, hbooks⟩).choose_spec⟩
  | clientSent address client clock net call =>
    obtain ⟨asked, books⟩ := agrees.clientBooks client
    have hbooks := preserves_clientSend clock _ books
    rw [call] at hbooks
    exact ⟨registry, server, _, (agrees.client_moves ⟨asked, hbooks⟩).choose_spec⟩
  | clientReceived address client raw arrives received elapsed events net call =>
    obtain ⟨asked, books⟩ := agrees.clientBooks client
    have hbooks := books.clientReceive received elapsed (some raw) (by
      rintro _ decoded ⟨⟩ hdecode
      exact agrees.clientMayHear client arrives hdecode)
    rw [call] at hbooks
    exact ⟨registry, server, _, (agrees.client_moves ⟨asked, hbooks⟩).choose_spec⟩
  | serverCalled outcome call net returned =>
    have hbooks := agrees.serverBooks.carriedDrive (stable_serverSide crc32 _ registry []) call
    rw [returned] at hbooks
    exact ⟨registry, _, clients, (agrees.server_moves (.refl registry) hbooks).choose_spec⟩
  | serverSent clock net call =>
    have hbooks := preserves_serverSend clock _ agrees.serverBooks
    rw [call] at hbooks
    exact ⟨registry, _, clients, (agrees.server_moves (.refl registry) hbooks).choose_spec⟩
  | serverReceived raw arrives hash peerHash received elapsed now events net call =>
    have hbooks := agrees.serverBooks.serverReceive hash peerHash received elapsed now (some raw) (by
      rintro _ decoded ⟨⟩ hdecode
      exact agrees.serverMayTake arrives hdecode)
    rw [call] at hbooks
    obtain ⟨later, hextends, hbooks⟩ := hbooks
    exact ⟨later, _, clients, (agrees.server_moves hextends hbooks).choose_spec⟩

theorem agrees_of_reachable (h : (worlds crc32 host).Reachable world) :
    ∃ registry server clients, Agrees crc32 host registry server clients world := by
  refine h.invariant
    (fun world => ∃ registry server clients, Agrees crc32 host registry server clients world) ?_ ?_
  · rintro _ ⟨reliableTtl, rfl⟩
    exact ⟨.empty, .start, fun _ => .start,
      { serverLedger := ledger_newServer crc32 _ host reliableTtl
        serverSettled := fun _ => rfl
        serverSide := serverSide_new host reliableTtl
        clientLedger := fun address _ => ledger_newClient crc32 _ address
        clientSettled := fun _ _ _ => rfl
        clientSide := fun address _ => ⟨[], clientSide_new address⟩ }⟩
  · rintro world next - ⟨registry, server, clients, agrees⟩ hstep
    exact agrees_step agrees hstep

end Steps

section Agreement

inductive ServerPeer (server : Server) (id : ConnectionId) : SocketAddr → Trackers → Prop where
  | awaiting (peer : Peer AwaitingConnectionAck)
      (found : server.awaitingConnectionAck.lookup id = some peer) :
      ServerPeer server id peer.address (trackersOf peer)
  | connected (peer : Peer Connected) (found : server.connected.lookup id = some peer) :
      ServerPeer server id peer.address (trackersOf peer)

/-- Nobody acks a sequence that was not sent: the trackers of the two ends of a connection. -/
structure AcksSafe (own other : Trackers) : Prop where
  ownLocal : own.localAck.toNat < own.sequence.get.toNat
  ownRemote : own.remoteAck.toNat < other.sequence.get.toNat
  otherLocal : other.localAck.toNat < other.sequence.get.toNat
  otherRemote : other.remoteAck.toNat < own.sequence.get.toNat

theorem ServerPeer.addressOf_eq {registry : Registry SocketAddr} {server : Server}
    (table : ServerTable registry server) {id : ConnectionId} {address : SocketAddr}
    {trackers : Trackers} (h : ServerPeer server id address trackers) :
    addressOf server id = some address ∧ Holds server address trackers := by
  cases h with
  | awaiting peer found =>
    exact ⟨table.addressOf_awaiting found, .inr ⟨id, peer, found, rfl, rfl⟩⟩
  | connected peer found =>
    exact ⟨ServerTable.addressOf_connected found, holds_of_connected found⟩

theorem serverPeer_of_addressOf {server : Server} {id : ConnectionId} {address : SocketAddr}
    (h : addressOf server id = some address) :
    ∃ trackers, ServerPeer server id address trackers := by
  rw [addressOf, Option.or_eq_some_iff] at h
  rcases h with h | ⟨-, h⟩
  · obtain ⟨peer, hfound, rfl⟩ := Option.map_eq_some_iff.mp h
    exact ⟨_, .connected peer hfound⟩
  · obtain ⟨peer, hfound, rfl⟩ := Option.map_eq_some_iff.mp h
    exact ⟨_, .awaiting peer hfound⟩

/-- In every state that a server and its clients reach over a network that does not forge: a
client that is connected under an id is the server's peer of that id and the only client
with it, and both ends have acked nothing but what was sent. -/
theorem handshake_agreement (crc32 : Crc32) (host : SocketAddr) (world : World)
    (h : (worlds crc32 host).Reachable world) (address : SocketAddr) (client : address ≠ host)
    (id : ConnectionId) (peer : Peer Connected)
    (hconnected : (world.clients address).antarc.service.connected.lookup id = some peer) :
    (∃ trackers, ServerPeer world.server.antarc.service id address trackers) ∧
      (∀ other, other ≠ host → other ≠ address →
        id ∉ (world.clients other).antarc.service.connected) ∧
      ∀ trackers, ServerPeer world.server.antarc.service id address trackers →
        AcksSafe (trackersOf peer) trackers := by
  obtain ⟨registry, server, clients, agrees⟩ := agrees_of_reachable h
  have table := agrees.serverSide.table
  have hnamed : ∀ other, other ≠ host → ∀ peer,
      (world.clients other).antarc.service.connected.lookup id = some peer →
      addressOf world.server.antarc.service id = some other := by
    intro other hother found hfound
    rw [← table.holder]
    exact ((agrees.clientLedger other hother).named id found.address ⟨found, hfound, rfl⟩).2
  have hregistered := hnamed address client peer hconnected
  refine ⟨serverPeer_of_addressOf hregistered, ?_, ?_⟩
  · intro other hother hne hmem
    obtain ⟨found, hfound⟩ := (mem_iff_lookup _ _).mp hmem
    have hsame := hregistered.symm.trans (hnamed other hother found hfound)
    exact hne (Option.some.inj hsame).symm
  · intro trackers hpeer
    obtain ⟨-, hholds⟩ := hpeer.addressOf_eq table
    have hown : Holds (world.clients address).antarc.service peer.address (trackersOf peer) :=
      holds_of_connected hconnected
    have ledger := agrees.clientLedger address client
    obtain ⟨hhost, hremote, hlocal⟩ := ledger.trusted _ _ hown
    obtain ⟨-, hremote', hlocal'⟩ := agrees.serverLedger.trusted _ _ hholds
    have hsequence := ledger.sequences _ _ hown
    have hsequence' := agrees.serverLedger.sequences _ _ hholds
    rw [hhost] at hsequence
    exact ⟨hlocal, hsequence' ▸ hremote, hlocal', hsequence ▸ hremote'⟩

end Agreement

section Greeting

def waitingClient : AntarcNet Client where
  antarc :=
    { packetIdTracker := 1
      service := { Client.new with
        awaitingConnectionAck := Finmap.insert (.v4 0 0) ⟨.two, 0, 0, .v4 0 0,
          ⟨⟨.zero, 0, .zero⟩, 0⟩⟩ ∅
        reliabilityHandler := .new ⟨[askedRequest.sent .zero (.fromSecs 2)]⟩ }
      reliableTtl := .fromSecs 2 }
  address := .v4 1 1
  socket := [⟨askedRequest.datagram ieeeCrc32, .connectionRequest askedRequest, true⟩]

def admittedServer : AntarcNet Server where
  antarc :=
    { packetIdTracker := 1
      service := admitting .new (Codec.arrived askedRequest (.v4 1 1) .zero) 0 .zero
        .two
      reliableTtl := .zero }
  address := .v4 0 0
  socket := []

def answeringServer : AntarcNet Server where
  antarc :=
    { packetIdTracker := 1
      service := { Server.new with
        connectionIdTracker := .two
        awaitingConnectionAck := Finmap.insert .one ⟨.two, 1, 0, .v4 1 1,
          ⟨⟨.zero, 0, .zero⟩, 0⟩⟩ ∅
        reliabilityHandler := .new ⟨[answeringAccept.sent .zero .zero]⟩ }
      reliableTtl := .zero }
  address := .v4 0 0
  socket := [⟨answeringAccept.datagram ieeeCrc32, .connectionAccepted answeringAccept, true⟩]

def greetedClient : AntarcNet Client where
  antarc :=
    { packetIdTracker := 1
      service := { Client.new with
        connected := Finmap.insert .one ⟨.two, 1, 1, .v4 0 0,
          ⟨⟨.zero, 0, .zero⟩, .one, .zero, ∅⟩⟩ ∅ }
      reliableTtl := .fromSecs 2 }
  address := .v4 1 1
  socket := [⟨askedRequest.datagram ieeeCrc32, .connectionRequest askedRequest, true⟩]

/-- A server and one client after their handshake. -/
def greetedWorld : World :=
  ⟨answeringServer, Function.update (fun address => .newClient address) (.v4 1 1) greetedClient⟩

theorem newServer_admits (hash : RandomState) (peerHash : ConnectionId → RandomState) :
    (AntarcNet.newServer (.v4 0 0) .zero).serverReceive ieeeCrc32 hash peerHash .zero .zero .zero
      (some (World.receivedFrom (.v4 1 1)
        ⟨askedRequest.datagram ieeeCrc32, .connectionRequest askedRequest, true⟩)) =
      .ok ([], admittedServer) := by
  have hdecode :=
    (Codec.roundTrips_connectionRequest ieeeCrc32 askedRequest (.v4 1 1) .zero rfl).2.1
  have hreceived : (Protocol.newServer .zero).serverReceived ieeeCrc32 hash
      ⟨.v4 1 1, (askedRequest.datagram ieeeCrc32).bytes⟩ .zero =
        .ok (.ok (), admittedServer.antarc) :=
    serverReceived_registers hdecode rfl (by decide) (by decide) rfl rfl
  have hpolled : admittedServer.antarc.serverPoll hash peerHash .zero .zero =
      .ok ([], admittedServer.antarc) := serverPoll_of_nobody rfl rfl
  have harrives : World.receivedFrom (.v4 1 1)
      ⟨askedRequest.datagram ieeeCrc32, .connectionRequest askedRequest, true⟩ =
        ⟨.v4 1 1, (askedRequest.datagram ieeeCrc32).bytes⟩ :=
    receivedFrom_encoded (.v4 1 1) rfl rfl
  rw [harrives]
  unfold AntarcNet.serverReceive
  simp only [AntarcNet.newServer, hreceived, AntarcNet.attempt, ok_bind,
    AntarcNet.report, hpolled]
  rfl

theorem waitingClient_connects :
    waitingClient.clientReceive ieeeCrc32 .zero .zero (some (fromServer answeringAccept)) =
      .ok ([], greetedClient) := by
  have hdecode :=
    (Codec.roundTrips_connectionAccepted ieeeCrc32 answeringAccept (.v4 0 0) .zero rfl).2.2
  unfold AntarcNet.clientReceive Protocol.clientReceived Client.onReceived fromServer
  simp only [hdecode, ok_bind]
  rfl

set_option maxRecDepth 8000 in
theorem askedRun_greeted :
    askedRun.net.clientPoll ieeeCrc32 (fun _ _ => .zero) (some (fromServer answeringAccept)) =
      .ok ([], greetedClient) :=
  bind_eq_ok.mpr ⟨waitingClient, rfl, waitingClient_connects⟩

set_option maxRecDepth 8000 in
theorem greetedWorld_reachable : (worlds ieeeCrc32 (.v4 0 0)).Reachable greetedWorld := by
  let hash := Classical.arbitrary RandomState
  let fresh : World := ⟨.newServer (.v4 0 0) .zero, fun address => .newClient address⟩
  let own : SocketAddr := .v4 1 1
  have hclient : own ≠ .v4 0 0 := by decide
  let asking := fresh.setClient own
    ⟨⟨1, connecting .new (.v4 0 0) 0 .zero, .fromSecs 2⟩, own, []⟩
  let waiting := asking.setClient own waitingClient
  let answered : World := { waiting with server := answeringServer }
  have hasking : (worlds ieeeCrc32 (.v4 0 0)).Reachable asking :=
    .next (.start ⟨.zero, rfl⟩) (.connect own hclient .zero (.ok ()) _ rfl)
  have hwaiting : (worlds ieeeCrc32 (.v4 0 0)).Reachable waiting :=
    hasking.next (.clientSent own hclient (fun _ _ => .zero) waitingClient rfl)
  have hadmitted : (worlds ieeeCrc32 (.v4 0 0)).Reachable { waiting with
      server := admittedServer } :=
    hwaiting.next (.serverReceived _
      (.fromClient own hclient _ (List.mem_singleton_self _) rfl) hash (fun _ => hash)
      .zero .zero .zero [] admittedServer (newServer_admits hash fun _ => hash))
  have hanswered : (worlds ieeeCrc32 (.v4 0 0)).Reachable answered :=
    hadmitted.next (.serverSent (fun _ _ => .zero) answeringServer rfl)
  have harrives : World.receivedFrom (.v4 0 0)
      ⟨answeringAccept.datagram ieeeCrc32, .connectionAccepted answeringAccept, true⟩ =
        fromServer answeringAccept := receivedFrom_encoded (.v4 0 0) rfl rfl
  have hgreeted : (worlds ieeeCrc32 (.v4 0 0)).Reachable (answered.setClient own greetedClient) :=
    hanswered.next (.clientReceived own hclient _
      (.fromServer _ (List.mem_singleton_self _) rfl) .zero .zero [] greetedClient
      (harrives ▸ waitingClient_connects))
  have hsame : answered.setClient own greetedClient = greetedWorld := by
    unfold greetedWorld World.setClient
    simp only [answered, waiting, asking, World.setClient, Function.update_idem, fresh, own]
  rwa [hsame] at hgreeted

/-- The server and the client agree on the connection that they have made. -/
theorem greetedWorld_agrees :
    (∃ trackers, ServerPeer greetedWorld.server.antarc.service ⟨1, by decide⟩ (.v4 1 1) trackers) ∧
      (∀ other, other ≠ .v4 0 0 → other ≠ .v4 1 1 →
        ⟨1, by decide⟩ ∉ (greetedWorld.clients other).antarc.service.connected) ∧
      ∀ trackers, ServerPeer greetedWorld.server.antarc.service ⟨1, by decide⟩ (.v4 1 1) trackers →
        AcksSafe ⟨⟨2, by decide⟩, 1, 1⟩ trackers :=
  handshake_agreement ieeeCrc32 (.v4 0 0) greetedWorld greetedWorld_reachable (.v4 1 1) (by decide)
    ⟨1, by decide⟩ ⟨⟨2, by decide⟩, 1, 1, .v4 0 0, ⟨⟨.zero, 0, .zero⟩, ⟨1, by decide⟩, .zero, ∅⟩⟩ rfl

end Greeting

end Antarc.Properties
