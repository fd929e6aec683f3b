import Antarc.Library.Concatenation
import Antarc.Properties.Agreement
import Antarc.Properties.Handing

/-! Every payload that is handed over was sent, to where it is handed over and by the other end
of the connection it is handed over on. What waits in a reassembler was sent when it came in,
and what has been sent stays sent, whoever acts in between. -/
namespace Antarc.Properties

open Library

section Origins

variable {M : Type} [Sendable M] {socket later : List Transmission} {destination : SocketAddr}
  {packet : Packet Received M}

def Origin (socket : List Transmission) (destination : SocketAddr) (packet : Packet Received M) :
    Prop :=
  ∃ transmission ∈ socket, ∃ sent : Packet ToSend M,
    transmission.packet = Sendable.outgoing sent ∧
    sent.delivery.metadata.address = destination ∧
    packet.sequence = sent.sequence ∧ packet.message = sent.message

theorem Origin.mono (h : Origin socket destination packet) (hgrows : socket <+: later) :
    Origin later destination packet := by
  obtain ⟨transmission, hmem, hsent⟩ := h
  exact ⟨transmission, hgrows.subset hmem, hsent⟩

end Origins

section Reading

def arrivedTransfers (source : SocketAddr) (time : Duration) :
    Outgoing → List (Packet Received DataTransfer)
  | .dataTransfer packet => [Codec.arrived packet source time]
  | _ => []

def arrivedFragments (source : SocketAddr) (time : Duration) :
    Outgoing → List (Packet Received Fragment)
  | .fragment packet => [Codec.arrived packet source time]
  | _ => []

theorem server_reads (crc32 : Crc32) (source : SocketAddr) (time : Duration) {packet : Outgoing}
    (h : (lineOf packet).body.WellFormed) :
    transferAtServer crc32 ⟨source, (datagramOf crc32 packet).bytes⟩ time =
        arrivedTransfers source time packet ∧
      readAtServer crc32 ⟨source, (datagramOf crc32 packet).bytes⟩ time =
        arrivedFragments source time packet := by
  unfold transferAtServer readAtServer
  cases packet with
  | connectionRequest packet =>
    simp only [datagramOf, (Codec.roundTrips_connectionRequest crc32 packet source time h).2.1]
    exact ⟨rfl, rfl⟩
  | connectionAccepted packet =>
    simp only [datagramOf, (Codec.roundTrips_connectionAccepted crc32 packet source time h).2.1]
    exact ⟨rfl, rfl⟩
  | dataTransfer packet =>
    simp only [datagramOf, (Codec.roundTrips_dataTransfer crc32 packet source time h.1).2.1]
    exact ⟨rfl, rfl⟩
  | fragment packet =>
    simp only [datagramOf, (Codec.roundTrips_fragment crc32 packet source time h.1).2.1]
    exact ⟨rfl, rfl⟩
  | heartbeat packet =>
    simp only [datagramOf, (Codec.roundTrips_heartbeat crc32 packet source time h).2.1]
    exact ⟨rfl, rfl⟩

theorem client_reads (crc32 : Crc32) (source : SocketAddr) (time : Duration) {packet : Outgoing}
    (h : (lineOf packet).body.WellFormed) :
    transferAtClient crc32 ⟨source, (datagramOf crc32 packet).bytes⟩ time =
        arrivedTransfers source time packet ∧
      readAtClient crc32 ⟨source, (datagramOf crc32 packet).bytes⟩ time =
        arrivedFragments source time packet := by
  unfold transferAtClient readAtClient
  cases packet with
  | connectionRequest packet =>
    simp only [datagramOf, (Codec.roundTrips_connectionRequest crc32 packet source time h).2.2]
    exact ⟨rfl, rfl⟩
  | connectionAccepted packet =>
    simp only [datagramOf, (Codec.roundTrips_connectionAccepted crc32 packet source time h).2.2]
    exact ⟨rfl, rfl⟩
  | dataTransfer packet =>
    simp only [datagramOf, (Codec.roundTrips_dataTransfer crc32 packet source time h.1).2.2]
    exact ⟨rfl, rfl⟩
  | fragment packet =>
    simp only [datagramOf, (Codec.roundTrips_fragment crc32 packet source time h.1).2.2]
    exact ⟨rfl, rfl⟩
  | heartbeat packet =>
    simp only [datagramOf, (Codec.roundTrips_heartbeat crc32 packet source time h).2.2]
    exact ⟨rfl, rfl⟩

variable {source : SocketAddr} {time : Duration} {socket : List Transmission}
  {transmission : Transmission}

theorem origin_transfer (hmem : transmission ∈ socket) :
    ∀ packet ∈ arrivedTransfers source time transmission.packet,
      Origin socket (lineOf transmission.packet).address packet := by
  intro packet hread
  rcases hpacket : transmission.packet with sent | sent | sent | sent | sent <;>
    rw [hpacket] at hread
  case dataTransfer =>
    rw [List.mem_singleton.mp hread]
    exact ⟨transmission, hmem, sent, hpacket, rfl, rfl, rfl⟩
  all_goals contradiction

theorem origin_fragment (hmem : transmission ∈ socket) :
    ∀ packet ∈ arrivedFragments source time transmission.packet,
      Origin socket (lineOf transmission.packet).address packet := by
  intro packet hread
  rcases hpacket : transmission.packet with sent | sent | sent | sent | sent <;>
    rw [hpacket] at hread
  case fragment =>
    rw [List.mem_singleton.mp hread]
    exact ⟨transmission, hmem, sent, hpacket, rfl, rfl, rfl⟩
  all_goals contradiction

end Reading

section Sending

variable {S A B E : Type} [Service S A B E]

structure Withholds (before after : AntarcNet S) : Prop where
  groups : KeepsGroups before.antarc.core.connected after.antarc.core.connected
  api : before.antarc.core.api = [] → after.antarc.core.api = []
  socket : before.socket <+: after.socket

theorem api_common [PromotesPeer S] {protocol next : Protocol S} {kept : Option Duration}
    (h : CommonWork protocol kept next) : next.core.api = protocol.core.api := by
  cases h with
  | schedule hash reliability sendTo payload now result next call =>
    rcases schedule_cases call with ⟨_, -, rfl⟩ | ⟨_, _, -, -, -, -, rfl⟩
    · rfl
    · simp only [Protocol.core, Protocol.setCore, Service.core_setCore]
  | heartbeat hash reliability sendTo now result next call =>
    rcases heartbeat_cases call with ⟨_, -, rfl⟩ | ⟨_, _, -, -, -, -, rfl⟩
    · rfl
    · simp only [Protocol.core, Protocol.setCore, Service.core_setCore]
  | drain R M start stop drained next call =>
    obtain ⟨_, rfl⟩ := drain_frame call
    simp only [Protocol.core, Protocol.setCore, Service.core_setCore]
  | sent M packet reliability now next call =>
    obtain ⟨completes, core, -, hcore, rfl⟩ := sent_frame call
    obtain ⟨advanced, rfl⟩ := advanced_frame hcore
    obtain ⟨connected, hpromoted⟩ := PromotesPeer.frame protocol.service
      packet.delivery.metadata.address (Carried.connectionId packet.message) now
    simp only [Protocol.core, Service.core_setCore, hpromoted]
  | retry M now packet next call =>
    obtain ⟨_, -, rfl⟩ := retry_frame call
    simp only [Protocol.core, Protocol.setCore, Service.core_setCore]

theorem api_client {protocol next : Protocol Client} {kept : Option Duration}
    (h : ClientWork protocol kept next) (hidle : protocol.core.api = []) : next.core.api = [] := by
  cases h with
  | common call => exact (api_common call).trans hidle
  | connect address now result next call =>
    rcases connect_cases call with ⟨_, -, rfl⟩ | ⟨_, -, -, -, rfl⟩
    · exact hidle
    · exact hidle
  | drainConnectionRequest start stop drained next call =>
    obtain ⟨_, -, rfl⟩ := drainConnectionRequest_frame call
    exact hidle
  | sentConnectionRequest packet now next call =>
    obtain ⟨_, _, -, -, rfl⟩ := sentConnectionRequest_frame call
    exact hidle
  | resendConnectionRequest now packet next call =>
    obtain ⟨_, -, rfl⟩ := resend_frame call
    exact hidle
  | poll elapsed events next call =>
    obtain ⟨_, -, -, rfl⟩ := clientPoll_frame call
    rfl

theorem api_server {protocol next : Protocol Server} {kept : Option Duration}
    (h : ServerWork protocol kept next) (hidle : protocol.core.api = []) : next.core.api = [] := by
  cases h with
  | common call => exact (api_common call).trans hidle
  | drainConnectionAccepted start stop drained next call =>
    obtain ⟨_, -, rfl⟩ := drainConnectionAccepted_frame call
    exact hidle
  | sentConnectionAccepted packet now next call =>
    obtain ⟨_, -, rfl⟩ := sentConnectionAccepted_frame call
    exact hidle
  | retryConnectionAccepted now packet next call =>
    obtain ⟨_, -, rfl⟩ := retryConnectionAccepted_frame call
    exact hidle
  | poll hash peerHash elapsed now events next call =>
    obtain ⟨_, _, -, -, -, rfl⟩ := serverPoll_frame call
    rfl

theorem Withholds.of_works {work : Protocol S → Option Duration → Protocol S → Prop}
    (hgroups : ∀ {before kept after}, work before kept after →
      KeepsGroups before.core.connected after.core.connected)
    (hapi : ∀ {before kept after}, work before kept after →
      before.core.api = [] → after.core.api = []) {before after : AntarcNet S}
    (h : Works work before.antarc after.antarc) (hsocket : before.socket <+: after.socket) :
    Withholds before after where
  groups := h.keeps (fun protocol => KeepsGroups before.antarc.core.connected
    protocol.core.connected) (fun _ _ _ hkept hwork => hkept.trans (hgroups hwork)) (.refl _)
  api := h.keeps (fun protocol => before.antarc.core.api = [] → protocol.core.api = [])
    (fun _ _ _ hkept hwork hidle => hapi hwork (hkept hidle)) id
  socket := hsocket

theorem withholds_carriedDrive [PromotesPeer S] [PromotesEmpty S] {net after : AntarcNet S}
    (h : CarriedDrive net (.ok after)) : Withholds net after := by
  have hcommon : ∀ before kept after, CommonWork (S := S) before kept after →
      CommonWork before kept after := fun _ _ _ => id
  obtain ⟨⟨_, hwork⟩, hsocket⟩ := works_carriedDrive hcommon h
  exact ⟨keepsGroups_common hwork, fun hidle => (api_common hwork).trans hidle,
    hsocket ▸ List.prefix_rfl⟩

variable {crc32 : Crc32}

theorem withholds_connect {net after : AntarcNet Client} {address : SocketAddr} {now : Duration}
    {result : Result Unit} (h : net.connect address now = .ok (result, after)) :
    Withholds net after := by
  obtain ⟨hwork, hsocket⟩ := works_connect h
  exact ⟨keepsGroups_client hwork, api_client hwork, hsocket ▸ List.prefix_rfl⟩

theorem withholds_clientSend {net after : AntarcNet Client} {clock : Clock}
    (h : net.clientSend crc32 clock = .ok after) : Withholds net after :=
  .of_works keepsGroups_client api_client (works_clientSend h) (grows_clientSend h)

theorem withholds_serverSend {net after : AntarcNet Server} {clock : Clock}
    (h : net.serverSend crc32 clock = .ok after) : Withholds net after :=
  .of_works keepsGroups_server api_server (works_serverSend h) (grows_serverSend h)

end Sending

section Receiving

variable {crc32 : Crc32} {raw : RawPacket} {received elapsed : Duration}
  {known : Packet Received Fragment → Prop}

theorem report_core {S A B E : Type} [Service S A B E] (outcome : Result Unit) (net : AntarcNet S) :
    ∃ errors : List ProtocolError, (AntarcNet.report outcome net).antarc.core =
      { net.antarc.core with api := net.antarc.core.api ++ errors.map .fail } := by
  cases outcome with
  | ok =>
    refine ⟨[], ?_⟩
    simp only [AntarcNet.report, List.map_nil, List.append_nil]
  | error error =>
    refine ⟨[error], ?_⟩
    simp only [AntarcNet.report, Protocol.core, Protocol.setCore, Service.core_setCore]
    rfl

theorem Pushes.reported {E : Type} {may : ConnectionId → Payload → Prop}
    {before after events : List (ProtocolEvent E)} {errors : List ProtocolError}
    (h : Pushes may before after) (hidle : before = [])
    (hevents : events = after ++ errors.map .fail) :
    ∀ id payload, .dataTransfer id payload ∈ events → may id payload := by
  obtain ⟨pushed, rfl, hmay⟩ := h
  intro id payload hmem
  rw [hevents, hidle, List.nil_append] at hmem
  rcases List.mem_append.mp hmem with hmem | hmem
  · exact hmay id payload hmem
  · simp at hmem

theorem clientReceive_hands {net after : AntarcNet Client}
    {events : List (ProtocolEvent ClientEvent)} (hholds : HoldsOnly known net.antarc.core.connected)
    (hidle : net.antarc.core.api = [])
    (hread : ∀ fragment ∈ readAtClient crc32 raw received, known fragment)
    (h : net.clientReceive crc32 received elapsed (some raw) = .ok (events, after)) :
    HoldsOnly known after.antarc.core.connected ∧ after.antarc.core.api = [] ∧
      after.socket = net.socket ∧ ∀ id payload, .dataTransfer id payload ∈ events →
        Hands known (transferAtClient crc32 raw received) (readAtClient crc32 raw received)
          id payload := by
  obtain ⟨outcome, heard, hreceived, hpoll, hsocket⟩ := clientReceive_calls h
  obtain ⟨hheard, hpushes⟩ := client_hands hholds hread ⟨outcome, hreceived⟩
  obtain ⟨errors, hreported⟩ := report_core outcome { net with antarc := heard }
  obtain ⟨handler, -, hevents, hpolled⟩ := clientPoll_frame hpoll
  have hconnected := congrArg ServiceCore.connected hreported
  have hapi := congrArg ServiceCore.api hreported
  rw [hpolled]
  refine ⟨?_, rfl, hsocket, hpushes.reported hidle (hevents.trans hapi)⟩
  change HoldsOnly known
    (AntarcNet.report outcome { net with antarc := heard }).antarc.core.connected
  rw [hconnected]
  exact hheard

theorem serverReceive_hands {net after : AntarcNet Server} {hash : RandomState}
    {peerHash : ConnectionId → RandomState} {now : Duration}
    {events : List (ProtocolEvent ServerEvent)} (hholds : HoldsOnly known net.antarc.core.connected)
    (hidle : net.antarc.core.api = [])
    (hread : ∀ fragment ∈ readAtServer crc32 raw received, known fragment)
    (h : net.serverReceive crc32 hash peerHash received elapsed now (some raw) =
      .ok (events, after)) :
    HoldsOnly known after.antarc.core.connected ∧ after.antarc.core.api = [] ∧
      after.socket = net.socket ∧ ∀ id payload, .dataTransfer id payload ∈ events →
        Hands known (transferAtServer crc32 raw received) (readAtServer crc32 raw received)
          id payload := by
  obtain ⟨outcome, heard, hreceived, hpoll, hsocket⟩ := serverReceive_calls h
  obtain ⟨hheard, hpushes⟩ := server_hands hholds hread ⟨hash, outcome, hreceived⟩
  obtain ⟨errors, hreported⟩ := report_core outcome { net with antarc := heard }
  obtain ⟨handler, connected, -, -, hevents, hpolled⟩ := serverPoll_frame hpoll
  have hkept := keepsGroups_server (.poll hash peerHash elapsed now events _ hpoll)
  have hconnected := congrArg ServiceCore.connected hreported
  have hapi := congrArg ServiceCore.api hreported
  refine ⟨?_, congrArg (fun protocol : Protocol Server => protocol.core.api) hpolled, hsocket,
    hpushes.reported hidle (hevents.trans hapi)⟩
  rw [hconnected] at hkept
  exact hheard.of_keeps hkept

end Receiving

section Worlds

variable {crc32 : Crc32} {host : SocketAddr} {registry : Registry SocketAddr}
  {server : Numbering SocketAddr PacketId} {clients : SocketAddr → Numbering SocketAddr PacketId}
  {world : World}

theorem Agrees.reaches_client (agrees : Agrees crc32 host registry server clients world)
    {address : SocketAddr} (client : address ≠ host) {raw : RawPacket}
    (arrives : World.InFlight host world address raw) :
    ∃ transmission ∈ world.server.socket, (lineOf transmission.packet).address = address ∧
      (lineOf transmission.packet).body.WellFormed ∧
      raw = ⟨host, (datagramOf crc32 transmission.packet).bytes⟩ := by
  cases arrives with
  | fromServer transmission sent addressed =>
    have hsent := agrees.serverLedger.sent transmission sent
    exact ⟨transmission, sent, (address_sent hsent).symm.trans addressed, hsent.wellFormed,
      receivedFrom_encoded _ hsent.raw hsent.wellFormed⟩
  | fromClient other client' transmission sent addressed =>
    have hsent := (agrees.clientLedger other client').sent transmission sent
    have hhost := hsent.ack.1
    rw [← address_sent hsent, addressed] at hhost
    exact absurd hhost client

theorem Agrees.reaches_server (agrees : Agrees crc32 host registry server clients world)
    {raw : RawPacket} (arrives : World.InFlight host world host raw) :
    ∃ source, source ≠ host ∧ ∃ transmission ∈ (world.clients source).socket,
      (lineOf transmission.packet).address = host ∧
      (lineOf transmission.packet).body.WellFormed ∧
      raw = ⟨source, (datagramOf crc32 transmission.packet).bytes⟩ := by
  cases arrives with
  | fromServer transmission sent addressed =>
    have hsent := agrees.serverLedger.sent transmission sent
    have hclient := hsent.ack.1
    rw [← address_sent hsent] at hclient
    exact absurd addressed hclient
  | fromClient source client transmission sent addressed =>
    have hsent := (agrees.clientLedger source client).sent transmission sent
    exact ⟨source, client, transmission, sent, (address_sent hsent).symm.trans addressed,
      hsent.wellFormed, receivedFrom_encoded _ hsent.raw hsent.wellFormed⟩

theorem Agrees.client_origins (agrees : Agrees crc32 host registry server clients world)
    {address : SocketAddr} (client : address ≠ host) {raw : RawPacket}
    (arrives : World.InFlight host world address raw) (time : Duration) :
    (∀ packet ∈ transferAtClient crc32 raw time, Origin world.server.socket address packet) ∧
      ∀ packet ∈ readAtClient crc32 raw time, Origin world.server.socket address packet := by
  obtain ⟨transmission, hmem, rfl, hwellFormed, rfl⟩ := agrees.reaches_client client arrives
  obtain ⟨htransfers, hfragments⟩ := client_reads crc32 host time hwellFormed
  rw [htransfers, hfragments]
  exact ⟨origin_transfer hmem, origin_fragment hmem⟩

def SentToServer {M : Type} [Sendable M] (host : SocketAddr) (world : World)
    (packet : Packet Received M) : Prop :=
  ∃ source, source ≠ host ∧ Origin (world.clients source).socket host packet

theorem Agrees.server_origins (agrees : Agrees crc32 host registry server clients world)
    {raw : RawPacket} (arrives : World.InFlight host world host raw) (time : Duration) :
    (∀ packet ∈ transferAtServer crc32 raw time, SentToServer host world packet) ∧
      ∀ packet ∈ readAtServer crc32 raw time, SentToServer host world packet := by
  obtain ⟨source, hclient, transmission, hmem, haddress, hwellFormed, rfl⟩ :=
    agrees.reaches_server arrives
  obtain ⟨htransfers, hfragments⟩ := server_reads crc32 source time hwellFormed
  rw [htransfers, hfragments]
  exact ⟨fun packet hread => ⟨source, hclient, haddress ▸ origin_transfer hmem packet hread⟩,
    fun packet hread => ⟨source, hclient, haddress ▸ origin_fragment hmem packet hread⟩⟩

/-- All that waits in a reassembler was sent to where it waits, and no event waits at all. -/
structure Authentic (host : SocketAddr) (world : World) : Prop where
  server : HoldsOnly (SentToServer host world) world.server.antarc.core.connected
  serverIdle : world.server.antarc.core.api = []
  clients : ∀ address, address ≠ host →
    HoldsOnly (Origin world.server.socket address) (world.clients address).antarc.core.connected
  clientsIdle : ∀ address, address ≠ host → (world.clients address).antarc.core.api = []

theorem Authentic.server_moves (h : Authentic host world) {net : AntarcNet Server}
    (hholds : HoldsOnly (SentToServer host world) net.antarc.core.connected)
    (hidle : net.antarc.core.api = []) (hgrows : world.server.socket <+: net.socket) :
    Authentic host { world with server := net } where
  server := hholds
  serverIdle := hidle
  clients := fun address client => (h.clients address client).mono fun _ horigin =>
    horigin.mono hgrows
  clientsIdle := h.clientsIdle

theorem clients_setClient_self (world : World) (address : SocketAddr) (net : AntarcNet Client) :
    (world.setClient address net).clients address = net :=
  Function.update_self ..

theorem clients_setClient_of_ne (world : World) {address other : SocketAddr}
    (net : AntarcNet Client) (hother : other ≠ address) :
    (world.setClient address net).clients other = world.clients other :=
  Function.update_of_ne hother ..

theorem clients_setClient (world : World) (address : SocketAddr) (net : AntarcNet Client)
    (other : SocketAddr) :
    (other = address ∧ (world.setClient address net).clients other = net) ∨
      (world.setClient address net).clients other = world.clients other := by
  by_cases hother : other = address
  · subst hother
    exact .inl ⟨rfl, clients_setClient_self ..⟩
  · exact .inr (Function.update_of_ne hother ..)

theorem Authentic.client_moves (h : Authentic host world) {address : SocketAddr}
    {net : AntarcNet Client}
    (hholds : HoldsOnly (Origin world.server.socket address) net.antarc.core.connected)
    (hidle : net.antarc.core.api = []) (hgrows : (world.clients address).socket <+: net.socket) :
    Authentic host (world.setClient address net) where
  server := by
    refine h.server.mono ?_
    rintro packet ⟨source, hclient, horigin⟩
    refine ⟨source, hclient, horigin.mono ?_⟩
    rcases clients_setClient world address net source with ⟨rfl, hclient⟩ | hclient
    · rwa [hclient]
    · rw [hclient]
  serverIdle := h.serverIdle
  clients := by
    intro other client
    rcases clients_setClient world address net other with ⟨rfl, hclient⟩ | hclient
    · rwa [hclient]
    · rw [hclient]
      exact h.clients other client
  clientsIdle := by
    intro other client
    rcases clients_setClient world address net other with ⟨rfl, hclient⟩ | hclient
    · rwa [hclient]
    · rw [hclient]
      exact h.clientsIdle other client

theorem Authentic.server_withholds (h : Authentic host world) {net : AntarcNet Server}
    (hcall : Withholds world.server net) : Authentic host { world with server := net } :=
  h.server_moves (h.server.of_keeps hcall.groups) (hcall.api h.serverIdle) hcall.socket

theorem Authentic.client_withholds (h : Authentic host world) {address : SocketAddr}
    (client : address ≠ host) {net : AntarcNet Client}
    (hcall : Withholds (world.clients address) net) :
    Authentic host (world.setClient address net) :=
  h.client_moves ((h.clients address client).of_keeps hcall.groups)
    (hcall.api (h.clientsIdle address client)) hcall.socket

theorem authentic_step {next : World} (agrees : Agrees crc32 host registry server clients world)
    (h : Authentic host world) (hstep : World.Step crc32 host world next) :
    Authentic host next := by
  cases hstep with
  | connect address client now result net call =>
    exact h.client_withholds client (withholds_connect call)
  | clientCalled address client outcome call net returned =>
    subst returned
    exact h.client_withholds client (withholds_carriedDrive call)
  | clientSent address client clock net call =>
    exact h.client_withholds client (withholds_clientSend call)
  | clientReceived address client raw arrives received elapsed events net call =>
    obtain ⟨hholds, hidle, hsocket, -⟩ := clientReceive_hands (h.clients address client)
      (h.clientsIdle address client) (agrees.client_origins client arrives received).2 call
    exact h.client_moves hholds hidle (hsocket ▸ List.prefix_rfl)
  | serverCalled outcome call net returned =>
    subst returned
    exact h.server_withholds (withholds_carriedDrive call)
  | serverSent clock net call => exact h.server_withholds (withholds_serverSend call)
  | serverReceived raw arrives hash peerHash received elapsed now events net call =>
    obtain ⟨hholds, hidle, hsocket, -⟩ := serverReceive_hands h.server h.serverIdle
      (agrees.server_origins arrives received).2 call
    exact h.server_moves hholds hidle (hsocket ▸ List.prefix_rfl)

theorem authentic_of_reachable (h : (worlds crc32 host).Reachable world) :
    Authentic host world := by
  refine h.invariant (Authentic host) ?_ ?_
  · rintro _ ⟨reliableTtl, rfl⟩
    exact ⟨holdsOnly_empty, rfl, fun _ _ => holdsOnly_empty, fun _ _ => rfl⟩
  · intro world next hreachable hauthentic hstep
    obtain ⟨registry, server, clients, agrees⟩ := agrees_of_reachable hreachable
    exact authentic_step agrees hauthentic hstep

end Worlds

section Delivery

/-- A payload that was sent to an address on a connection: that of a data transfer, or that of
fragments of one packet, as many as it has less the one that arrived last. -/
inductive Conveyed (socket : List Transmission) (destination : SocketAddr) (id : ConnectionId)
    (payload : Payload) : Prop where
  | whole (transmission : Transmission) (sent : transmission ∈ socket)
      (packet : Packet ToSend DataTransfer) (is : transmission.packet = .dataTransfer packet)
      (addressed : packet.delivery.metadata.address = destination)
      (on : packet.message.connectionId = id) (carries : packet.message.payload = payload)
  | joined (parts : List (Packet ToSend Fragment)) (last : Packet ToSend Fragment)
      (sent : ∀ part ∈ last :: parts, ∃ transmission ∈ socket,
        transmission.packet = .fragment part)
      (addressed : ∀ part ∈ last :: parts, part.delivery.metadata.address = destination ∧
        part.message.connectionId = id)
      (same : ∀ part ∈ parts, part.delivery.id = last.delivery.id ∧ part.sequence = last.sequence)
      (count : parts.length + 1 = last.message.total.toNat)
      (joins : (parts.map fun part => part.message.payload).flatten = payload)

/-- Fragments to one address under one sequence are of one packet. -/
theorem Recorded.single_fragment {crc32 : Crc32} {socket : List Transmission}
    (h : Recorded crc32 socket) {part other : Packet ToSend Fragment}
    (hpart : ∃ transmission ∈ socket, transmission.packet = .fragment part)
    (hother : ∃ transmission ∈ socket, transmission.packet = .fragment other)
    (haddress : part.delivery.metadata.address = other.delivery.metadata.address)
    (hsequence : part.sequence = other.sequence) : part.delivery.id = other.delivery.id := by
  obtain ⟨transmission, hmem, his⟩ := hpart
  obtain ⟨transmission', hmem', his'⟩ := hother
  have hraw := h.encoded transmission hmem
  have hraw' := h.encoded transmission' hmem'
  rw [his] at hraw
  rw [his'] at hraw'
  have hsingle := h.neverReused.single transmission hmem transmission' hmem'
    (by rw [hraw, hraw']; exact haddress)
    (by
      rw [hraw, hraw', (datagramOf_line _).2, (datagramOf_line _).2]
      exact congrArg (·.get.toNat) hsequence)
  rw [packetIdOf, packetIdOf, his, his'] at hsingle
  exact hsingle

theorem Hands.conveyed {crc32 : Crc32} {socket : List Transmission} {destination : SocketAddr}
    {transfers : List (Packet Received DataTransfer)}
    {fragments : List (Packet Received Fragment)} {id : ConnectionId} {payload : Payload}
    {known : Packet Received Fragment → Prop} (hrecorded : Recorded crc32 socket)
    (htransfers : ∀ packet ∈ transfers, packet.message.connectionId = id →
      Origin socket destination packet)
    (hfragments : ∀ packet ∈ fragments, known packet)
    (hknown : ∀ packet, known packet → packet.message.connectionId = id →
      Origin socket destination packet)
    (h : Hands known transfers fragments id payload) : Conveyed socket destination id payload := by
  cases h with
  | whole packet read isFor carries =>
    obtain ⟨transmission, hmem, sent, his, haddress, -, hmessage⟩ := htransfers packet read isFor
    exact .whole transmission hmem sent his haddress (hmessage ▸ isFor) (hmessage ▸ carries)
  | joined last read isFor completes =>
    obtain ⟨waiting, hwaiting, hcount, hpayload⟩ := completes.parts
    have hlast := hknown last (hfragments last read) isFor
    obtain ⟨transmission, hmem, part, his, haddress, hsequence, hmessage⟩ := hlast
    have horigins : ∀ packet ∈ waiting, ∃ part : Packet ToSend Fragment,
        ((∃ transmission ∈ socket, transmission.packet = .fragment part) ∧
          part.delivery.metadata.address = destination ∧ packet.sequence = part.sequence ∧
          packet.message = part.message) ∧ part.message.payload = packet.message.payload := by
      intro packet hpacket
      obtain ⟨hsame, hid, hpacket⟩ := hwaiting packet hpacket
      obtain ⟨found, hfound, part, his, haddress, hsequence, hmessage⟩ :=
        hknown packet hpacket (hid.trans isFor)
      exact ⟨part, ⟨⟨found, hfound, his⟩, haddress, hsequence, hmessage⟩, by rw [hmessage]⟩
    obtain ⟨parts, hpayloads, hparts⟩ := exists_counterparts horigins
    have hsent : ∃ transmission ∈ socket, transmission.packet = .fragment part :=
      ⟨transmission, hmem, his⟩
    have hall : ∀ other ∈ parts, (∃ transmission ∈ socket, transmission.packet = .fragment other) ∧
        (other.delivery.metadata.address = destination ∧ other.message.connectionId = id) ∧
        other.sequence = part.sequence := by
      intro other hother
      obtain ⟨packet, hpacket, hsent', haddress', hsequence', hmessage'⟩ := hparts other hother
      obtain ⟨hsame, hid, -⟩ := hwaiting packet hpacket
      exact ⟨hsent', ⟨haddress', hmessage' ▸ hid.trans isFor⟩,
        by rw [← hsequence', hsame, hsequence]⟩
    refine .joined parts part ?_ ?_ ?_ ?_ ?_
    · exact List.forall_mem_cons.mpr ⟨hsent, fun other hother => (hall other hother).1⟩
    · exact List.forall_mem_cons.mpr
        ⟨⟨haddress, hmessage ▸ isFor⟩, fun other hother => (hall other hother).2.1⟩
    · intro other hother
      obtain ⟨hsent', ⟨haddress', -⟩, hsequence'⟩ := hall other hother
      exact ⟨hrecorded.single_fragment hsent' hsent (haddress'.trans haddress.symm) hsequence',
        hsequence'⟩
    · have hlength := congrArg List.length hpayloads
      rw [List.length_map, List.length_map] at hlength
      rw [hlength, hcount, hmessage]
    · rw [hpayloads]
      exact hpayload

variable {crc32 : Crc32} {host : SocketAddr} {registry : Registry SocketAddr}
  {server : Numbering SocketAddr PacketId} {clients : SocketAddr → Numbering SocketAddr PacketId}
  {world : World}

/-- A payload that comes out of a poll which takes a datagram that was in flight. -/
inductive Obtains (crc32 : Crc32) (host : SocketAddr) (world : World) :
    SocketAddr → ConnectionId → Payload → Prop where
  | toClient (address : SocketAddr) (client : address ≠ host) (raw : RawPacket)
      (arrives : World.InFlight host world address raw) (received elapsed : Duration)
      (events : List (ProtocolEvent ClientEvent)) (net : AntarcNet Client)
      (call : (world.clients address).clientReceive crc32 received elapsed (some raw) =
        .ok (events, net)) (id : ConnectionId) (payload : Payload)
      (handed : .dataTransfer id payload ∈ events) : Obtains crc32 host world address id payload
  | toServer (raw : RawPacket) (arrives : World.InFlight host world host raw)
      (hash : RandomState) (peerHash : ConnectionId → RandomState)
      (received elapsed now : Duration) (events : List (ProtocolEvent ServerEvent))
      (net : AntarcNet Server)
      (call : world.server.serverReceive crc32 hash peerHash received elapsed now (some raw) =
        .ok (events, net)) (id : ConnectionId) (payload : Payload)
      (handed : .dataTransfer id payload ∈ events) : Obtains crc32 host world host id payload

inductive Ends (host : SocketAddr) (world : World) (id : ConnectionId) :
    SocketAddr → SocketAddr → Prop where
  | toClient (address : SocketAddr) (client : address ≠ host)
      (names : addressOf world.server.antarc.service id = some address) :
      Ends host world id host address
  | toServer (address : SocketAddr) (client : address ≠ host)
      (names : addressOf world.server.antarc.service id = some address) :
      Ends host world id address host

def sentFrom (host : SocketAddr) (world : World) (source : SocketAddr) : List Transmission :=
  if source = host then world.server.socket else (world.clients source).socket

theorem Origin.travels {M : Type} [Carried M] [Sendable M] [Bodied M] [Travels M]
    {socket : List Transmission} {destination : SocketAddr} {packet : Packet Received M}
    (h : Origin socket destination packet) : ∃ transmission ∈ socket,
      (lineOf transmission.packet).address = destination ∧
      (lineOf transmission.packet).body.connection =
        some (Carried.connectionId packet.message) := by
  obtain ⟨transmission, hmem, sent, his, haddress, -, hmessage⟩ := h
  refine ⟨transmission, hmem, ?_, ?_⟩ <;> rw [his, Bodied.line_outgoing]
  · exact haddress
  · rw [hmessage]
    exact Travels.connection_body sent.message

theorem Agrees.server_names {M : Type} [Carried M] [Sendable M] [Bodied M] [Travels M]
    (agrees : Agrees crc32 host registry server clients world) {destination : SocketAddr}
    {packet : Packet Received M} (h : Origin world.server.socket destination packet) :
    addressOf world.server.antarc.service (Carried.connectionId packet.message) =
      some destination := by
  obtain ⟨transmission, hmem, rfl, hconnection⟩ := h.travels
  exact addressOf_of_connectedAt
    ((agrees.serverLedger.sent transmission hmem).connection _ hconnection)

theorem Agrees.client_names {M : Type} [Carried M] [Sendable M] [Bodied M] [Travels M]
    (agrees : Agrees crc32 host registry server clients world) {source : SocketAddr}
    (client : source ≠ host) {packet : Packet Received M}
    (h : Origin (world.clients source).socket host packet) :
    addressOf world.server.antarc.service (Carried.connectionId packet.message) = some source := by
  obtain ⟨transmission, hmem, rfl, hconnection⟩ := h.travels
  have ledger := agrees.clientLedger source client
  obtain ⟨-, hnamed⟩ := ledger.named _ _ ((ledger.sent transmission hmem).connection _ hconnection)
  rwa [agrees.serverSide.table.holder] at hnamed

theorem Hands.cause {transfers : List (Packet Received DataTransfer)}
    {fragments : List (Packet Received Fragment)} {id : ConnectionId} {payload : Payload}
    {known : Packet Received Fragment → Prop} (h : Hands known transfers fragments id payload) :
    (∃ packet ∈ transfers, packet.message.connectionId = id) ∨
      ∃ packet ∈ fragments, packet.message.connectionId = id := by
  cases h with
  | whole packet read isFor carries => exact .inl ⟨packet, read, isFor⟩
  | joined last read isFor completes => exact .inr ⟨last, read, isFor⟩

/-- In every state that a server and its clients reach over a network that does not forge, a
payload that a poll hands over was sent on its connection by the other end of it. -/
theorem Obtains.conveyed {destination : SocketAddr} {id : ConnectionId} {payload : Payload}
    (hover : Obtains crc32 host world destination id payload)
    (h : (worlds crc32 host).Reachable world) :
    ∃ source, Ends host world id source destination ∧
      Conveyed (sentFrom host world source) destination id payload := by
  obtain ⟨registry, server, clients, agrees⟩ := agrees_of_reachable h
  have authentic := authentic_of_reachable h
  cases hover with
  | toClient _ client raw arrives received elapsed events net call _ _ handed =>
    obtain ⟨htransfers, hfragments⟩ := agrees.client_origins client arrives received
    obtain ⟨-, -, -, hhands⟩ := clientReceive_hands (authentic.clients _ client)
      (authentic.clientsIdle _ client) hfragments call
    have hhanded := hhands id payload handed
    refine ⟨host, .toClient destination client ?_, ?_⟩
    · rcases hhanded.cause with ⟨packet, hread, rfl⟩ | ⟨packet, hread, rfl⟩
      · exact agrees.server_names (htransfers packet hread)
      · exact agrees.server_names (hfragments packet hread)
    · rw [sentFrom, if_pos rfl]
      exact hhanded.conveyed agrees.serverLedger.recorded (fun packet hread _ =>
        htransfers packet hread) hfragments fun _ horigin _ => horigin
  | toServer raw arrives hash peerHash received elapsed now events net call _ _ handed =>
    obtain ⟨htransfers, hfragments⟩ := agrees.server_origins arrives received
    obtain ⟨-, -, -, hhands⟩ := serverReceive_hands authentic.server authentic.serverIdle
      hfragments call
    have hhanded := hhands id payload handed
    have hsource : ∃ source, source ≠ host ∧
        addressOf world.server.antarc.service id = some source := by
      rcases hhanded.cause with ⟨packet, hread, rfl⟩ | ⟨packet, hread, rfl⟩
      · obtain ⟨source, client, horigin⟩ := htransfers packet hread
        exact ⟨source, client, agrees.client_names client horigin⟩
      · obtain ⟨source, client, horigin⟩ := hfragments packet hread
        exact ⟨source, client, agrees.client_names client horigin⟩
    obtain ⟨source, client, hnamed⟩ := hsource
    -- Whoever else has sent on this connection is the client that it is registered for.
    refine ⟨source, .toServer source client hnamed, ?_⟩
    rw [sentFrom, if_neg client]
    refine hhanded.conveyed (agrees.clientLedger source client).recorded ?_ hfragments ?_
    · rintro packet hread rfl
      obtain ⟨other, client', horigin⟩ := htransfers packet hread
      cases (agrees.client_names client' horigin).symm.trans hnamed
      exact horigin
    · rintro packet ⟨other, client', horigin⟩ rfl
      cases (agrees.client_names client' horigin).symm.trans hnamed
      exact horigin

end Delivery

section Greeting

def greetingTransfer : Packet ToSend DataTransfer :=
  ⟨⟨1, ⟨.zero, .v4 0 0⟩⟩, .two, 1, .new .one [7]⟩

def greetingTransmission : Transmission :=
  ⟨greetingTransfer.datagram ieeeCrc32, .dataTransfer greetingTransfer, true⟩

set_option maxRecDepth 8000 in
theorem greetedClient_sends (hash : RandomState) : ∃ scheduled client,
    Prod.snd <$> greetedClient.schedule hash .unreliable (.single .one) [7] .zero = .ok scheduled ∧
    scheduled.clientSend ieeeCrc32 (fun _ _ => .zero) = .ok client ∧
    greetingTransmission ∈ client.socket :=
  ⟨_, _, rfl, rfl, List.mem_cons_of_mem _ List.mem_cons_self⟩

theorem answeringServer_hears (hash : RandomState) : ∃ heard peer handler,
    answeringServer.antarc.serverReceived ieeeCrc32 hash
      ⟨.v4 1 1, (greetingTransfer.datagram ieeeCrc32).bytes⟩ .zero = .ok (.ok (), heard) ∧
    heard.service.connected = Finmap.singleton .one peer ∧ peer.connection.reassembler = ∅ ∧
    heard.service.api = [.dataTransfer .one [7]] ∧
    heard.service.reliabilityHandler.poll .zero = .ok handler := by
  have hdecode :=
    (Codec.roundTrips_dataTransfer ieeeCrc32 greetingTransfer (.v4 1 1) .zero rfl).2.1
  unfold Protocol.serverReceived Server.onReceived
  simp only [hdecode, ok_bind]
  exact ⟨_, _, _, rfl, rfl, rfl, rfl, rfl⟩

theorem serverPoll_of_one {protocol : Protocol Server} {peer : Peer Connected} {id : ConnectionId}
    {elapsed : Duration} {handler : ReliabilityHandler ServerReliabilityHandler}
    (hash : RandomState) (peerHash : ConnectionId → RandomState) (now : Duration)
    (hone : protocol.service.connected = Finmap.singleton id peer)
    (hempty : peer.connection.reassembler = ∅)
    (hhandler : protocol.service.reliabilityHandler.poll elapsed = .ok handler) :
    ∃ next, protocol.serverPoll hash peerHash elapsed now = .ok (protocol.service.api, next) :=
  ⟨_, serverPoll_of_peer hone (poll_of_empty hempty) hhandler⟩

theorem answeringServer_receives (hash : RandomState) (peerHash : ConnectionId → RandomState) :
    ∃ net, answeringServer.serverReceive ieeeCrc32 hash peerHash .zero .zero .zero
      (some (World.receivedFrom (.v4 1 1) greetingTransmission)) =
      .ok ([.dataTransfer .one [7]], net) := by
  obtain ⟨heard, peer, handler, hheard, hone, hempty, hapi, hhandler⟩ := answeringServer_hears hash
  obtain ⟨polled, hpolled⟩ := serverPoll_of_one hash peerHash .zero hone hempty hhandler
  have harrives : World.receivedFrom (.v4 1 1) greetingTransmission =
      ⟨.v4 1 1, (greetingTransfer.datagram ieeeCrc32).bytes⟩ :=
    receivedFrom_encoded (.v4 1 1) rfl ⟨rfl, by decide⟩
  rw [harrives]
  unfold AntarcNet.serverReceive
  simp only [hheard, AntarcNet.attempt, ok_bind, AntarcNet.report, hpolled, hapi]
  exact ⟨_, rfl⟩

theorem greeting_in_flight : ∃ world, (worlds ieeeCrc32 (.v4 0 0)).Reachable world ∧
    world.server = answeringServer ∧ World.InFlight (.v4 0 0) world (.v4 0 0)
      (World.receivedFrom (.v4 1 1) greetingTransmission) := by
  let hash := Classical.arbitrary RandomState
  have hclient : SocketAddr.v4 1 1 ≠ .v4 0 0 := by decide
  obtain ⟨scheduled, client, hscheduled, hsent, hmem⟩ := greetedClient_sends hash
  have hown : greetedWorld.clients (.v4 1 1) = greetedClient := by
    simp only [greetedWorld, Function.update_self]
  have hscheduling : (worlds ieeeCrc32 (.v4 0 0)).Reachable
      (greetedWorld.setClient (.v4 1 1) scheduled) :=
    greetedWorld_reachable.next (.clientCalled _ hclient _
      (.schedule hash .unreliable (.single .one) [7] .zero) scheduled (hown ▸ hscheduled))
  have hspoken := hscheduling.next (.clientSent _ hclient (fun _ _ => .zero) client
    (by rwa [clients_setClient_self]))
  exact ⟨_, hspoken, rfl,
    .fromClient _ hclient greetingTransmission (by rwa [clients_setClient_self]) rfl⟩

theorem greeting_obtained : ∃ world, (worlds ieeeCrc32 (.v4 0 0)).Reachable world ∧
    Obtains ieeeCrc32 (.v4 0 0) world (.v4 0 0) .one [7] := by
  let hash := Classical.arbitrary RandomState
  obtain ⟨world, hworld, hserver, harrives⟩ := greeting_in_flight
  obtain ⟨net, hreceived⟩ := answeringServer_receives hash fun _ => hash
  rw [← hserver] at hreceived
  exact ⟨world, hworld, .toServer _ harrives hash (fun _ => hash) .zero .zero .zero _ net
    hreceived .one [7] List.mem_cons_self⟩

end Greeting

end Antarc.Properties
