import Antarc.Library.Enrolment
import Antarc.Library.Simulation
import Antarc.Properties.ClientRuns
import Antarc.Properties.Mutual
import Antarc.Properties.Quiet

/-! The handshakes of a server and its clients are an enrolment. A client asks, the server
gives it an id, the client takes it up and the server learns of it; whatever the network does,
each step of the world is one of these or none. -/
namespace Antarc.Properties

open Library

section Client

variable {crc32 : Crc32} {policy : Policy} {start : Numbering SocketAddr PacketId}
  {asked : List SocketAddr} {net after : AntarcNet Client} {clock : Clock}

def SameConnected (net after : AntarcNet Client) : Prop :=
  ∀ id address, ConnectedAt after.antarc.service id address ↔
    ConnectedAt net.antarc.service id address

theorem SameConnected.trans {later : AntarcNet Client} (first : SameConnected net after)
    (second : SameConnected after later) : SameConnected net later :=
  fun id address => (second id address).trans (first id address)

theorem sameConnected_of_eq (h : after.antarc.service.connected = net.antarc.service.connected) :
    SameConnected net after := by
  intro id address
  rw [connectedAt_iff, connectedAt_iff,
    show (Service.core after.antarc.service).connected = net.antarc.service.connected from h]
  rfl

theorem stable_sameConnected (crc32 : Crc32) (policy : Policy) (net : AntarcNet Client) :
    Stable crc32 policy (SameConnected net) :=
  fun _ _ _ hsame carries _ => hsame.trans carries.untouched.connectedAt

theorem stable_clientSame (crc32 : Crc32) (policy : Policy) (asked : List SocketAddr)
    (net : AntarcNet Client) :
    Stable crc32 policy fun after => ClientSide asked [] after ∧ SameConnected net after :=
  fun before after numbering sides carries ledger =>
    ⟨stable_clientSide crc32 policy asked [] before after numbering sides.1 carries ledger,
      stable_sameConnected crc32 policy net before after numbering sides.2 carries ledger⟩

theorem sameConnected_clientSend (books : Books crc32 policy start (ClientSide asked []) net)
    (h : net.clientSend crc32 clock = .ok after) : SameConnected net after := by
  obtain ⟨resent, hresend, h⟩ := bind_eq_ok.mp h
  obtain ⟨retried, hretry, h⟩ := bind_eq_ok.mp h
  obtain ⟨requested, hrequests, h⟩ := bind_eq_ok.mp h
  have stable := stable_clientSame crc32 policy asked net
  have hresent := preserves_pollRetryConnectionRequest (clock 0) net books
  rw [hresend] at hresent
  obtain ⟨_, ledger, settled, hsteps, side⟩ := hresent
  have hretried := preserves_retry DataTransfer stable (clock 1) resent
    ⟨_, ledger, settled, hsteps, side, sameConnected_of_eq (retryRequest_connected hresend)⟩
  rw [show AntarcNet.pollRetry DataTransfer crc32 (clock 1) resent = _ from hretry] at hretried
  obtain ⟨_, ledger, settled, hsteps, side, hsame⟩ := hretried
  have hrequested := preserves_pollConnectionRequest (clock 2) retried
    ⟨_, ledger, settled, hsteps, side⟩
  rw [hrequests] at hrequested
  obtain ⟨_, ledger, settled, hsteps, side⟩ := hrequested
  have hcarried := preserves_carried stable clock 3 requested
    ⟨_, ledger, settled, hsteps, side,
      hsame.trans (sameConnected_of_eq (requests_connected hrequests))⟩
  rw [h] at hcarried
  obtain ⟨_, -, -, -, -, hcarried⟩ := hcarried
  exact hcarried

theorem sameConnected_clientCalled (books : Books crc32 policy start (ClientSide asked []) net)
    (h : CarriedDrive net (.ok after)) : SameConnected net after := by
  obtain ⟨_, ledger, settled, hsteps, -⟩ := books
  have unmoved : Books crc32 policy start (SameConnected net) net :=
    ⟨_, ledger, settled, hsteps, fun _ _ => Iff.rfl⟩
  obtain ⟨_, -, -, -, hcalled⟩ := unmoved.carriedDrive (stable_sameConnected crc32 policy net) h
  exact hcalled

theorem joins_hears {client next : Client} {header : Header} (h : ClientHears client header next) :
    (∀ id address, ConnectedAt next id address ↔ ConnectedAt client id address) ∨
      ∃ joined source peer, client.awaitingConnectionAck.lookup source = some peer ∧
        ∀ id address, ConnectedAt next id address ↔
          id = joined ∧ peer.address = address ∨ ConnectedAt client id address := by
  cases h with
  | connected peer found reassembler events delivers =>
    refine .inl fun id address => ?_
    rw [connectedAt_iff, connectedAt_iff]
    exact Eq.congr_left
      (map_lookup_insert Peer.address (hearing peer header reassembler) found rfl id)
  | awaiting peer unconnected found time events delivers =>
    exact .inr ⟨_, _, peer, found, fun id address =>
      (connectedAt_insert unconnected rfl id address).trans Iff.rfl⟩

theorem joins_clientReceive {received elapsed : Duration} {raw : RawPacket}
    {events : List (ProtocolEvent ClientEvent)}
    (h : net.clientReceive crc32 received elapsed (some raw) = .ok (events, after)) :
    SameConnected net after ∨
      ∃ joined source peer, net.antarc.service.awaitingConnectionAck.lookup source = some peer ∧
        ∀ id address, ConnectedAt after.antarc.service id address ↔
          id = joined ∧ peer.address = address ∨ ConnectedAt net.antarc.service id address := by
  obtain ⟨result, client, handler, hreceived, -, rfl⟩ := clientReceive_frame h
  rcases client_onReceived_cases hreceived with rfl | ⟨decoded, -, -, hhears⟩
  · exact .inl fun _ _ => Iff.rfl
  · have hjoins := joins_hears hhears
    exact hjoins

theorem Books.knownPeer (books : Books crc32 policy start (ClientSide asked []) net)
    (later : Books crc32 policy start (ClientSide asked []) after) (host : SocketAddr) :
    after.antarc.service.knownPeer host = net.antarc.service.knownPeer host := by
  obtain ⟨_, -, -, -, side⟩ := books
  obtain ⟨_, -, -, -, side'⟩ := later
  rw [Bool.eq_iff_iff, side'.table.known_iff, side.table.known_iff]

end Client

section Worlds

variable {crc32 : Crc32} {host : SocketAddr} {world next : World} {registry : Registry SocketAddr}
  {server : Numbering SocketAddr PacketId} {clients : SocketAddr → Numbering SocketAddr PacketId}
  {enrolment : Enrolment SocketAddr}

/-- The stages that the clients have reached: which of them know the server, which the server
has an id for, which have the server connected, and which the server has connected. -/
structure Enrols (host : SocketAddr) (world : World) (enrolment : Enrolment SocketAddr) :
    Prop where
  asked : ∀ address, address ∈ enrolment.asked ↔
    address ≠ host ∧ (world.clients address).antarc.service.knownPeer host = true
  table : ServerTable enrolment.registry world.server.antarc.service
  joined : ∀ n address, (n, address) ∈ enrolment.joined ↔ address ≠ host ∧
    ∃ id : ConnectionId, id.get.toNat = n ∧
      ConnectedAt (world.clients address).antarc.service id host
  confirmed : ∀ n address, (n, address) ∈ enrolment.confirmed ↔
    ∃ id : ConnectionId, id.get.toNat = n ∧ ConnectedAt world.server.antarc.service id address

theorem knownPeer_setClient {address : SocketAddr} {net : AntarcNet Client}
    (hknown : net.antarc.service.knownPeer host =
      (world.clients address).antarc.service.knownPeer host) (other : SocketAddr) :
    ((world.setClient address net).clients other).antarc.service.knownPeer host =
      (world.clients other).antarc.service.knownPeer host := by
  rcases clients_setClient world address net other with ⟨rfl, hnet⟩ | hnet
  · rwa [hnet]
  · rw [hnet]

theorem sameConnected_setClient {address : SocketAddr} {net : AntarcNet Client}
    (hsame : SameConnected (world.clients address) net) (other : SocketAddr) :
    SameConnected (world.clients other) ((world.setClient address net).clients other) := by
  rcases clients_setClient world address net other with ⟨rfl, hnet⟩ | hnet
  · rwa [hnet]
  · rw [hnet]
    exact fun _ _ => Iff.rfl

theorem Enrols.client_stays (h : Enrols host world enrolment) {address : SocketAddr}
    {net : AntarcNet Client} (hknown : net.antarc.service.knownPeer host =
      (world.clients address).antarc.service.knownPeer host)
    (hsame : SameConnected (world.clients address) net) :
    Enrols host (world.setClient address net) enrolment := by
  refine ⟨fun other => ?_, h.table, fun n other => ?_, h.confirmed⟩
  · rw [knownPeer_setClient hknown]
    exact h.asked other
  · simp only [sameConnected_setClient hsame other _ _]
    exact h.joined n other

theorem Enrols.server_stays (h : Enrols host world enrolment) {net : AntarcNet Server}
    (hsame : SamePeers world.server.antarc.service net.antarc.service) :
    Enrols host { world with server := net } enrolment := by
  refine ⟨h.asked, h.table.of_samePeers hsame, h.joined, fun n address => ?_⟩
  simp only [hsame.connectedAt]
  exact h.confirmed n address

theorem Enrols.connects (h : Enrols host world enrolment)
    (agrees : Agrees crc32 host registry server clients world) {address : SocketAddr}
    (client : address ≠ host) {now : Duration} {result : Result Unit} {net : AntarcNet Client}
    (hconnect : (world.clients address).connect host now = .ok (result, net)) :
    ∃ later, Relation.ReflGen Enrolment.Step enrolment later ∧
      Enrols host (world.setClient address net) later := by
  obtain ⟨⟨_, antarc⟩, hcall, hconnect⟩ := bind_eq_ok.mp hconnect
  cases hconnect
  rcases connect_cases (attempt_eq_ok.mp hcall) with ⟨_, -, rfl⟩ | ⟨_, hunknown, -, -, hantarc⟩
  · exact ⟨enrolment, .refl, h.client_stays rfl fun _ _ => Iff.rfl⟩
  have hsame : SameConnected (world.clients address)
      { world.clients address with antarc := antarc } :=
    sameConnected_of_eq (by rw [hantarc]; rfl)
  have hknown : antarc.service.knownPeer host = true := by
    obtain ⟨asked, side⟩ := agrees.clientSide address client
    rw [hantarc, (side.table.of_connecting hunknown _ now).known_iff host]
    exact List.mem_append_right _ (List.mem_singleton_self host)
  have hfirst : address ∉ enrolment.asked := by
    rw [h.asked, hunknown]
    exact fun hasked => Bool.false_ne_true hasked.2
  refine ⟨_, .single (.ask address hfirst), fun other => ?_, h.table, fun n other => ?_,
    h.confirmed⟩
  · rw [Set.mem_insert_iff, h.asked]
    by_cases hother : other = address
    · subst hother
      rw [clients_setClient_self]
      exact iff_of_true (.inl rfl) ⟨client, hknown⟩
    · rw [or_iff_right hother, clients_setClient_of_ne world _ hother]
  · simp only [sameConnected_setClient hsame other _ _]
    exact h.joined n other

theorem Enrols.client_receives (h : Enrols host world enrolment)
    (agrees : Agrees crc32 host registry server clients world) {address : SocketAddr}
    (client : address ≠ host) {net : AntarcNet Client}
    (later : ∃ registry server clients,
      Agrees crc32 host registry server clients (world.setClient address net))
    (hknown : net.antarc.service.knownPeer host =
      (world.clients address).antarc.service.knownPeer host)
    {joined : ConnectionId} {source : SocketAddr} {peer : Peer AwaitingConnectionAck}
    (hawaiting : (world.clients address).antarc.service.awaitingConnectionAck.lookup source =
      some peer)
    (hconnected : ∀ id other, ConnectedAt net.antarc.service id other ↔
      id = joined ∧ peer.address = other ∨
        ConnectedAt (world.clients address).antarc.service id other) :
    ∃ later, Relation.ReflGen Enrolment.Step enrolment later ∧
      Enrols host (world.setClient address net) later := by
  obtain ⟨registry', server', clients', agrees'⟩ := later
  obtain ⟨asked, side⟩ := agrees.clientSide address client
  have hjoins : ConnectedAt net.antarc.service joined peer.address :=
    (hconnected joined peer.address).mpr (.inl ⟨rfl, rfl⟩)
  have ledger' := agrees'.clientLedger address client
  rw [clients_setClient_self] at ledger'
  obtain ⟨hhost, hholder⟩ := ledger'.named joined peer.address hjoins
  have hheld : enrolment.registry.holder joined.get.toNat = some address := by
    rw [agrees'.serverSide.table.holder] at hholder
    exact (h.table.holder joined).trans hholder
  have hown := side.table.ownAwaiting source peer hawaiting
  have hfirst : (joined.get.toNat, address) ∉ enrolment.joined := by
    rw [h.joined]
    rintro ⟨-, id, -, hat⟩
    refine (side.table.apart id host hat).2 ?_
    rw [← hhost, hown]
    exact Finmap.mem_of_lookup_eq_some hawaiting
  refine ⟨_, .single (.join _ address hheld hfirst), fun other => ?_, h.table, fun n other => ?_,
    h.confirmed⟩
  · rw [knownPeer_setClient hknown]
    exact h.asked other
  · rw [Set.mem_insert_iff, h.joined]
    by_cases hother : other = address
    · subst hother
      rw [clients_setClient_self]
      constructor
      · rintro (hjoined | ⟨-, id, hid, hat⟩)
        · cases hjoined
          exact ⟨client, joined, rfl, (hconnected joined host).mpr (.inl ⟨rfl, hhost⟩)⟩
        · exact ⟨client, id, hid, (hconnected id host).mpr (.inr hat)⟩
      · rintro ⟨-, id, rfl, hat⟩
        rcases (hconnected id host).mp hat with ⟨rfl, -⟩ | hat
        · exact .inl rfl
        · exact .inr ⟨client, id, rfl, hat⟩
    · rw [clients_setClient_of_ne world _ hother]
      exact or_iff_right fun hjoined => hother (congrArg Prod.snd hjoined)

theorem ServerHears.registered {server next : Server} {header : Header}
    (h : ServerHears server header next) :
    ∃ address, addressOf server header.connectionId = some address := by
  cases h with
  | connected peer found reassembler events delivers =>
    exact ⟨peer.address, ServerTable.addressOf_connected found⟩
  | awaiting peer unconnected found time reassembler events delivers =>
    refine ⟨peer.address, ?_⟩
    rw [addressOf, unconnected, found]
    rfl

theorem Enrols.server_hears (h : Enrols host world enrolment)
    (agrees : Agrees crc32 host registry server clients world) {raw : RawPacket}
    (arrives : World.InFlight host world host raw) {time : Duration} {decoded : DecodedForServer}
    {header : Header} (hdecode : raw.decode crc32 DecodedForServer.tryFrom time = .ok (.ok decoded))
    (hheader : forServerHeader decoded = some header) {heard : Server} {net : AntarcNet Server}
    (hhears : ServerHears world.server.antarc.service header heard)
    (hpolled : SamePeers heard net.antarc.service) :
    ∃ later, Relation.ReflGen Enrolment.Step enrolment later ∧
      Enrols host { world with server := net } later := by
  have htable := (h.table.of_hears hhears).of_samePeers hpolled
  have hconnected : ∀ id address, ConnectedAt net.antarc.service id address ↔
      ConnectedAt world.server.antarc.service id address ∨ id = header.connectionId ∧
        addressOf world.server.antarc.service id = some address := fun id address =>
    (hpolled.connectedAt id address).trans hhears.connectedAt_iff
  obtain ⟨address, haddress⟩ := hhears.registered
  by_cases hold : ConnectedAt world.server.antarc.service header.connectionId address
  · refine ⟨enrolment, .refl, h.asked, htable, h.joined, fun n other => ?_⟩
    rw [h.confirmed]
    refine exists_congr fun id => and_congr_right fun _ => ((hconnected id other).trans ?_).symm
    refine or_iff_left_of_imp ?_
    rintro ⟨rfl, hother⟩
    cases haddress.symm.trans hother
    exact hold
  · obtain ⟨client, hspeaks⟩ := agrees.speaks arrives ⟨_, header, hdecode, hheader, rfl⟩ haddress
    have hjoined : (header.connectionId.get.toNat, address) ∈ enrolment.joined :=
      (h.joined _ _).mpr ⟨client, _, rfl, hspeaks.connected agrees client⟩
    have hfirst : (header.connectionId.get.toNat, address) ∉ enrolment.confirmed := by
      rw [h.confirmed]
      rintro ⟨id, hid, hat⟩
      obtain rfl : id = header.connectionId := NonZeroU16.ext_iff.mpr (UInt16.toNat_inj.mp hid)
      exact hold hat
    refine ⟨_, .single (.confirm _ address hjoined hfirst), h.asked, htable, h.joined,
      fun n other => ?_⟩
    rw [Set.mem_insert_iff, h.confirmed]
    constructor
    · rintro (hnew | ⟨id, hid, hat⟩)
      · cases hnew
        exact ⟨_, rfl, (hconnected _ _).mpr (.inr ⟨rfl, haddress⟩)⟩
      · exact ⟨id, hid, (hconnected id other).mpr (.inl hat)⟩
    · rintro ⟨id, rfl, hat⟩
      rcases (hconnected id other).mp hat with hat | ⟨rfl, hother⟩
      · exact .inr ⟨id, rfl, hat⟩
      · cases haddress.symm.trans hother
        exact .inl rfl

theorem Enrols.server_admits (h : Enrols host world enrolment)
    (agrees : Agrees crc32 host registry server clients world) {raw : RawPacket}
    (arrives : World.InFlight host world host raw) {time : Duration}
    {packet : Packet Received ConnectionRequest} {packetId : PacketId}
    (hdecode : raw.decode crc32 DecodedForServer.tryFrom time =
      .ok (.ok (.connectionRequest packet))) {heard : Server} {net : AntarcNet Server}
    (hadmits : ServerAdmits world.server.antarc.service packet packetId time heard)
    (hpolled : SamePeers heard net.antarc.service) :
    ∃ later, Relation.ReflGen Enrolment.Step enrolment later ∧
      Enrols host { world with server := net } later := by
  obtain ⟨source, client, transmission, hmem, haddress, hwellFormed, rfl⟩ :=
    agrees.reaches_server arrives
  have hsource : packet.delivery.metadata.address = source := by
    rcases server_takes hwellFormed hdecode with ⟨_, hheader, -⟩ | ⟨request, hrequest, hsource, -⟩
    · contradiction
    · cases hrequest
      exact hsource
  have hasked : packet.delivery.metadata.address ∈ enrolment.asked := by
    obtain ⟨asked, side⟩ := agrees.clientSide source client
    rw [hsource, h.asked, side.table.known_iff, ← haddress]
    exact ⟨haddress ▸ client, (side.contacted transmission hmem).1⟩
  obtain ⟨-, hfresh, htable⟩ := h.table.enrolls hadmits
  refine ⟨_, .single (.enroll _ hasked hfresh), h.asked, htable.of_samePeers hpolled, h.joined,
    fun n address => ?_⟩
  simp only [hpolled.connectedAt, h.table.connectedAt_admits hadmits]
  exact h.confirmed n address

/-- The step lemma. One step of the world takes one client on by one stage, or none. -/
theorem enrols_step (agrees : Agrees crc32 host registry server clients world)
    (h : Enrols host world enrolment) (hstep : World.Step crc32 host world next) :
    ∃ later, Relation.ReflGen Enrolment.Step enrolment later ∧ Enrols host next later := by
  have hagrees := agrees_step agrees hstep
  cases hstep with
  | connect address client now result net call => exact h.connects agrees client call
  | clientCalled address client outcome call net returned =>
    subst returned
    obtain ⟨asked, books⟩ := agrees.clientBooks client
    have hbooks := books.carriedDrive (stable_clientSide crc32 _ asked []) call
    exact ⟨enrolment, .refl, h.client_stays (books.knownPeer hbooks host)
      (sameConnected_clientCalled books call)⟩
  | clientSent address client clock net call =>
    obtain ⟨asked, books⟩ := agrees.clientBooks client
    have hbooks := preserves_clientSend clock _ books
    rw [call] at hbooks
    exact ⟨enrolment, .refl, h.client_stays (books.knownPeer hbooks host)
      (sameConnected_clientSend books call)⟩
  | clientReceived address client raw arrives received elapsed events net call =>
    obtain ⟨asked, books⟩ := agrees.clientBooks client
    have hbooks := books.clientReceive received elapsed (some raw) (by
      rintro _ decoded ⟨⟩ hdecode
      exact agrees.clientMayHear client arrives hdecode)
    rw [call] at hbooks
    rcases joins_clientReceive call with hsame | ⟨joined, source, peer, hawaiting, hconnected⟩
    · exact ⟨enrolment, .refl, h.client_stays (books.knownPeer hbooks host) hsame⟩
    · exact h.client_receives agrees client hagrees (books.knownPeer hbooks host) hawaiting
        hconnected
  | serverCalled outcome call net returned =>
    subst returned
    exact ⟨enrolment, .refl, h.server_stays (samePeers_serverCalled call)⟩
  | serverSent clock net call =>
    exact ⟨enrolment, .refl, h.server_stays (samePeers_serverSend call)⟩
  | serverReceived raw arrives hash peerHash received elapsed now events net call =>
    obtain ⟨heard, outcome, hcall, hpolled⟩ := serverReceive_hears call
    rcases server_onReceived_cases hcall with
      hsame | ⟨decoded, header, hdecode, hheader, -, hhears⟩ | ⟨packet, hdecode, -, hadmits⟩
    · exact ⟨enrolment, .refl, h.server_stays (hsame ▸ hpolled)⟩
    · exact h.server_hears agrees arrives hdecode hheader hhears hpolled
    · exact h.server_admits agrees arrives hdecode hadmits hpolled

theorem enrols_new (host : SocketAddr) (reliableTtl : Duration) :
    Enrols host ⟨.newServer host reliableTtl, fun address => .newClient address⟩ .start := by
  refine ⟨fun address => ?_, serverTable_new reliableTtl, fun n address => ?_, fun n address => ?_⟩
  · refine iff_of_false (Set.notMem_empty _) fun hknown => ?_
    exact absurd ((clientTable_new.known_iff host).mp hknown.2) List.not_mem_nil
  · refine iff_of_false (Set.notMem_empty _) ?_
    rintro ⟨-, id, -, hat⟩
    exact absurd ((clientTable_new.asked_iff host).mpr (.inr (.inr ⟨id, hat⟩))) List.not_mem_nil
  · refine iff_of_false (Set.notMem_empty _) ?_
    rintro ⟨id, -, peer, hfound, -⟩
    exact absurd (Finmap.mem_of_lookup_eq_some hfound) Finmap.notMem_empty

theorem worlds_refine (crc32 : Crc32) (host : SocketAddr) :
    (worlds crc32 host).Refines Enrolment.machine (Enrols host) where
  init := by
    rintro _ ⟨reliableTtl, rfl⟩
    exact ⟨.start, rfl, enrols_new host reliableTtl⟩
  step world next enrolment hreachable h hstep := by
    obtain ⟨registry, server, clients, agrees⟩ := agrees_of_reachable hreachable
    exact enrols_step agrees h hstep

/-- A server and its clients refine the enrolment: each step of the world takes one client on by
one stage or none. So in every state of every run the stages are in order, and from there on no
client goes back. -/
theorem handshakes_enrol (crc32 : Crc32) (host : SocketAddr) :
    (worlds crc32 host).Refines Enrolment.machine (Enrols host) ∧
      ∀ world later, (worlds crc32 host).Reachable world →
        (worlds crc32 host).Steps world later →
        ∃ before after, Enrols host world before ∧ Enrols host later after ∧
          before.InOrder ∧ after.InOrder ∧ before.Onward after := by
  have refines := worlds_refine crc32 host
  refine ⟨refines, fun world later h hsteps => ?_⟩
  obtain ⟨before, hbefore, hworld⟩ := refines.answers.reachable h
  obtain ⟨after, hafter, hlater⟩ := refines.steps h hworld hsteps
  exact ⟨before, after, hworld, hlater, Enrolment.inOrder_of_reachable hbefore,
    Enrolment.inOrder_of_reachable (hbefore.steps hafter), Enrolment.onward_of_steps hafter⟩

end Worlds

/-- In the run that ends with a client that has connected to its server, that client has come
from no stage to the third. -/
theorem greeting_enrols : ∃ start, (worlds ieeeCrc32 (.v4 0 0)).init start ∧
    ∃ before after, Enrols (.v4 0 0) start before ∧ Enrols (.v4 0 0) greetedWorld after ∧
      before.InOrder ∧ after.InOrder ∧ before.Onward after := by
  obtain ⟨start, hinit, hsteps⟩ := greetedWorld_reachable
  exact ⟨start, hinit,
    (handshakes_enrol ieeeCrc32 (.v4 0 0)).2 start greetedWorld (.start hinit) hsteps⟩

end Antarc.Properties
