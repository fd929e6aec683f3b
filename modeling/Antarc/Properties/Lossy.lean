import Antarc.Net.Pair
import Antarc.Properties.Agreement
import Antarc.Properties.Quiet

/-! A handshake over a network that loses datagrams. What it means that a lost packet of it
is still tracked, and what holds of the pair whatever is lost: both parties' books are in
order, and a client that is connected neither asks nor awaits again. -/
namespace Antarc.Properties

open Library

section Property

def Awaits (host : SocketAddr) (pair : Pair) : Prop :=
  host ∈ pair.client.antarc.service.awaitingConnectionAck

/-- `reliable_ttl` has elapsed since the last packet of the handshake was sent. -/
def TtlElapsed (pair : Pair) : Prop :=
  ∃ last, pair.lastHandshake = some last ∧ last.time + last.ttl.nanos ≤ pair.now

/-- A packet of the handshake is in flight, queued or kept, or it is time for another. -/
def Tracked (address host : SocketAddr) (pair : Pair) : Prop :=
  (∃ datagram ∈ pair.inFlight, datagram.asks address host ∨ datagram.accepts address host) ∨
    (∃ scheduled ∈ scheduledAccepts pair.server.antarc.service, scheduled.address = address) ∨
    (∃ packet ∈ storedRequests pair.client.antarc.service,
      packet.delivery.metadata.address = host) ∨
    (∃ packet ∈ storedAccepts pair.server.antarc.service,
      packet.delivery.metadata.address = address) ∨
    TtlElapsed pair

def Expired (now : Duration) (packet : Packet Sent M) : Prop :=
  ∃ expiry, packet.delivery.metadata.time.add packet.delivery.ttl = .ok expiry ∧ expiry ≤ now

/-- The client awaits a server that has no peer at its address. -/
def Unheard (address host : SocketAddr) (pair : Pair) : Prop :=
  Awaits host pair ∧
    pair.server.antarc.service.connectionRequestAnotherState address = false

/-- A poll takes the request for the server out of the list only when it is due to be sent
again or its time is over, unless the server has heard it. -/
def Spares (address host : SocketAddr) (pair : Pair) : Pair.Act → Prop
  | .clientSend clock => Unheard address host pair →
      ∀ packet, (storedRequests pair.client.antarc.service).getLast? = some packet →
        packet.delivery.metadata.address = host → Due (clock 0 0) packet
  | .clientReceive _ _ elapsed => Unheard address host pair →
      ∀ packet, (storedRequests pair.client.antarc.service).head? = some packet →
        packet.delivery.metadata.address = host → Expired elapsed packet
  | _ => True

end Property

section Books

variable {crc32 : Crc32} {address host : SocketAddr} {pair next : Pair} {act : Pair.Act}
  {asked : List SocketAddr}

structure Booked (crc32 : Crc32) (asked : List SocketAddr) (pair : Pair) : Prop where
  client : Books crc32 .none .start (ClientSide asked []) pair.client
  server : ∃ registry, Books crc32 .none .start (ServerSide registry []) pair.server
  encoded : ∀ datagram ∈ pair.inFlight,
    datagram.transmission.raw = datagramOf crc32 datagram.transmission.packet ∧
      (lineOf datagram.transmission.packet).body.WellFormed

theorem encoded_newlySent {S A B E : Type} [Service S A B E] [PeerTable S]
    {side : AntarcNet S → Prop} {before after : AntarcNet S}
    (books : Books crc32 .none .start side after) (source : SocketAddr) :
    ∀ datagram ∈ newlySent source before after,
      datagram.transmission.raw = datagramOf crc32 datagram.transmission.packet ∧
        (lineOf datagram.transmission.packet).body.WellFormed := by
  obtain ⟨numbering, ledger, -⟩ := books
  intro datagram hmem
  obtain ⟨transmission, hsent, rfl⟩ := List.mem_map.mp hmem
  have hok := ledger.sent transmission (List.mem_of_mem_drop hsent)
  exact ⟨hok.raw, hok.wellFormed⟩

theorem Booked.step (booked : Booked crc32 asked pair)
    (h : Pair.Step crc32 address host pair act next) :
    ∃ later, asked ⊆ later ∧
      (∀ other ∈ later, other ∈ asked ∨ ∃ now, act = .connect other now) ∧
      Booked crc32 later next := by
  obtain ⟨client, ⟨registry, server⟩, encoded⟩ := booked
  have hasked : ∀ other ∈ asked, other ∈ asked ∨ ∃ now, act = .connect other now := fun _ => .inl
  cases h with
  | elapse later passes => exact ⟨asked, List.Subset.refl _, hasked, client, ⟨registry, server⟩, encoded⟩
  | connect remoteAddress now later reads idle result net call =>
    obtain ⟨⟨_, antarc⟩, hconnect, call⟩ := bind_eq_ok.mp call
    cases call
    rcases client.connect trivial (attempt_eq_ok.mp hconnect) with ⟨_, -, hsame⟩ | ⟨-, hbooks⟩
    · rw [hsame]
      exact ⟨asked, List.Subset.refl _, hasked, client, ⟨registry, server⟩, encoded⟩
    · refine ⟨_, List.subset_append_left _ _, fun other hmem => ?_, hbooks, ⟨registry, server⟩,
        encoded⟩
      refine (List.mem_append.mp hmem).imp_right fun hmem => ⟨now, ?_⟩
      rw [List.mem_singleton.mp hmem]
  | clientCall later passes idle outcome call net returned =>
    have hbooks := client.carriedDrive (stable_clientSide crc32 _ asked []) call
    rw [returned] at hbooks
    exact ⟨asked, List.Subset.refl _, hasked, hbooks, ⟨registry, server⟩, encoded⟩
  | clientSend clock later passes reads idle net call =>
    have hbooks := preserves_clientSend clock _ client
    rw [call] at hbooks
    refine ⟨asked, List.Subset.refl _, hasked, hbooks, ⟨registry, server⟩, fun datagram hmem => ?_⟩
    rcases List.mem_append.mp hmem with hmem | hmem
    · exact encoded datagram hmem
    · exact encoded_newlySent hbooks address datagram hmem
  | clientReceive datagram received elapsed later readsReceived readsElapsed waits arrives addressed
      events net call =>
    have hbooks := client.clientReceive received elapsed (some datagram.raw)
      fun _ _ _ _ => ⟨fun _ _ _ _ => trivial, trivial⟩
    rw [call] at hbooks
    exact ⟨asked, List.Subset.refl _, hasked, hbooks, ⟨registry, server⟩,
      fun other hmem => encoded other (List.mem_of_mem_erase hmem)⟩
  | serverCall later passes idle outcome call net returned =>
    have hbooks := server.carriedDrive (stable_serverSide crc32 _ registry []) call
    rw [returned] at hbooks
    exact ⟨asked, List.Subset.refl _, hasked, client, ⟨registry, hbooks⟩, encoded⟩
  | serverSend clock later passes reads idle net call =>
    have hbooks := preserves_serverSend clock _ server
    rw [call] at hbooks
    refine ⟨asked, List.Subset.refl _, hasked, client, ⟨registry, hbooks⟩, fun datagram hmem => ?_⟩
    rcases List.mem_append.mp hmem with hmem | hmem
    · exact encoded datagram hmem
    · exact encoded_newlySent hbooks host datagram hmem
  | serverReceive datagram hash peerHash received elapsed now later readsReceived readsElapsed
      readsNow waits arrives addressed events net call =>
    have hbooks := server.serverReceive hash peerHash received elapsed now (some datagram.raw)
      fun _ _ _ _ => ⟨fun _ _ _ _ _ _ => ⟨trivial, trivial⟩, fun _ _ => trivial⟩
    rw [call] at hbooks
    obtain ⟨registered, -, hbooks⟩ := hbooks
    exact ⟨asked, List.Subset.refl _, hasked, client, ⟨registered, hbooks⟩,
      fun other hmem => encoded other (List.mem_of_mem_erase hmem)⟩
  | lose datagram =>
    exact ⟨asked, List.Subset.refl _, hasked, client, ⟨registry, server⟩,
      fun other hmem => encoded other (List.mem_of_mem_erase hmem)⟩

theorem booked_new (crc32 : Crc32) (address host : SocketAddr) (reliableTtl : Duration)
    (clientStarted serverStarted now : Nat) :
    Booked crc32 [] (.new address host reliableTtl clientStarted serverStarted now) where
  client := books_newClient crc32 .none address
  server := ⟨.empty, books_newServer crc32 .none host reliableTtl⟩
  encoded := fun _ hmem => absurd hmem List.not_mem_nil

end Books

section Answered

variable {crc32 : Crc32} {address host : SocketAddr} {client next : Client}
  {protocol after : Protocol Client} {asked : List SocketAddr}

def Through (host : SocketAddr) (client : Client) : Prop :=
  host ∉ client.requestingConnection ∧ host ∉ client.awaitingConnectionAck

theorem Through.of_eq (h : Through host client)
    (hrequesting : next.requestingConnection = client.requestingConnection)
    (hawaiting : next.awaitingConnectionAck = client.awaitingConnectionAck) :
    Through host next := by
  unfold Through
  rw [hrequesting, hawaiting]
  exact h

/-- Only an address that asks comes to await. -/
theorem through_sentConnectionRequest {packet : Packet ToSend ConnectionRequest} {now : Duration}
    (h : Through host protocol.service)
    (hsent : protocol.sentConnectionRequest packet now = .ok after) :
    Through host after.service := by
  obtain ⟨peer, advanced, hfound, -, rfl⟩ := sentConnectionRequest_frame hsent
  have hother : host ≠ packet.delivery.metadata.address := by
    rintro rfl
    exact h.1 (Finmap.mem_of_lookup_eq_some hfound)
  constructor
  · exact fun hmem => h.1 (Finmap.mem_erase.mp hmem).2
  · intro hmem
    rcases Finmap.mem_insert.mp hmem with hsame | hmem
    · exact hother hsame
    · exact h.2 hmem

theorem through_sent {M : Type} [Carried M] {packet : Packet ToSend M}
    {reliability : ReliabilityType} {now : Duration} (h : Through host protocol.service)
    (hsent : protocol.sent packet reliability now = .ok after) : Through host after.service := by
  obtain ⟨completes, core, -, -, rfl⟩ := sent_frame hsent
  change Through host { (protocol.service.promoteAwaiting _ _ now) with toServiceCore := _ }
  unfold Client.promoteAwaiting
  split
  · exact ⟨h.1, fun hmem => h.2 (Finmap.mem_erase.mp hmem).2⟩
  · exact h

theorem through_pollRetry {M : Type} [Carried M] [Sendable M] {clock : Nat → Duration}
    {net later : AntarcNet Client} (h : Through host net.antarc.service)
    (hpoll : AntarcNet.pollRetry M crc32 clock net = .ok later) :
    Through host later.antarc.service := by
  refine pollStored_keeps (fun protocol => Through host protocol.service)
    (fun _ _ _ _ => through_sent) (fun _ _ _ _ h hretry => ?_) h hpoll
  obtain ⟨handler, -, rfl⟩ := retry_frame hretry
  exact h

theorem through_pollScheduled {R M : Type} [Queued R M] [Reliability R] [Carried M] [Sendable M]
    {create : Protocol Client → Scheduled R M → Duration → Exec (Packet ToSend M)}
    {clock : Nat → Duration} {net later : AntarcNet Client} (h : Through host net.antarc.service)
    (hpoll : AntarcNet.pollScheduled crc32 create clock net = .ok later) :
    Through host later.antarc.service := by
  refine pollQueue_keeps (fun protocol => Through host protocol.service)
    (fun _ _ _ _ => through_sent) (fun _ _ _ h hdrain => ?_) h hpoll
  obtain ⟨queue, rfl⟩ := drain_frame hdrain
  exact h

theorem through_pollCarried {clock : Clock} {pass : Nat} {net later : AntarcNet Client}
    (h : Through host net.antarc.service)
    (hpoll : net.pollCarried crc32 clock pass = .ok later) : Through host later.antarc.service := by
  obtain ⟨_, hfirst, hpoll⟩ := bind_eq_ok.mp hpoll
  obtain ⟨_, hsecond, hpoll⟩ := bind_eq_ok.mp hpoll
  obtain ⟨_, hthird, hpoll⟩ := bind_eq_ok.mp hpoll
  obtain ⟨_, hfourth, hpoll⟩ := bind_eq_ok.mp hpoll
  obtain ⟨_, hfifth, hpoll⟩ := bind_eq_ok.mp hpoll
  replace h := through_pollScheduled h hfirst
  replace h := through_pollScheduled h hsecond
  replace h := through_pollScheduled h hthird
  replace h := through_pollScheduled h hfourth
  replace h := through_pollScheduled h hfifth
  exact through_pollScheduled h hpoll

theorem through_clientSend {clock : Clock} {net later : AntarcNet Client}
    (h : Through host net.antarc.service) (hsend : net.clientSend crc32 clock = .ok later) :
    Through host later.antarc.service := by
  obtain ⟨_, hresend, hsend⟩ := bind_eq_ok.mp hsend
  obtain ⟨_, hretry, hsend⟩ := bind_eq_ok.mp hsend
  obtain ⟨_, hrequests, hsend⟩ := bind_eq_ok.mp hsend
  refine through_pollCarried ?_ hsend
  refine pollQueue_keeps (fun protocol => Through host protocol.service)
    (fun _ _ _ _ => through_sentConnectionRequest) (fun _ _ _ h hdrain => ?_) ?_ hrequests
  · obtain ⟨⟨_, service⟩, hservice, hdrain⟩ := bind_eq_ok.mp hdrain
    obtain ⟨_, -, hservice⟩ := bind_eq_ok.mp hservice
    cases hservice
    cases hdrain
    exact h
  · refine through_pollRetry ?_ hretry
    refine pollStored_keeps (fun protocol => Through host protocol.service)
      (fun _ _ _ _ => through_sentConnectionRequest) (fun _ _ _ _ h hretry => ?_) h hresend
    obtain ⟨list, -, rfl⟩ := resend_frame hretry
    exact h

theorem through_hears {header : Header} (h : Through host client)
    (hhears : ClientHears client header next) : Through host next := by
  cases hhears with
  | connected peer found reassembler events delivers => exact h
  | awaiting peer unconnected found time events delivers =>
    exact ⟨h.1, fun hmem => h.2 (Finmap.mem_erase.mp hmem).2⟩

theorem through_clientReceive {received elapsed : Duration} {raw : RawPacket}
    {events : List (ProtocolEvent ClientEvent)} {net later : AntarcNet Client}
    (h : Through host net.antarc.service)
    (hreceive : net.clientReceive crc32 received elapsed (some raw) = .ok (events, later)) :
    Through host later.antarc.service := by
  obtain ⟨result, client, handler, hreceived, -, rfl⟩ := clientReceive_frame hreceive
  rcases client_onReceived_cases hreceived with rfl | ⟨decoded, -, -, hhears⟩
  · exact h
  · have hheard := through_hears h hhears
    exact hheard

theorem through_carriedDrive {numbering : Numbering SocketAddr PacketId}
    {net later : AntarcNet Client}
    {outcome : Drive (AntarcNet Client)} (ledger : Ledger crc32 .none numbering net)
    (h : Through host net.antarc.service) (hcall : CarriedDrive net outcome)
    (hreturned : outcome = .ok later) : Through host later.antarc.service := by
  cases hcall with
  | schedule hash reliability sendTo payload now =>
    obtain ⟨⟨_, _⟩, hforward, rfl⟩ := map_eq_ok.mp hreturned
    obtain ⟨⟨result, antarc⟩, hcall, hforward⟩ := bind_eq_ok.mp hforward
    cases hforward
    obtain ⟨core, hframe⟩ := (ledger.schedule (attempt_eq_ok.mp hcall)).2.frame
    exact h.of_eq (by rw [hframe]; rfl) (by rw [hframe]; rfl)
  | heartbeat hash reliability sendTo now =>
    obtain ⟨⟨_, _⟩, hforward, rfl⟩ := map_eq_ok.mp hreturned
    obtain ⟨⟨result, antarc⟩, hcall, hforward⟩ := bind_eq_ok.mp hforward
    cases hforward
    obtain ⟨core, hframe⟩ := (ledger.heartbeat (attempt_eq_ok.mp hcall)).2.frame
    exact h.of_eq (by rw [hframe]; rfl) (by rw [hframe]; rfl)

end Answered

end Antarc.Properties
