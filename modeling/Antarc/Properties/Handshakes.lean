import Antarc.Properties.Lossy

/-! The stages of a handshake. The client asks the server once, and until the server has
heard it nothing but the kept request tells of it; from then on the server has its accept
queued, or sent and kept, and hears nothing more before the client is connected. -/
namespace Antarc.Properties

open Library

section Stages

variable {crc32 : Crc32} {address host : SocketAddr} {pair next : Pair} {act : Pair.Act}
  {asked : List SocketAddr}

def arrivingAt (address : SocketAddr) (inFlight : List Datagram) : List Datagram :=
  inFlight.filter fun datagram => datagram.transmission.raw.address = address

inductive Greets (address host : SocketAddr) (datagram : Datagram) : Prop where
  | request (packet : Packet ToSend ConnectionRequest)
      (isRequest : datagram.transmission.packet = .connectionRequest packet)
      (source : datagram.source = address)
  | accept (packet : Packet ToSend ConnectionAccepted)
      (isAccept : datagram.transmission.packet = .connectionAccepted packet)
      (source : datagram.source = host)
      (addressed : datagram.transmission.raw.address = address)

/-- Neither party has a peer connected. -/
structure Opening (address host : SocketAddr) (pair : Pair) : Prop where
  client : pair.client.antarc.core.connected = ∅
  server : pair.server.antarc.core.connected = ∅
  greets : ∀ datagram ∈ pair.inFlight, Greets address host datagram

/-- The server knows of nobody, so the one request to it is in flight, lost or still to come. -/
structure Unknown (address host : SocketAddr) (pair : Pair) : Prop where
  opening : Opening address host pair
  requesting : pair.server.antarc.service.requestingConnection = ∅
  awaiting : pair.server.antarc.service.awaitingConnectionAck = ∅
  scheduled : scheduledAccepts pair.server.antarc.service = []
  stored : storedAccepts pair.server.antarc.service = []
  once : (arrivingAt host pair.inFlight).length ≤ 1
  silent : ¬Awaits host pair → arrivingAt host pair.inFlight = []
  noted : ∀ packet ∈ keptFor host (storedRequests pair.client.antarc.service),
    pair.lastHandshake =
      some ⟨pair.clientStarted + packet.delivery.metadata.time.nanos, packet.delivery.ttl⟩
  kept : Awaits host pair →
    keptFor host (storedRequests pair.client.antarc.service) ≠ [] ∨ TtlElapsed pair

/-- The server has heard the request, and its accept is queued, or sent and kept. -/
structure Greeted (address host : SocketAddr) (pair : Pair) : Prop where
  opening : Opening address host pair
  awaits : Awaits host pair
  silent : arrivingAt host pair.inFlight = []
  accept : (pair.serverWaits = false ∧ storedAccepts pair.server.antarc.service = [] ∧
      ∃ scheduled, scheduledAccepts pair.server.antarc.service = [scheduled] ∧
        scheduled.address = address) ∨
    pair.serverWaits = true ∧ ∃ packet ∈ storedAccepts pair.server.antarc.service,
      packet.delivery.metadata.address = address

/-- The client is connected to the server, and awaits it no more. -/
structure Answered (host : SocketAddr) (pair : Pair) : Prop where
  through : Through host pair.client.antarc.service
  connected : ∃ id, ConnectedAt pair.client.antarc.service id host

inductive Stage (address host : SocketAddr) (pair : Pair) : Prop where
  | unknown (stage : Unknown address host pair)
  | greeted (stage : Greeted address host pair)
  | answered (stage : Answered host pair)

theorem Stage.tracked (stage : Stage address host pair) (hawaits : Awaits host pair) :
    Tracked address host pair := by
  cases stage with
  | unknown stage =>
    rcases stage.kept hawaits with hkept | hover
    · obtain ⟨packet, hmem⟩ := List.exists_mem_of_ne_nil _ hkept
      obtain ⟨hmem, haddress⟩ := List.mem_filter.mp hmem
      exact .inr (.inr (.inl ⟨packet, hmem, of_decide_eq_true haddress⟩))
    · exact .inr (.inr (.inr (.inr hover)))
  | greeted stage =>
    rcases stage.accept with ⟨-, -, scheduled, hscheduled, haddress⟩ | ⟨-, packet, hmem, haddress⟩
    · exact .inr (.inl ⟨scheduled, hscheduled ▸ List.mem_singleton_self _, haddress⟩)
    · exact .inr (.inr (.inr (.inl ⟨packet, hmem, haddress⟩)))
  | answered stage => exact absurd hawaits stage.through.2

theorem arrivingAt_append (address : SocketAddr) (first second : List Datagram) :
    arrivingAt address (first ++ second) = arrivingAt address first ++ arrivingAt address second :=
  List.filter_append ..

theorem arrivingAt_erase (address : SocketAddr) (inFlight : List Datagram) (datagram : Datagram) :
    (arrivingAt address (inFlight.erase datagram)).Sublist (arrivingAt address inFlight) :=
  List.erase_sublist.filter _

theorem arrivingAt_erase_nil {inFlight : List Datagram} (datagram : Datagram)
    (h : arrivingAt address inFlight = []) : arrivingAt address (inFlight.erase datagram) = [] := by
  have hsublist := arrivingAt_erase address inFlight datagram
  rw [h] at hsublist
  exact List.sublist_nil.mp hsublist

theorem arrivingAt_received {inFlight : List Datagram} {datagram : Datagram}
    (honce : (arrivingAt address inFlight).length ≤ 1) (hmem : datagram ∈ inFlight)
    (haddressed : datagram.transmission.raw.address = address) :
    arrivingAt address (inFlight.erase datagram) = [] := by
  have hcons : arrivingAt address (datagram :: inFlight.erase datagram) =
      datagram :: arrivingAt address (inFlight.erase datagram) :=
    List.filter_cons_of_pos (decide_eq_true haddressed)
  have hlength : (arrivingAt address inFlight).length =
      (arrivingAt address (datagram :: inFlight.erase datagram)).length :=
    ((List.perm_cons_erase hmem).filter _).length_eq
  rw [hcons, List.length_cons] at hlength
  refine List.eq_nil_of_length_eq_zero ?_
  omega

theorem arrivingAt_sent (source : SocketAddr) (address : SocketAddr) (sent : List Transmission) :
    arrivingAt address (sent.map fun transmission => ⟨source, transmission⟩) =
      (sentTo address sent).map fun transmission => ⟨source, transmission⟩ :=
  List.filter_map ..

theorem newlySent_eq {S : Type} {before after : AntarcNet S} {sent : List Transmission}
    (source : SocketAddr) (h : after.socket = before.socket ++ sent) :
    newlySent source before after = sent.map fun transmission => ⟨source, transmission⟩ := by
  rw [newlySent, h, List.drop_left]

theorem newlySent_self {S : Type} (source : SocketAddr) (net : AntarcNet S) :
    newlySent source net net = [] :=
  newlySent_eq source (List.append_nil _).symm

theorem Expired.nanos_le {M : Type} {now : Duration} {packet : Packet Sent M}
    (h : Expired now packet) :
    packet.delivery.metadata.time.nanos + packet.delivery.ttl.nanos ≤ now.nanos := by
  obtain ⟨expiry, hexpiry, hle⟩ := h
  unfold Duration.add at hexpiry
  split at hexpiry
  · cases hexpiry
    exact hle
  · contradiction

theorem TtlElapsed.mono (h : TtlElapsed pair) (hnoted : next.lastHandshake = pair.lastHandshake)
    (hlater : pair.now ≤ next.now) : TtlElapsed next := by
  obtain ⟨last, hlast, hover⟩ := h
  exact ⟨last, hnoted.trans hlast, hover.trans hlater⟩

section Client

variable {net : AntarcNet Client} {clock : Clock} {later : Nat}

theorem Unknown.unheard (stage : Unknown address host pair) (hawaits : Awaits host pair) :
    Unheard address host pair := by
  refine ⟨hawaits, ?_⟩
  have hnone : ∀ {K V : Type} [DecidableEq K] (test : V → Bool),
      anyValue (∅ : HashMap K V) test = false := by
    intro K V _ test
    rw [← Bool.not_eq_true, anyValue_iff]
    rintro ⟨key, value, hvalue, -⟩
    rw [Finmap.lookup_empty] at hvalue
    contradiction
  have hconnected : pair.server.antarc.service.connected = ∅ := stage.opening.server
  rw [Server.connectionRequestAnotherState, stage.awaiting, hconnected, hnone, hnone]
  rfl

theorem awaits_of_kept (side : ClientSide asked [] pair.client)
    (halone : pair.client.antarc.core.connected = ∅)
    (h : keptFor host (storedRequests pair.client.antarc.service) ≠ []) : Awaits host pair := by
  obtain ⟨packet, hmem⟩ := List.exists_mem_of_ne_nil _ h
  obtain ⟨hmem, haddress⟩ := List.mem_filter.mp hmem
  obtain ⟨hasked, hout⟩ := side.settled.stored packet hmem
  rw [of_decide_eq_true haddress] at hasked hout
  rcases (side.table.asked_iff host).mp hasked with hmem | hmem | ⟨id, peer, hfound, -⟩
  · exact absurd hmem hout
  · exact hmem
  · change pair.client.antarc.core.connected.lookup id = some peer at hfound
    rw [halone, Finmap.lookup_empty] at hfound
    contradiction

theorem Unknown.kept_retried (stage : Unknown address host pair)
    (side : ClientSide asked [] pair.client)
    (hspares : Spares address host pair (.clientSend clock))
    {list : List (Packet Sent ConnectionRequest)}
    (h : list = storedRequests pair.client.antarc.service ∨
      ∃ packet, (storedRequests pair.client.antarc.service).getLast? = some packet ∧
        ¬Due (clock 0 0) packet ∧
          list = (storedRequests pair.client.antarc.service).dropLast) :
    keptFor host list = keptFor host (storedRequests pair.client.antarc.service) := by
  rcases h with rfl | ⟨packet, hlast, hdue, rfl⟩
  · rfl
  · have hother : packet.delivery.metadata.address ≠ host := by
      intro hsame
      refine hdue (hspares (stage.unheard ?_) packet hlast hsame)
      refine awaits_of_kept side stage.opening.client (List.ne_nil_of_mem (a := packet) ?_)
      exact List.mem_filter.mpr ⟨List.mem_of_getLast? hlast, decide_eq_true hsame⟩
    conv_rhs => rw [← List.dropLast_append_getLast? packet hlast, keptFor_append]
    have hnil : keptFor host [packet] = [] :=
      List.filter_cons_of_neg fun h => hother (of_decide_eq_true h)
    rw [hnil, List.append_nil]

theorem Opening.clientSent {list : List (Packet Sent ConnectionRequest)}
    {sent : List Transmission} (opening : Opening address host pair)
    (hasking : Asking host { pair.client with antarc := requestStore.put pair.client.antarc list }
      net sent) : Opening address host (pair.clientSent address host net later) where
  client := hasking.connected.trans opening.client
  server := opening.server
  greets := by
    intro datagram hmem
    rcases List.mem_append.mp hmem with hmem | hmem
    · exact opening.greets datagram hmem
    · have hsocket : net.socket = pair.client.socket ++ sent := hasking.socket
      rw [newlySent_eq address hsocket] at hmem
      obtain ⟨transmission, htransmission, rfl⟩ := List.mem_map.mp hmem
      obtain ⟨packet, hpacket⟩ := hasking.requests transmission htransmission
      exact .request packet hpacket rfl

theorem clientSent_unasked (address : SocketAddr) (later : Nat)
    {list : List (Packet Sent ConnectionRequest)} {sent : List Transmission}
    (hsocket : net.socket = pair.client.socket ++ sent)
    (hunasked : Unasked host
      { pair.client with antarc := requestStore.put pair.client.antarc list } net sent) :
    arrivingAt host (pair.clientSent address host net later).inFlight =
        arrivingAt host pair.inFlight ∧
      (pair.clientSent address host net later).lastHandshake = pair.lastHandshake := by
  have hnew := newlySent_eq address hsocket
  constructor
  · change arrivingAt host (pair.inFlight ++ newlySent address pair.client net) = _
    rw [hnew, arrivingAt_append, arrivingAt_sent, hunasked.unsent]
    exact List.append_nil _
  · have hnone : (newlySent address pair.client net).any (Datagram.asks address host) = false := by
      rw [hnew, List.any_eq_false]
      intro datagram hmem hasks
      obtain ⟨transmission, htransmission, rfl⟩ := List.mem_map.mp hmem
      have haddressed : transmission.raw.address = host := by
        unfold Datagram.asks at hasks
        split at hasks
        · exact (of_decide_eq_true hasks).2
        · contradiction
      have hsent : transmission ∈ sentTo host sent :=
        List.mem_filter.mpr ⟨htransmission, decide_eq_true haddressed⟩
      rw [hunasked.unsent] at hsent
      contradiction
    simp only [Pair.clientSent, hnone]
    rfl

theorem clientSent_asked (address : SocketAddr) (later : Nat)
    {list : List (Packet Sent ConnectionRequest)} {sent : List Transmission}
    (hasking : Asking host { pair.client with antarc := requestStore.put pair.client.antarc list }
      net sent)
    (hasked : Asked host { pair.client with antarc := requestStore.put pair.client.antarc list }
      net sent) :
    (∃ datagram, arrivingAt host (pair.clientSent address host net later).inFlight =
        arrivingAt host pair.inFlight ++ [datagram]) ∧
      (pair.clientSent address host net later).lastHandshake =
        noted pair.clientStarted host (storedRequests net.antarc.service) := by
  have hsocket : net.socket = pair.client.socket ++ sent := hasking.socket
  have hnew := newlySent_eq address hsocket
  obtain ⟨transmission, honce⟩ := hasked.once
  constructor
  · refine ⟨⟨address, transmission⟩, ?_⟩
    change arrivingAt host (pair.inFlight ++ newlySent address pair.client net) = _
    rw [hnew, arrivingAt_append, arrivingAt_sent, honce]
    rfl
  · have hsent : transmission ∈ sentTo host sent := honce ▸ List.mem_singleton_self _
    obtain ⟨hmem, haddressed⟩ := List.mem_filter.mp hsent
    obtain ⟨packet, hpacket⟩ := hasking.requests transmission hmem
    have hsome : (newlySent address pair.client net).any (Datagram.asks address host) = true := by
      rw [hnew, List.any_eq_true]
      refine ⟨_, List.mem_map_of_mem hmem, ?_⟩
      simp only [Datagram.asks, hpacket, of_decide_eq_true haddressed, decide_true, and_self]
    simp only [Pair.clientSent, hsome]
    rfl

theorem Unknown.clientSent (stage : Unknown address host pair)
    (books : Books crc32 .none .start (ClientSide asked []) pair.client)
    (hspares : Spares address host pair (.clientSend clock)) (hlater : pair.now ≤ later)
    (h : pair.client.clientSend crc32 clock = .ok net) :
    Unknown address host (pair.clientSent address host net later) := by
  obtain ⟨numbering, ledger, -, -, side⟩ := books
  obtain ⟨list, sent, hlist, hasking⟩ :=
    clientSend_idle host side.settled (ledger.idle stage.opening.client) h
  have hretried := stage.kept_retried side hspares hlist
  have hopening : Opening address host (pair.clientSent address host net later) :=
    stage.opening.clientSent hasking
  rcases hasking.outcome with hunasked | hasked
  · obtain ⟨harriving, hnoted⟩ := clientSent_unasked address later hasking.socket hunasked
    have hkept : keptFor host (storedRequests net.antarc.service) =
        keptFor host (storedRequests pair.client.antarc.service) := hunasked.kept.trans hretried
    have hawaits : Awaits host (pair.clientSent address host net later) ↔ Awaits host pair :=
      hunasked.awaiting
    refine ⟨hopening, stage.requesting, stage.awaiting, stage.scheduled, stage.stored, ?_, ?_, ?_,
      ?_⟩
    · rw [harriving]
      exact stage.once
    · rw [harriving, hawaits]
      exact stage.silent
    · intro packet hmem
      rw [hnoted]
      exact stage.noted packet (hkept ▸ hmem)
    · intro hawaiting
      rcases stage.kept (hawaits.mp hawaiting) with hsome | hover
      · exact .inl (hkept ▸ hsome)
      · exact .inr (hover.mono hnoted hlater)
  · obtain ⟨⟨datagram, harriving⟩, hnoted⟩ := clientSent_asked address later hasking hasked
    have hnot : ¬Awaits host pair := side.table.disjoint host hasked.asking
    have hnone : keptFor host (storedRequests pair.client.antarc.service) = [] := by
      by_contra hsome
      exact hnot (awaits_of_kept side stage.opening.client hsome)
    obtain ⟨packet, hkept⟩ := hasked.kept
    replace hkept : keptFor host (storedRequests net.antarc.service) = [packet] := by
      rw [hkept]
      exact congrArg (· ++ [packet]) (hretried.trans hnone)
    rw [stage.silent hnot, List.nil_append] at harriving
    refine ⟨hopening, stage.requesting, stage.awaiting, stage.scheduled, stage.stored, ?_, ?_, ?_,
      ?_⟩
    · rw [harriving]
      exact Nat.le_refl 1
    · exact fun hsilent => absurd hasked.awaiting hsilent
    · intro other hmem
      change other ∈ keptFor host (storedRequests net.antarc.service) at hmem
      rw [hkept, List.mem_singleton] at hmem
      rw [hnoted, hmem]
      change (keptFor host (storedRequests net.antarc.service)).getLast?.map _ = _
      rw [hkept]
      rfl
    · intro _
      left
      change keptFor host (storedRequests net.antarc.service) ≠ []
      rw [hkept]
      exact List.cons_ne_nil _ _

theorem Greeted.clientSent (stage : Greeted address host pair)
    (books : Books crc32 .none .start (ClientSide asked []) pair.client)
    (h : pair.client.clientSend crc32 clock = .ok net) :
    Greeted address host (pair.clientSent address host net later) := by
  obtain ⟨numbering, ledger, -, -, side⟩ := books
  obtain ⟨list, sent, -, hasking⟩ :=
    clientSend_idle host side.settled (ledger.idle stage.opening.client) h
  rcases hasking.outcome with hunasked | hasked
  · obtain ⟨harriving, -⟩ := clientSent_unasked address later hasking.socket hunasked
    exact ⟨stage.opening.clientSent hasking, hunasked.awaiting.mpr stage.awaits,
      harriving.trans stage.silent, stage.accept⟩
  · exact absurd stage.awaits (side.table.disjoint host hasked.asking)

variable {datagram : Datagram} {received elapsed : Duration}
  {events : List (ProtocolEvent ClientEvent)}

theorem Booked.raw_eq (booked : Booked crc32 asked pair) (hmem : datagram ∈ pair.inFlight) :
    datagram.raw =
      ⟨datagram.source, (datagramOf crc32 datagram.transmission.packet).bytes⟩ := by
  obtain ⟨hraw, hwellFormed⟩ := booked.encoded datagram hmem
  exact receivedFrom_encoded datagram.source hraw hwellFormed

/-- A client that is alone hears nothing but the accept that it awaits. -/
theorem Opening.clientReceive (opening : Opening address host pair)
    (booked : Booked crc32 asked pair) (hmem : datagram ∈ pair.inFlight)
    (h : pair.client.clientReceive crc32 received elapsed (some datagram.raw) =
      .ok (events, net)) :
    (∃ handler, pair.client.antarc.service.reliabilityHandler.poll elapsed = .ok handler ∧
      net = { pair.client with antarc := { pair.client.antarc with
        service := { pair.client.antarc.service with
          reliabilityHandler := handler, api := [] } } }) ∨
      Through host net.antarc.service ∧ ∃ id, ConnectedAt net.antarc.service id host := by
  obtain ⟨numbering, ledger, -, -, side⟩ := booked.client
  obtain ⟨result, client, handler, hreceived, hhandler, rfl⟩ := clientReceive_frame h
  rcases client_onReceived_cases hreceived with rfl | ⟨decoded, hdecode, -, hhears⟩
  · exact .inl ⟨handler, hhandler, rfl⟩
  · right
    have hwellFormed := (booked.encoded datagram hmem).2
    rw [booked.raw_eq hmem] at hdecode
    obtain ⟨hread, htaken⟩ := client_takes hwellFormed hdecode
    have hsource : (forClientHeader decoded).source = host := by
      cases opening.greets datagram hmem with
      | request packet isRequest source =>
        rw [isRequest] at htaken
        rcases htaken with hconnection | ⟨_, hbody, -⟩
        · contradiction
        · contradiction
      | accept packet isAccept source addressed => exact hread.source.trans source
    cases hhears with
    | connected peer found reassembler events delivers =>
      change pair.client.antarc.core.connected.lookup _ = some peer at found
      rw [opening.client, Finmap.lookup_empty] at found
      contradiction
    | awaiting peer unconnected found time events delivers =>
      rw [hsource] at found
      have hwaiting : host ∈ pair.client.antarc.service.awaitingConnectionAck :=
        Finmap.mem_of_lookup_eq_some found
      refine ⟨⟨fun hasking => side.table.disjoint host hasking hwaiting, ?_⟩, ?_⟩
      · rw [← hsource]
        exact fun hmem => (Finmap.mem_erase.mp hmem).1 rfl
      · exact ⟨_, _, Finmap.lookup_insert _, side.table.ownAwaiting _ _ found⟩

theorem Opening.erase (opening : Opening address host pair) (datagram : Datagram) :
    ∀ other ∈ pair.inFlight.erase datagram, Greets address host other :=
  fun other hmem => opening.greets other (List.mem_of_mem_erase hmem)

theorem Unknown.clientReceive (stage : Unknown address host pair)
    (booked : Booked crc32 asked pair)
    (hspares : Spares address host pair (.clientReceive datagram received elapsed))
    (hreads : pair.ClientReads later elapsed) (hmem : datagram ∈ pair.inFlight)
    (h : pair.client.clientReceive crc32 received elapsed (some datagram.raw) =
      .ok (events, net)) : Stage address host (pair.clientReceived datagram net later) := by
  obtain ⟨hnow, hlater⟩ := hreads
  rcases stage.opening.clientReceive booked hmem h with ⟨handler, hpoll, rfl⟩ | ⟨hthrough, hat⟩
  · have htail := clientHandler_poll (stored_poll hpoll).2
    have hsublist : (keptFor host handler.service.listSentConnectionRequest).Sublist
        (keptFor host (storedRequests pair.client.antarc.service)) := by
      rw [htail]
      exact (List.tail_sublist _).filter _
    refine .unknown ⟨⟨stage.opening.client, stage.opening.server, stage.opening.erase datagram⟩,
      stage.requesting, stage.awaiting, stage.scheduled, stage.stored, ?_, ?_, ?_, ?_⟩
    · exact (arrivingAt_erase host pair.inFlight datagram).length_le.trans stage.once
    · exact fun hawaits => arrivingAt_erase_nil datagram (stage.silent hawaits)
    · exact fun packet hpacket => stage.noted packet (hsublist.subset hpacket)
    · intro hawaits
      rcases stage.kept hawaits with hsome | hover
      · cases hstored : storedRequests pair.client.antarc.service with
        | nil => exact absurd (congrArg (keptFor host) hstored) hsome
        | cons packet rest =>
          by_cases hsame : packet.delivery.metadata.address = host
          · -- The request itself is dropped, and not before its time.
            right
            have hexpired : Expired elapsed packet :=
              hspares (stage.unheard hawaits) packet (by rw [hstored]; rfl) hsame
            have hkept : packet ∈ keptFor host (storedRequests pair.client.antarc.service) :=
              List.mem_filter.mpr ⟨hstored ▸ List.mem_cons_self, decide_eq_true hsame⟩
            refine ⟨_, stage.noted packet hkept, ?_⟩
            have hover := hexpired.nanos_le
            change pair.clientStarted + packet.delivery.metadata.time.nanos +
              packet.delivery.ttl.nanos ≤ later
            omega
          · left
            have hrest : keptFor host (packet :: rest) = keptFor host rest :=
              List.filter_cons_of_neg fun h => hsame (of_decide_eq_true h)
            change keptFor host handler.service.listSentConnectionRequest ≠ []
            rw [htail, show pair.client.antarc.service.reliabilityHandler.service.listSentConnectionRequest
              = packet :: rest from hstored, List.tail_cons, ← hrest, ← hstored]
            exact hsome
      · exact .inr (hover.mono rfl (hnow.trans hlater))
  · exact .answered ⟨hthrough, hat⟩

theorem Greeted.clientReceive (stage : Greeted address host pair)
    (booked : Booked crc32 asked pair) (hmem : datagram ∈ pair.inFlight)
    (h : pair.client.clientReceive crc32 received elapsed (some datagram.raw) =
      .ok (events, net)) :
    Greeted address host (pair.clientReceived datagram net later) ∨
      Answered host (pair.clientReceived datagram net later) := by
  rcases stage.opening.clientReceive booked hmem h with ⟨handler, -, rfl⟩ | ⟨hthrough, hat⟩
  · exact .inl
      ⟨⟨stage.opening.client, stage.opening.server, stage.opening.erase datagram⟩, stage.awaits,
        arrivingAt_erase_nil datagram stage.silent, stage.accept⟩
  · exact .inr ⟨hthrough, hat⟩

end Client

section Server

variable {net : AntarcNet Server} {clock : Clock} {later : Nat}

theorem Unknown.serverSend_idle (stage : Unknown address host pair)
    (hserver : ∃ registry, Books crc32 .none .start (ServerSide registry []) pair.server)
    (h : pair.server.serverSend crc32 clock = .ok net) : net = pair.server := by
  obtain ⟨registry, numbering, ledger, -⟩ := hserver
  have hidle := ledger.idle stage.opening.server
  cases (Properties.serverSend_idle clock hidle stage.stored stage.scheduled).symm.trans h
  rfl

theorem Unknown.serverSent (stage : Unknown address host pair)
    (hserver : ∃ registry, Books crc32 .none .start (ServerSide registry []) pair.server)
    (hlater : pair.now ≤ later) (h : pair.server.serverSend crc32 clock = .ok net) :
    Unknown address host (pair.serverSent address host net later) := by
  cases stage.serverSend_idle hserver h
  have hsent := newlySent_self host pair.server
  have hflight : (pair.serverSent address host pair.server later).inFlight = pair.inFlight := by
    simp only [Pair.serverSent, hsent, List.append_nil]
  have hnoted : (pair.serverSent address host pair.server later).lastHandshake =
      pair.lastHandshake := by
    simp only [Pair.serverSent, hsent]
    rfl
  refine ⟨⟨stage.opening.client, stage.opening.server, ?_⟩, stage.requesting, stage.awaiting,
    stage.scheduled, stage.stored, ?_, ?_, ?_, ?_⟩
  · rw [hflight]
    exact stage.opening.greets
  · rw [hflight]
    exact stage.once
  · rw [hflight]
    exact stage.silent
  · rw [hnoted]
    exact stage.noted
  · exact fun hawaits => (stage.kept hawaits).imp_right fun hover => hover.mono hnoted hlater

theorem Greeted.serverSent (stage : Greeted address host pair) (hdistinct : address ≠ host)
    (hserver : ∃ registry, Books crc32 .none .start (ServerSide registry []) pair.server)
    (hidle : pair.serverWaits = false) (h : pair.server.serverSend crc32 clock = .ok net) :
    Greeted address host (pair.serverSent address host net later) := by
  rcases stage.accept with ⟨-, hstored, scheduled, hscheduled, haddress⟩ | ⟨hwaits, -⟩
  · obtain ⟨registry, numbering, ledger, -⟩ := hserver
    obtain ⟨transmission, haccepting⟩ :=
      serverSend_accepts (ledger.idle stage.opening.server) hstored hscheduled h
    have hsent := newlySent_eq host haccepting.socket
    have hto : transmission.raw.address = address := haccepting.addressed.trans haddress
    obtain ⟨packet, hkept, hpacket⟩ := haccepting.kept
    refine ⟨⟨stage.opening.client, haccepting.connected.trans stage.opening.server, ?_⟩,
      stage.awaits, ?_, .inr ⟨rfl, packet, ?_, hpacket.trans haddress⟩⟩
    · intro datagram hmem
      rcases List.mem_append.mp hmem with hmem | hmem
      · exact stage.opening.greets datagram hmem
      · rw [hsent] at hmem
        cases List.mem_singleton.mp hmem
        obtain ⟨accept, haccept⟩ := haccepting.packet
        exact .accept accept haccept rfl hto
    · change arrivingAt host (pair.inFlight ++ newlySent host pair.server net) = []
      rw [arrivingAt_append, stage.silent, hsent, List.nil_append]
      refine List.filter_cons_of_neg fun h => hdistinct ?_
      exact hto.symm.trans (of_decide_eq_true h)
    · exact hkept ▸ List.mem_singleton_self _
  · rw [hidle] at hwaits
    contradiction

variable {datagram : Datagram} {hash : RandomState} {peerHash : ConnectionId → RandomState}
  {received elapsed now : Duration} {events : List (ProtocolEvent ServerEvent)}

theorem updateEach_alone {update : ConnectionId → Peer Connected → Exec (Peer Connected)}
    {connected final : HashMap ConnectionId (Peer Connected)} (halone : connected = ∅)
    (h : updateEach update (hash.iterate connected).entries connected = .ok final) :
    final = ∅ := by
  subst halone
  rw [Iteration.entries_empty] at h
  cases h
  rfl

/-- What a server that knows of nobody makes of a request: nothing, or a peer that awaits and
an accept that is queued for it. -/
theorem Unknown.onReceived (stage : Unknown address host pair) (booked : Booked crc32 asked pair)
    (hdistinct : address ≠ host) (hmem : datagram ∈ pair.inFlight)
    (haddressed : datagram.transmission.raw.address = host) {packetId : PacketId}
    {result : Result Bool} {server : Server}
    (h : pair.server.antarc.service.onReceived crc32 hash datagram.raw packetId received =
      .ok (result, server)) :
    server = pair.server.antarc.service ∨ server.connected = ∅ ∧
      storedAccepts server = [] ∧
      ∃ scheduled, scheduledAccepts server = [scheduled] ∧ scheduled.address = address := by
  have halone : pair.server.antarc.service.connected = ∅ := stage.opening.server
  rcases server_onReceived_cases h with
    hsame | ⟨_, _, -, -, -, hhears⟩ | ⟨packet, hdecode, -, hadmits⟩
  · exact .inl hsame
  · cases hhears with
    | connected peer found reassembler events delivers =>
      rw [halone, Finmap.lookup_empty] at found
      contradiction
    | awaiting peer unconnected found time reassembler events delivers =>
      rw [stage.awaiting, Finmap.lookup_empty] at found
      contradiction
  · right
    have hsource : datagram.source = address := by
      cases stage.opening.greets datagram hmem with
      | request packet isRequest source => exact source
      | accept packet isAccept source addressed =>
        exact absurd (addressed.symm.trans haddressed) hdistinct
    have hwellFormed := (booked.encoded datagram hmem).2
    rw [booked.raw_eq hmem] at hdecode
    cases hadmits with
    | again connectionId peer asking found =>
      rw [stage.requesting, Finmap.lookup_empty] at found
      contradiction
    | registered tracker unknown counted =>
      refine ⟨halone, stage.stored, ?_⟩
      have hqueue : scheduledAccepts (admitting pair.server.antarc.service packet packetId received
          tracker) = scheduledAccepts pair.server.antarc.service ++ [_] := rfl
      rw [stage.scheduled] at hqueue
      refine ⟨_, hqueue, ?_⟩
      rcases server_takes hwellFormed hdecode with
        ⟨header, hheader, -⟩ | ⟨request, hrequest, hfrom, -⟩
      · contradiction
      · cases hrequest
        exact hfrom.trans hsource

theorem Unknown.serverReceived (stage : Unknown address host pair)
    (booked : Booked crc32 asked pair) (hdistinct : address ≠ host)
    (hreads : pair.ServerReads later elapsed) (hmem : datagram ∈ pair.inFlight)
    (haddressed : datagram.transmission.raw.address = host)
    (h : pair.server.serverReceive crc32 hash peerHash received elapsed now (some datagram.raw) =
      .ok (events, net)) :
    Stage address host (pair.serverReceived datagram net later) := by
  have hlater : pair.now ≤ later := hreads.1.trans hreads.2
  obtain ⟨result, server, handler, connected, hreceived, hpoll, hconnected, hservice⟩ :=
    serverReceive_frame h
  have htail : storedAccepts net.antarc.service = (storedAccepts server).tail := by
    rw [hservice]
    exact serverHandler_poll (stored_poll hpoll).2
  have hcore : server.connected = ∅ → net.antarc.core.connected = ∅ := by
    intro halone
    change net.antarc.service.connected = ∅
    rw [hservice]
    exact updateEach_alone halone hconnected
  rcases stage.onReceived booked hdistinct hmem haddressed hreceived with
    rfl | ⟨halone, hnone, scheduled, hscheduled, haddress⟩
  · refine .unknown ⟨⟨stage.opening.client, hcore stage.opening.server,
      stage.opening.erase datagram⟩, ?_, ?_, ?_, ?_, ?_, ?_, stage.noted, ?_⟩
    · change net.antarc.service.requestingConnection = ∅
      rw [hservice]
      exact stage.requesting
    · change net.antarc.service.awaitingConnectionAck = ∅
      rw [hservice]
      exact stage.awaiting
    · change scheduledAccepts net.antarc.service = []
      rw [hservice]
      exact stage.scheduled
    · exact htail.trans (congrArg List.tail stage.stored)
    · exact (arrivingAt_erase host pair.inFlight datagram).length_le.trans stage.once
    · exact fun hawaits => arrivingAt_erase_nil datagram (stage.silent hawaits)
    · exact fun hawaits => (stage.kept hawaits).imp_right fun hover => hover.mono rfl hlater
  · have hawaits : Awaits host pair := by
      by_contra hnot
      have harriving : datagram ∈ arrivingAt host pair.inFlight :=
        List.mem_filter.mpr ⟨hmem, decide_eq_true haddressed⟩
      rw [stage.silent hnot] at harriving
      contradiction
    refine .greeted ⟨⟨stage.opening.client, hcore halone, stage.opening.erase datagram⟩, hawaits,
      arrivingAt_received stage.once hmem haddressed, .inl ⟨rfl, ?_, scheduled, ?_, haddress⟩⟩
    · exact htail.trans (congrArg List.tail hnone)
    · change scheduledAccepts net.antarc.service = [scheduled]
      rw [hservice]
      exact hscheduled

end Server

end Stages

end Antarc.Properties
