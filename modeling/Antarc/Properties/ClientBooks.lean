import Antarc.Properties.ClientTable

/-! The books of a client's driver: the ledger, the connection table, and what is known of
the requests that are queued, sent and kept for a retry. A request that was sent is
never sent again, because its peer has left the requesting map. -/
namespace Antarc.Properties

open Library

/-- `rest` are the requests that a pass has drained and not sent yet. -/
structure ClientSide (asked : List SocketAddr)
    (rest : List (Scheduled Reliable ConnectionRequest)) (net : AntarcNet Client) : Prop where
  table : ClientTable asked
    ((rest ++ net.antarc.service.scheduler.service.listScheduledConnectionRequest).map
      Scheduled.address) net.antarc.service
  requests : ∀ scheduled ∈
      rest ++ net.antarc.service.scheduler.service.listScheduledConnectionRequest,
    scheduled.message.metadata = ⟨connectionRequest⟩
  stored : ∀ packet ∈ net.antarc.service.reliabilityHandler.service.listSentConnectionRequest,
    ∃ transmission ∈ net.socket,
      lineOf transmission.packet = lineSent Body.connectionRequest packet
  contacted : ∀ transmission ∈ net.socket, (lineOf transmission.packet).address ∈ asked ∧
    (lineOf transmission.packet).address ∉ net.antarc.service.requestingConnection

theorem clientTable_new : ClientTable [] [] Client.new := by
  have hconnected : ∀ id, (Client.new.connected.lookup id) = none := fun id =>
    Finmap.lookup_empty id
  have hnone : ∀ id other, ¬ConnectedAt Client.new id other := by
    rintro id other ⟨peer, hfound, -⟩
    exact absurd ((hconnected id).symm.trans hfound) (by simp)
  exact
    { ownRequesting := fun other peer h => absurd ((Finmap.lookup_empty other).symm.trans h) (by simp)
      ownAwaiting := fun other peer h => absurd ((Finmap.lookup_empty other).symm.trans h) (by simp)
      ownId := fun id peer h => absurd ((hconnected id).symm.trans h) (by simp)
      disjoint := fun _ h => absurd h Finmap.notMem_empty
      apart := fun id other h => absurd h (hnone id other)
      single := fun id _ other h => absurd h (hnone id other)
      asked_iff := by
        refine fun other => ⟨fun h => absurd h List.not_mem_nil, ?_⟩
        rintro (h | h | ⟨id, h⟩)
        · exact absurd h Finmap.notMem_empty
        · exact absurd h Finmap.notMem_empty
        · exact absurd h (hnone id other)
      pending_nodup := .nil
      pending_iff := fun other =>
        ⟨fun h => absurd h List.not_mem_nil, fun h => absurd h Finmap.notMem_empty⟩ }

theorem ledger_newClient (crc32 : Crc32) (policy : Policy) (address : SocketAddr) :
    Ledger crc32 policy .start (.newClient address) := by
  refine .start rfl ?_ ?_ rfl
  · intro other trackers h
    exact absurd (clientTable_new.asked_of_holds h) List.not_mem_nil
  · intro queue hmem
    simpa [queues, AntarcNet.newClient, Protocol.newClient, Client.new, Scheduler.new,
      Protocol.core, Service.core] using hmem

theorem clientSide_new (address : SocketAddr) : ClientSide [] [] (.newClient address) where
  table := clientTable_new
  requests _ h := by contradiction
  stored _ h := by contradiction
  contacted _ h := by contradiction

theorem books_newClient (crc32 : Crc32) (policy : Policy) (address : SocketAddr) :
    Books crc32 policy .start (ClientSide [] []) (.newClient address) :=
  ⟨.start, ledger_newClient crc32 policy address, fun _ => rfl, .refl, clientSide_new address⟩

section Passes

variable {crc32 : Crc32} {policy : Policy} {asked : List SocketAddr}
  {numbering : Numbering SocketAddr PacketId} {net : AntarcNet Client}
  {rest : List (Scheduled Reliable ConnectionRequest)}

theorem stable_clientSide (crc32 : Crc32) (policy : Policy) (asked : List SocketAddr)
    (rest : List (Scheduled Reliable ConnectionRequest)) :
    Stable crc32 policy (ClientSide asked rest) := by
  intro net after numbering side carries ledger
  obtain ⟨core, hcore⟩ := carries.untouched.frame
  have hrequesting : after.antarc.service.requestingConnection =
      net.antarc.service.requestingConnection := by
    rw [hcore]
    rfl
  have hawaiting : after.antarc.service.awaitingConnectionAck =
      net.antarc.service.awaitingConnectionAck := by
    rw [hcore]
    rfl
  have hqueue : after.antarc.service.scheduler.service = net.antarc.service.scheduler.service :=
    carries.untouched.queue
  have hhandler : after.antarc.service.reliabilityHandler.service =
      net.antarc.service.reliabilityHandler.service := carries.untouched.handler
  have htable := side.table.congr hrequesting hawaiting carries.untouched.identities
  refine ⟨?_, ?_, ?_, ?_⟩
  · rw [hqueue]
    exact htable
  · rw [hqueue]
    exact side.requests
  · intro packet hpacket
    rw [hhandler] at hpacket
    obtain ⟨transmission, hmem, hline⟩ := side.stored packet hpacket
    exact ⟨transmission, carries.old transmission hmem, hline⟩
  · intro transmission hmem
    rcases carries.new transmission hmem with hold | hsome
    · rw [hrequesting]
      exact side.contacted transmission hold
    · -- A packet of a connection goes to a connected peer.
      obtain ⟨id, hid⟩ := Option.isSome_iff_exists.mp hsome
      have hat := (ledger.sent transmission hmem).connection id hid
      exact ⟨(htable.asked_iff _).mpr (.inr (.inr ⟨id, hat⟩)), (htable.apart id _ hat).1⟩

theorem ClientSide.congr (side : ClientSide asked rest net) {antarc : Protocol Client}
    (htable : ∀ pending, ClientTable asked pending net.antarc.service →
      ClientTable asked pending antarc.service)
    (hrequesting : antarc.service.requestingConnection = net.antarc.service.requestingConnection)
    (hqueue : antarc.service.scheduler.service = net.antarc.service.scheduler.service)
    (hkept : ∀ packet ∈ antarc.service.reliabilityHandler.service.listSentConnectionRequest,
      packet ∈ net.antarc.service.reliabilityHandler.service.listSentConnectionRequest) :
    ClientSide asked rest { net with antarc := antarc } where
  table := by
    simp only [hqueue]
    exact htable _ side.table
  requests := by
    simp only [hqueue]
    exact side.requests
  stored := fun packet hpacket => side.stored packet (hkept packet hpacket)
  contacted := by
    simp only [hrequesting]
    exact side.contacted

theorem advancesAt_requested {client next : Client} {pending : List SocketAddr}
    {address : SocketAddr} (table : ClientTable asked pending client)
    {peer advanced : Peer RequestingConnection} {time : Duration}
    (hfound : client.requestingConnection.lookup address = some peer)
    (hadvanced : peer.advance = .ok advanced)
    (hrequesting : next.requestingConnection = client.requestingConnection.erase address)
    (hawaiting : next.awaitingConnectionAck =
      client.awaitingConnectionAck.insert address (advanced.awaitConnectionAck time))
    (hconnected : next.connected = client.connected) (hdistinct : Distinct next) :
    AdvancesAt address client next := by
  obtain ⟨sequence, hsequence, rfl⟩ := advance_eq_ok.mp hadvanced
  have hnext := NonZeroU32.checkedAdd_one hsequence
  have hasking : address ∈ client.requestingConnection := Finmap.mem_of_lookup_eq_some hfound
  have hholds : Holds client address (trackersOf peer) := .inr (.inl ⟨peer, hfound, rfl⟩)
  refine ⟨⟨_, hholds⟩, ?_, ?_, ?_, hdistinct⟩
  · rintro other trackers (⟨id, found, hlookup, haddress, htrackers⟩ |
      ⟨found, hlookup, htrackers⟩ | ⟨found, hlookup, htrackers⟩)
    · left
      have hlookup' : client.connected.lookup id = some found := by
        rw [← hconnected]
        exact hlookup
      refine ⟨?_, .inl ⟨id, found, hlookup', haddress, htrackers⟩⟩
      rintro rfl
      exact (table.apart id _ ⟨found, hlookup', haddress⟩).1 hasking
    · left
      rw [hrequesting, lookup_erase_eq] at hlookup
      split at hlookup
      · contradiction
      · next hother => exact ⟨hother, .inr (.inl ⟨found, hlookup, htrackers⟩)⟩
    · rw [hawaiting, lookup_insert_eq] at hlookup
      split at hlookup
      · next hsame =>
        cases hlookup
        rw [hsame, ← htrackers]
        exact .inr ⟨rfl, _, hholds, hnext, rfl⟩
      · next hother => exact .inl ⟨hother, .inr (.inr ⟨found, hlookup, htrackers⟩)⟩
  · rintro other before (⟨id, found, hlookup, haddress, htrackers⟩ |
      ⟨found, hlookup, htrackers⟩ | ⟨found, hlookup, htrackers⟩)
    · refine ⟨before, .inl ⟨id, found, ?_, haddress, htrackers⟩⟩
      change next.connected.lookup id = some found
      rw [hconnected]
      exact hlookup
    · by_cases hsame : other = address
      · rw [hsame]
        exact ⟨_, .inr (.inr ⟨_, hawaiting ▸ Finmap.lookup_insert _, rfl⟩)⟩
      · refine ⟨before, .inr (.inl ⟨found, ?_, htrackers⟩)⟩
        rw [hrequesting, Finmap.lookup_erase_ne hsame]
        exact hlookup
    · by_cases hsame : other = address
      · rw [hsame] at hlookup
        exact absurd (Finmap.mem_of_lookup_eq_some hlookup) (table.disjoint address hasking)
      · refine ⟨before, .inr (.inr ⟨found, ?_, htrackers⟩)⟩
        rw [hawaiting, Finmap.lookup_insert_of_ne _ hsame]
        exact hlookup
  · intro id other
    rw [connectedAt_iff, connectedAt_iff]
    exact Eq.congr_left (congrArg (fun map => (map.lookup id).map Peer.address) hconnected)

variable {start : Numbering SocketAddr PacketId}

theorem ClientSide.requested {scheduled : Scheduled Reliable ConnectionRequest}
    {packet : Packet ToSend ConnectionRequest} {antarc : Protocol Client} {now : Duration}
    (side : ClientSide asked (scheduled :: rest) net)
    (ledger : Ledger crc32 policy numbering (handed crc32 net packet true))
    (stamped : Stamped net.antarc.service scheduled packet)
    (h : net.antarc.sentConnectionRequest packet now = .ok antarc) :
    Ledger crc32 policy (numbering.advance scheduled.address)
        { handed crc32 net packet true with antarc := antarc } ∧
      ClientSide asked rest { handed crc32 net packet true with antarc := antarc } := by
  obtain ⟨peer, advanced, hfound, hadvanced, rfl⟩ := sentConnectionRequest_frame h
  have haddress := stamped.address
  have hpeer : (advanced.awaitConnectionAck now).address = packet.delivery.metadata.address := by
    obtain ⟨sequence, -, rfl⟩ := advance_eq_ok.mp hadvanced
    exact side.table.ownRequesting _ peer hfound
  have hbefore := side.table
  simp only [List.cons_append, List.map_cons, ← haddress] at hbefore
  have htable : ClientTable asked _ (Properties.requested net.antarc.service packet advanced now
      net.antarc.reliableTtl) := hbefore.of_requested hpeer rfl rfl rfl
  have hnew : (handed crc32 net packet true).socket =
      net.socket ++ [⟨packet.datagram crc32, .connectionRequest packet, true⟩] := rfl
  have hadvances : AdvancesAt packet.delivery.metadata.address net.antarc.service
      (Properties.requested net.antarc.service packet advanced now net.antarc.reliableTtl) :=
    advancesAt_requested hbefore hfound hadvanced rfl rfl rfl htable.distinct
  refine ⟨?_, htable, ?_, ?_, ?_⟩
  · rw [← haddress]
    exact ledger.advance hadvances ledger.queued ledger.stored
  · exact fun other hmem => side.requests other (List.mem_cons_of_mem _ hmem)
  · intro kept hkept
    rcases List.mem_append.mp hkept with hkept | hkept
    · obtain ⟨transmission, hmem, hline⟩ := side.stored kept hkept
      exact ⟨transmission, List.mem_append_left _ hmem, hline⟩
    · rw [List.mem_singleton.mp hkept]
      exact ⟨_, List.mem_append_right _ (List.mem_singleton_self _), rfl⟩
  · intro transmission hmem
    change _ ∧ _ ∉ net.antarc.service.requestingConnection.erase packet.delivery.metadata.address
    rw [Finmap.mem_erase]
    rcases List.mem_append.mp hmem with hmem | hmem
    · obtain ⟨hasked, hout⟩ := side.contacted transmission hmem
      exact ⟨hasked, fun h => hout h.2⟩
    · rw [List.mem_singleton.mp hmem]
      refine ⟨(hbefore.asked_iff _).mpr (.inl ?_), fun h => h.1 rfl⟩
      exact Finmap.mem_of_lookup_eq_some hfound

theorem BooksAt.pollConnectionRequest
    (books : BooksAt crc32 policy start (ClientSide asked []) numbering net)
    (clock : Nat → Duration) :
    Ensures (fun after => ∃ later, BooksAt crc32 policy start (ClientSide asked []) later after ∧
        SendsFirst numbering net.socket
          (net.antarc.service.scheduler.service.listScheduledConnectionRequest.map entryOf) later
          after.socket)
      (Stands crc32) (net.pollConnectionRequest crc32 clock) := by
  obtain ⟨ledger, settled, hsteps, side⟩ := books
  let queue := net.antarc.service.scheduler.service.listScheduledConnectionRequest
  let drained : Protocol Client := { net.antarc with service := { net.antarc.service with
    scheduler := { net.antarc.service.scheduler with service := ⟨[]⟩ } } }
  have hdrain : net.antarc.drainConnectionRequest 0 queue.length = .ok (queue, drained) := by
    unfold Protocol.drainConnectionRequest Client.drainConnectionRequest
    simp only [queue, drainRange_all, ok_bind]
    rfl
  have hledger : Ledger crc32 policy numbering { net with antarc := drained } :=
    ledger.stay (fun _ => rfl) rfl ledger.queued ledger.stored
  have hside : ClientSide asked queue { net with antarc := drained } := by
    refine ⟨?_, ?_, side.stored, side.contacted⟩
    · rw [List.append_nil]
      exact side.table.congr rfl rfl fun _ => rfl
    · rw [List.append_nil]
      exact side.requests
  have hbooks : BooksAt crc32 policy start (ClientSide asked queue) numbering
      { net with antarc := drained } := ⟨hledger, settled, hsteps, hside⟩
  unfold AntarcNet.pollConnectionRequest AntarcNet.pollQueue
  dsimp only
  rw [hdrain]
  refine ensures_sendsFirst
    (fun rest numbering net => BooksAt crc32 policy start (ClientSide asked rest) numbering net)
    ?_ clock hbooks
  rintro scheduled rest numbering net createdAt accountedAt ⟨ledger, settled, hsteps, side⟩
  have hwellFormed : (Bodied.body scheduled.message).WellFormed :=
    side.requests scheduled List.mem_cons_self
  refine ledger.send ?_ hwellFormed (fun id hid => by contradiction) (.inl (settled _)) ?_
  · intro packet hpacket
    obtain ⟨peer, hfound, hpacket⟩ := bind_eq_ok.mp hpacket
    cases hpacket
    exact ⟨rfl, rfl, rfl, peer.localAckTracker, .inr (.inl ⟨peer, expect_eq_ok.mp hfound, rfl⟩)⟩
  · intro packet antarc _ stamped hemitted hsent
    obtain ⟨haccounted, hside⟩ := side.requested hemitted stamped hsent
    exact stamped.sendsOne rfl (.inl (settled _)) ⟨haccounted, settled.sent _ _,
      hsteps.trans (.tail (.single (.emit _ _ (.inl (settled _)))) (.advance _)), hside⟩

theorem preserves_pollConnectionRequest (clock : Nat → Duration) :
    Preserves (Books crc32 policy start (ClientSide asked [])) (Stands crc32)
      (AntarcNet.pollConnectionRequest crc32 clock) := by
  intro net books
  obtain ⟨numbering, books⟩ := books.at
  exact (books.pollConnectionRequest clock).mono fun _ ⟨_, h, _⟩ => h.books

/-- A request that is kept has left its map, so the pass that sends one again stops. -/
theorem BooksAt.pollRetryConnectionRequest
    (books : BooksAt crc32 policy start (ClientSide asked []) numbering net)
    (clock : Nat → Duration) :
    Ensures (fun after => BooksAt crc32 policy start (ClientSide asked []) numbering after ∧
        after.socket = net.socket)
      (Stands crc32) (net.pollRetryConnectionRequest crc32 clock) := by
  obtain ⟨ledger, settled, hsteps, side⟩ := books
  refine ledger.sendStored ?_
  rintro ⟨packet, antarc⟩ hretry
  obtain ⟨list, hlast, rfl⟩ := resend_frame hretry
  obtain ⟨hlist, hpacket⟩ := retryLast_cases hlast
  have hledger : Ledger crc32 policy numbering { net with antarc := { net.antarc with
      service := { net.antarc.service with
        reliabilityHandler := { net.antarc.service.reliabilityHandler with
          service := { net.antarc.service.reliabilityHandler.service with
            listSentConnectionRequest := list } } } } } :=
    ledger.stay (fun _ => rfl) rfl ledger.queued ledger.stored
  refine ⟨hledger, ?_, ?_⟩
  · rintro -
    refine ⟨⟨hledger, settled, hsteps, side.table.congr rfl rfl fun _ => rfl, side.requests, ?_,
      side.contacted⟩, rfl⟩
    exact fun packet hmem => side.stored packet (hlist packet hmem)
  · rintro packet rfl
    obtain ⟨sent, hsent, rfl⟩ := hpacket packet rfl
    obtain ⟨old, hmem, hline⟩ := side.stored sent hsent
    refine ⟨⟨old, hmem, hline⟩, ?_⟩
    rintro old' hmem' hline' - next hnext
    obtain ⟨peer, advanced, hfound, -⟩ := sentConnectionRequest_frame hnext
    have hout := (side.contacted old hmem).2
    rw [hline] at hout
    exact absurd (Finmap.mem_of_lookup_eq_some hfound) hout

theorem preserves_pollRetryConnectionRequest (clock : Nat → Duration) :
    Preserves (Books crc32 policy start (ClientSide asked [])) (Stands crc32)
      (AntarcNet.pollRetryConnectionRequest crc32 clock) := by
  intro net books
  obtain ⟨numbering, books⟩ := books.at
  exact (books.pollRetryConnectionRequest clock).mono fun _ h => h.1.books

theorem preserves_clientSend (clock : Clock) :
    Preserves (Books crc32 policy start (ClientSide asked [])) (Stands crc32)
      (AntarcNet.clientSend crc32 clock) := by
  have stable := stable_clientSide crc32 policy asked []
  unfold AntarcNet.clientSend
  refine .comp (preserves_pollRetryConnectionRequest _) (.comp ?_
    (.comp (preserves_pollConnectionRequest _) (preserves_carried stable clock 3)))
  exact preserves_retry DataTransfer stable _

end Passes

section Calls

variable {crc32 : Crc32} {policy : Policy} {asked : List SocketAddr}
  {numbering start : Numbering SocketAddr PacketId} {net : AntarcNet Client}
  {antarc : Protocol Client} {now : Duration}

/-- What the books need of a packet that the client takes. -/
structure ClientMayHear (policy : Policy) (client : Client) (header : Header) : Prop where
  peer : ∀ address trackers, Holds client address trackers →
    (ConnectedAt client header.connectionId address ∨ address = header.source) →
    policy.peer address (trackersHearing trackers header)
  named : policy.id header.source header.connectionId

theorem Ledger.clientHears (ledger : Ledger crc32 policy numbering net)
    {pending : List SocketAddr} (table : ClientTable asked pending net.antarc.service)
    {header : Header} (may : ClientMayHear policy net.antarc.service header)
    {client : Client} (h : ClientHears net.antarc.service header client) :
    Ledger crc32 policy numbering { net with antarc := { net.antarc with service := client } } := by
  have hdistinct := (table.of_hears h).distinct
  cases h with
  | connected peer found reassembler events delivers =>
    refine ledger.heard found (may.peer _ _ (holds_of_connected found) ?_) reassembler events
    exact .inl ⟨peer, found, rfl⟩
  | awaiting peer unconnected found time events delivers =>
    let hearer := hearing (peer.connected time header.connectionId) header ∅
    have haddress : hearer.address = header.source := table.ownAwaiting _ _ found
    have hbefore : Holds net.antarc.service header.source (trackersOf peer) :=
      .inr (.inr ⟨peer, found, rfl⟩)
    let client : Client := { net.antarc.service with
      awaitingConnectionAck := net.antarc.service.awaitingConnectionAck.erase header.source
      connected := net.antarc.service.connected.insert header.connectionId hearer
      api := net.antarc.service.api ++ events }
    have hat : ∀ id address, ConnectedAt client id address ↔
        id = header.connectionId ∧ hearer.address = address ∨
          ConnectedAt net.antarc.service id address := connectedAt_insert unconnected rfl
    refine ledger.hears hbefore (may.peer _ _ hbefore (.inr rfl)) ?_ ?_
      (fun id address h => (hat id address).mpr (.inr h)) ?_ hdistinct rfl rfl
    · rintro other trackers (⟨id, found', hlookup, hother, htrackers⟩ |
        ⟨found', hlookup, htrackers⟩ | ⟨found', hlookup, htrackers⟩)
      · change (net.antarc.service.connected.insert header.connectionId hearer).lookup id =
          some found' at hlookup
        rw [lookup_insert_eq] at hlookup
        split at hlookup
        · cases hlookup
          exact .inr ⟨hother.symm.trans haddress, htrackers.symm⟩
        · exact .inl (.inl ⟨id, found', hlookup, hother, htrackers⟩)
      · exact .inl (.inr (.inl ⟨found', hlookup, htrackers⟩))
      · rw [lookup_erase_eq] at hlookup
        split at hlookup
        · contradiction
        · exact .inl (.inr (.inr ⟨found', hlookup, htrackers⟩))
    · rintro other trackers (⟨id, found', hlookup, hother, htrackers⟩ |
        ⟨found', hlookup, htrackers⟩ | ⟨found', hlookup, htrackers⟩)
      · obtain ⟨found'', hlookup'', haddress''⟩ :=
          (hat id other).mpr (.inr ⟨found', hlookup, hother⟩)
        exact ⟨_, .inl ⟨id, found'', hlookup'', haddress'', rfl⟩⟩
      · exact ⟨trackers, .inr (.inl ⟨found', hlookup, htrackers⟩)⟩
      · by_cases hsame : other = header.source
        · exact ⟨_, .inl ⟨header.connectionId, hearer, Finmap.lookup_insert _,
            haddress.trans hsame.symm, rfl⟩⟩
        · exact ⟨trackers, .inr (.inr ⟨found', (Finmap.lookup_erase_ne hsame).trans hlookup,
            htrackers⟩)⟩
    · intro id other h
      rcases (hat id other).mp h with ⟨rfl, hother⟩ | hold
      · rw [← hother, haddress]
        exact may.named
      · exact ledger.named id other hold

theorem clientReceived_onReceived {protocol after : Protocol Client} {raw : RawPacket}
    {result : Result Unit} (h : protocol.clientReceived crc32 raw now = .ok (result, after)) :
    protocol.service.onReceived crc32 raw now = .ok (result, after.service) ∧
      after = { protocol with service := after.service } := by
  obtain ⟨⟨_, service⟩, hreceived, h⟩ := bind_eq_ok.mp h
  cases h
  exact ⟨hreceived, rfl⟩

theorem BooksAt.clientReceived
    (books : BooksAt crc32 policy start (ClientSide asked []) numbering net)
    {raw : RawPacket} {result : Result Unit}
    (may : ∀ decoded, raw.decode crc32 DecodedForClient.tryFrom now = .ok (.ok decoded) →
      ClientMayHear policy net.antarc.service (forClientHeader decoded))
    (h : net.antarc.clientReceived crc32 raw now = .ok (result, antarc)) :
    BooksAt crc32 policy start (ClientSide asked []) numbering { net with antarc := antarc } := by
  obtain ⟨hreceived, hantarc⟩ := clientReceived_onReceived h
  obtain ⟨ledger, settled, hsteps, side⟩ := books
  rw [hantarc]
  rcases client_onReceived_cases hreceived with hsame | ⟨decoded, hdecode, -, hhears⟩
  · rw [hsame]
    exact ⟨ledger, settled, hsteps, side⟩
  · refine ⟨ledger.clientHears side.table (may decoded hdecode) hhears, settled, hsteps, ?_⟩
    obtain ⟨hrequesting, hscheduler, hhandler⟩ := hhears.kept
    refine side.congr (fun _ table => table.of_hears hhears) hrequesting
      (congrArg Scheduler.service hscheduler) ?_
    rw [hhandler]
    exact fun packet hpacket => hpacket

theorem Books.clientReceived (books : Books crc32 policy start (ClientSide asked []) net)
    {raw : RawPacket} {result : Result Unit}
    (may : ∀ decoded, raw.decode crc32 DecodedForClient.tryFrom now = .ok (.ok decoded) →
      ClientMayHear policy net.antarc.service (forClientHeader decoded))
    (h : net.antarc.clientReceived crc32 raw now = .ok (result, antarc)) :
    Books crc32 policy start (ClientSide asked []) { net with antarc := antarc } := by
  obtain ⟨numbering, books⟩ := books.at
  exact (books.clientReceived may h).books

theorem BooksAt.clientPoll (books : BooksAt crc32 policy start (ClientSide asked []) numbering net)
    {events : List (ProtocolEvent ClientEvent)} {elapsed : Duration}
    (h : net.antarc.clientPoll elapsed = .ok (events, antarc)) :
    BooksAt crc32 policy start (ClientSide asked []) numbering { net with antarc := antarc } := by
  obtain ⟨handler, hhandler, -, rfl⟩ := clientPoll_frame h
  obtain ⟨hstored, hservice⟩ := stored_poll hhandler
  obtain ⟨ledger, settled, hsteps, side⟩ := books
  refine ⟨?_, settled, hsteps, ?_⟩
  · exact ledger.stay (fun _ => rfl) rfl ledger.queued fun line hline =>
      ledger.stored line (hstored line hline)
  · have hkept : ∀ packet ∈ handler.service.listSentConnectionRequest,
        packet ∈ net.antarc.service.reliabilityHandler.service.listSentConnectionRequest := by
      rw [clientHandler_poll hservice]
      exact fun packet => List.mem_of_mem_tail
    exact side.congr (fun _ table => table.congr rfl rfl fun _ => rfl) rfl rfl hkept

theorem Books.clientPoll (books : Books crc32 policy start (ClientSide asked []) net)
    {events : List (ProtocolEvent ClientEvent)} {elapsed : Duration}
    (h : net.antarc.clientPoll elapsed = .ok (events, antarc)) :
    Books crc32 policy start (ClientSide asked []) { net with antarc := antarc } := by
  obtain ⟨numbering, books⟩ := books.at
  exact (books.clientPoll h).books

theorem BooksAt.connect (books : BooksAt crc32 policy start (ClientSide asked []) numbering net)
    {address : SocketAddr} {result : Result Unit}
    (htrusted : policy.peer address (freshTrackers 0))
    (h : net.antarc.connect address now = .ok (result, antarc)) :
    (∃ error, result = .error error ∧ antarc = net.antarc) ∨
      result = .ok () ∧
        BooksAt crc32 policy start (ClientSide (asked ++ [address]) []) numbering
          { net with antarc := antarc } := by
  rcases connect_cases h with ⟨error, hresult, hsame⟩ | ⟨tracker, hunknown, -, hresult, rfl⟩
  · exact .inl ⟨error, hresult, hsame⟩
  refine .inr ⟨hresult, ?_⟩
  obtain ⟨ledger, settled, hsteps, side⟩ := books
  have htable := side.table.of_connecting hunknown net.antarc.packetIdTracker now
  have hnew : address ∉ asked := by
    rw [← side.table.known_iff, hunknown]
    simp
  refine ⟨?_, settled, hsteps, ?_, ?_, side.stored, ?_⟩
  · let client := connecting net.antarc.service address net.antarc.packetIdTracker now
    have hholds : ∀ other trackers, Holds client other trackers →
        Holds net.antarc.service other trackers ∨ other = address ∧ trackers = freshTrackers 0 := by
      rintro other trackers (hconnected | ⟨peer, hlookup, htrackers⟩ | hawaiting)
      · exact .inl (.inl hconnected)
      · change (net.antarc.service.requestingConnection.insert address _).lookup other =
          some peer at hlookup
        rw [lookup_insert_eq] at hlookup
        split at hlookup
        · next hsame =>
          cases hlookup
          exact .inr ⟨hsame, htrackers.symm⟩
        · exact .inl (.inr (.inl ⟨peer, hlookup, htrackers⟩))
      · exact .inl (.inr (.inr hawaiting))
    have hkept : ∀ other trackers, Holds net.antarc.service other trackers →
        ∃ later, Holds client other later := by
      intro other trackers hold
      have hne : other ≠ address := by
        rintro rfl
        exact hnew (side.table.asked_of_holds hold)
      rcases hold with hconnected | ⟨peer, hlookup, htrackers⟩ | hawaiting
      · exact ⟨trackers, .inl hconnected⟩
      · exact ⟨trackers, .inr (.inl ⟨peer, (Finmap.lookup_insert_of_ne _ hne).trans hlookup,
          htrackers⟩)⟩
      · exact ⟨trackers, .inr (.inr hawaiting)⟩
    refine ledger.follow ⟨?_, hkept, fun _ _ h => h, htable.distinct⟩ ?_ ledger.named ledger.queued
      ledger.stored
    · intro other trackers h
      rcases hholds other trackers h with hold | ⟨rfl, rfl⟩
      · exact .inl ⟨trackers, hold, rfl⟩
      · exact .inr ⟨fun before hbefore => hnew (side.table.asked_of_holds hbefore), rfl⟩
    · intro other trackers h
      rcases hholds other trackers h with hold | ⟨rfl, rfl⟩
      · exact ledger.trusted other trackers hold
      · exact htrusted
  · change ClientTable _ (([] ++ (_ ++ [_])).map Scheduled.address) _
    rw [List.nil_append, List.map_append]
    exact htable
  · intro scheduled hmem
    change scheduled ∈ [] ++ (_ ++ [_]) at hmem
    rw [List.nil_append, List.mem_append, List.mem_singleton] at hmem
    rcases hmem with hmem | rfl
    · exact side.requests scheduled hmem
    · rfl
  · intro transmission hmem
    obtain ⟨hasked, hout⟩ := side.contacted transmission hmem
    refine ⟨List.mem_append_left _ hasked, ?_⟩
    change _ ∉ net.antarc.service.requestingConnection.insert address _
    rw [Finmap.mem_insert, not_or]
    refine ⟨?_, hout⟩
    intro hsame
    exact hnew (hsame ▸ hasked)

theorem Books.connect (books : Books crc32 policy start (ClientSide asked []) net)
    {address : SocketAddr} {result : Result Unit}
    (htrusted : policy.peer address (freshTrackers 0))
    (h : net.antarc.connect address now = .ok (result, antarc)) :
    (∃ error, result = .error error ∧ antarc = net.antarc) ∨
      result = .ok () ∧
        Books crc32 policy start (ClientSide (asked ++ [address]) [])
          { net with antarc := antarc } := by
  obtain ⟨numbering, books⟩ := books.at
  rcases books.connect htrusted h with hrefused | ⟨hresult, hbooks⟩
  · exact .inl hrefused
  · exact .inr ⟨hresult, hbooks.books⟩

theorem BooksAt.clientReceive
    (books : BooksAt crc32 policy start (ClientSide asked []) numbering net)
    (received elapsed : Duration) (datagram : Option RawPacket)
    (may : ∀ raw decoded, datagram = some raw →
      raw.decode crc32 DecodedForClient.tryFrom received = .ok (.ok decoded) →
      ClientMayHear policy net.antarc.service (forClientHeader decoded)) :
    Ensures (fun result => BooksAt crc32 policy start (ClientSide asked []) numbering result.2)
      (Stands crc32) (net.clientReceive crc32 received elapsed datagram) := by
  have stable := stable_clientSide crc32 policy asked []
  unfold AntarcNet.clientReceive
  cases datagram with
  | none => exact books.ledger.attempt fun _ h => by contradiction
  | some raw =>
    have hreceived : ∀ result, net.antarc.clientReceived crc32 raw received = .ok result →
        BooksAt crc32 policy start (ClientSide asked []) numbering
          { net with antarc := result.2 } :=
      fun result h => books.clientReceived (fun decoded => may raw decoded rfl) h
    apply (books.ledger.attempt hreceived).bind
    rintro ⟨outcome, antarc⟩ hbooks
    replace hbooks := hbooks.report stable outcome
    apply (hbooks.ledger.attempt fun result => hbooks.clientPoll).bind
    exact fun _ h => h

theorem Books.clientReceive (books : Books crc32 policy start (ClientSide asked []) net)
    (received elapsed : Duration) (datagram : Option RawPacket)
    (may : ∀ raw decoded, datagram = some raw →
      raw.decode crc32 DecodedForClient.tryFrom received = .ok (.ok decoded) →
      ClientMayHear policy net.antarc.service (forClientHeader decoded)) :
    Ensures (fun result => Books crc32 policy start (ClientSide asked []) result.2) (Stands crc32)
      (net.clientReceive crc32 received elapsed datagram) := by
  obtain ⟨numbering, books⟩ := books.at
  exact (books.clientReceive received elapsed datagram may).mono fun _ h => h.books

end Calls

end Antarc.Properties
