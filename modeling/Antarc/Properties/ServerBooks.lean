import Antarc.Properties.Hearing
import Antarc.Properties.ServerTable

/-! The books of a server's driver: the ledger, the connection table, and what is known of
the accepts that are queued, sent and kept for a retry. Each names an id and the
address that is registered under it. -/
namespace Antarc.Properties

open Library

/-- No peer of a server is requesting between two calls, so those awaiting are all that are
not connected. -/
instance : PeerTable Server where
  handshaking server address trackers := ∃ id peer,
    server.awaitingConnectionAck.lookup id = some peer ∧ peer.address = address ∧
      trackersOf peer = trackers
  handshaking_setCore _ _ := rfl
  promote_of_unknown _ _ _ _ _ := rfl

def AcceptOk (server : Server) (scheduled : Scheduled Reliable ConnectionAccepted) : Prop :=
  scheduled.message.metadata = ⟨connectionAccepted⟩ ∧
    addressOf server scheduled.message.connectionId = some scheduled.address

/-- `rest` are the accepts that a pass has drained and not sent yet. -/
structure ServerSide (registry : Registry SocketAddr)
    (rest : List (Scheduled Reliable ConnectionAccepted)) (net : AntarcNet Server) : Prop where
  table : ServerTable registry net.antarc.service
  queued : ∀ scheduled ∈
      rest ++ net.antarc.service.scheduler.service.listScheduledConnectionAccepted,
    AcceptOk net.antarc.service scheduled
  stored : ∀ packet ∈ net.antarc.service.reliabilityHandler.service.listSentConnectionAccepted,
    ∃ transmission ∈ net.socket,
      lineOf transmission.packet = lineSent Body.connectionAccepted packet
  sent : ∀ transmission ∈ net.socket, ∀ message,
    (lineOf transmission.packet).body = .connectionAccepted message →
    addressOf net.antarc.service message.connectionId =
      some (lineOf transmission.packet).address

section Table

variable {registry : Registry SocketAddr} {server next : Server}

theorem addressOf_of_connectedAt {id : ConnectionId} {address : SocketAddr}
    (h : ConnectedAt server id address) : addressOf server id = some address := by
  obtain ⟨peer, hfound, rfl⟩ := h
  exact ServerTable.addressOf_connected hfound

theorem ServerTable.distinct (table : ServerTable registry server) : Distinct server where
  connected := fun id id' address h h' =>
    table.injective (addressOf_of_connectedAt h) (addressOf_of_connectedAt h')
  apart := by
    rintro id _ trackers hat ⟨id', peer, hfound, rfl, -⟩
    have hid := table.injective (addressOf_of_connectedAt hat) (table.addressOf_awaiting hfound)
    obtain ⟨connected, hconnected, -⟩ := hat
    rw [hid] at hconnected
    exact table.disjoint id' (Finmap.mem_of_lookup_eq_some hfound)
      (Finmap.mem_of_lookup_eq_some hconnected)

theorem Untouched.samePeers (h : Untouched server next) : SamePeers server next := by
  obtain ⟨core, rfl⟩ := h.frame
  exact ⟨rfl, rfl, fun _ => rfl, h.identities⟩

theorem advancesAt_awaiting (table : ServerTable registry server) {id : ConnectionId}
    {peer advanced : Peer AwaitingConnectionAck}
    (hfound : server.awaitingConnectionAck.lookup id = some peer)
    (hadvanced : peer.advance = .ok advanced)
    (hawaiting : next.awaitingConnectionAck = server.awaitingConnectionAck.insert id advanced)
    (hconnected : next.connected = server.connected) (hdistinct : Distinct next) :
    AdvancesAt peer.address server next := by
  obtain ⟨sequence, hsequence, rfl⟩ := advance_eq_ok.mp hadvanced
  have hnext := NonZeroU32.checkedAdd_one hsequence
  have hholds : Holds server peer.address (trackersOf peer) := .inr ⟨id, peer, hfound, rfl, rfl⟩
  have hregistered := table.addressOf_awaiting hfound
  refine ⟨⟨_, hholds⟩, ?_, ?_, ?_, hdistinct⟩
  · rintro other trackers (⟨id', found, hlookup, haddress, htrackers⟩ |
      ⟨id', found, hlookup, haddress, htrackers⟩)
    · left
      change next.connected.lookup id' = some found at hlookup
      rw [hconnected] at hlookup
      refine ⟨?_, .inl ⟨id', found, hlookup, haddress, htrackers⟩⟩
      rintro rfl
      exact table.distinct.apart id' _ _ ⟨found, hlookup, haddress⟩ ⟨id, peer, hfound, rfl, rfl⟩
    · rw [hawaiting, lookup_insert_eq] at hlookup
      split at hlookup
      · cases hlookup
        rw [← haddress, ← htrackers]
        exact .inr ⟨rfl, _, hholds, hnext, rfl⟩
      · next hid =>
        refine .inl ⟨?_, .inr ⟨id', found, hlookup, haddress, htrackers⟩⟩
        rintro rfl
        exact hid (table.injective (haddress ▸ table.addressOf_awaiting hlookup) hregistered)
  · rintro other before (⟨id', found, hlookup, haddress, htrackers⟩ |
      ⟨id', found, hlookup, haddress, htrackers⟩)
    · refine ⟨before, .inl ⟨id', found, ?_, haddress, htrackers⟩⟩
      change next.connected.lookup id' = some found
      rw [hconnected]
      exact hlookup
    · by_cases hid : id' = id
      · rw [hid] at hlookup
        cases hlookup.symm.trans hfound
        exact ⟨_, .inr ⟨id, { peer with sequenceTracker := sequence },
          hawaiting ▸ Finmap.lookup_insert _, haddress, rfl⟩⟩
      · refine ⟨before, .inr ⟨id', found, ?_, haddress, htrackers⟩⟩
        rw [hawaiting, Finmap.lookup_insert_of_ne _ hid]
        exact hlookup
  · intro id' other
    rw [connectedAt_iff, connectedAt_iff]
    exact Eq.congr_left (congrArg (fun map => (map.lookup id').map Peer.address) hconnected)

end Table

section Passes

variable {crc32 : Crc32} {policy : Policy} {registry : Registry SocketAddr}
  {numbering start : Numbering SocketAddr PacketId} {net : AntarcNet Server}
  {rest : List (Scheduled Reliable ConnectionAccepted)}

theorem ServerSide.congr (side : ServerSide registry rest net) {antarc : Protocol Server}
    (hpeers : SamePeers net.antarc.service antarc.service)
    (hqueue : antarc.service.scheduler.service = net.antarc.service.scheduler.service)
    (hkept : ∀ packet ∈ antarc.service.reliabilityHandler.service.listSentConnectionAccepted,
      packet ∈ net.antarc.service.reliabilityHandler.service.listSentConnectionAccepted) :
    ServerSide registry rest { net with antarc := antarc } where
  table := side.table.of_samePeers hpeers
  queued := by
    unfold AcceptOk
    simp only [hqueue, hpeers.addressOf_eq]
    exact side.queued
  stored := fun packet hpacket => side.stored packet (hkept packet hpacket)
  sent := by
    simp only [hpeers.addressOf_eq]
    exact side.sent

theorem stable_serverSide (crc32 : Crc32) (policy : Policy) (registry : Registry SocketAddr)
    (rest : List (Scheduled Reliable ConnectionAccepted)) :
    Stable crc32 policy (ServerSide registry rest) := by
  intro net after numbering side carries ledger
  have hpeers := carries.untouched.samePeers
  have hqueue : after.antarc.service.scheduler.service = net.antarc.service.scheduler.service :=
    carries.untouched.queue
  have hhandler : after.antarc.service.reliabilityHandler.service =
      net.antarc.service.reliabilityHandler.service := carries.untouched.handler
  refine ⟨side.table.of_samePeers hpeers, ?_, ?_, ?_⟩
  · unfold AcceptOk
    simp only [hqueue, hpeers.addressOf_eq]
    exact side.queued
  · intro packet hpacket
    rw [hhandler] at hpacket
    obtain ⟨transmission, hmem, hline⟩ := side.stored packet hpacket
    exact ⟨transmission, carries.old transmission hmem, hline⟩
  · intro transmission hmem message hmessage
    rw [hpeers.addressOf_eq]
    rcases carries.new transmission hmem with hold | hsome
    · exact side.sent transmission hold message hmessage
    · rw [hmessage] at hsome
      contradiction

theorem ServerSide.handed {scheduled : Scheduled Reliable ConnectionAccepted}
    {packet : Packet ToSend ConnectionAccepted}
    (side : ServerSide registry (scheduled :: rest) net)
    (stamped : Stamped net.antarc.service scheduled packet) :
    ServerSide registry rest (Properties.handed crc32 net packet true) where
  table := side.table
  queued := fun other hmem => side.queued other (List.mem_cons_of_mem _ hmem)
  stored := by
    intro kept hkept
    obtain ⟨transmission, hmem, hline⟩ := side.stored kept hkept
    exact ⟨transmission, List.mem_append_left _ hmem, hline⟩
  sent := by
    intro transmission hmem message hmessage
    rcases List.mem_append.mp hmem with hmem | hmem
    · exact side.sent transmission hmem message hmessage
    · rw [List.mem_singleton.mp hmem] at hmessage ⊢
      cases hmessage
      change addressOf _ packet.message.connectionId = some packet.delivery.metadata.address
      rw [stamped.message, stamped.address]
      exact (side.queued scheduled List.mem_cons_self).2

theorem ServerSide.resent (side : ServerSide registry rest net) (transmission : Transmission)
    {old : Transmission} (hold : old ∈ net.socket)
    (hline : lineOf transmission.packet = lineOf old.packet) :
    ServerSide registry rest { net with socket := net.socket ++ [transmission] } where
  table := side.table
  queued := side.queued
  stored := by
    intro kept hkept
    obtain ⟨other, hmem, hother⟩ := side.stored kept hkept
    exact ⟨other, List.mem_append_left _ hmem, hother⟩
  sent := by
    intro other hmem message hmessage
    rcases List.mem_append.mp hmem with hmem | hmem
    · exact side.sent other hmem message hmessage
    · rw [List.mem_singleton.mp hmem, hline] at hmessage ⊢
      exact side.sent old hold message hmessage

theorem ServerSide.acceptSent (side : ServerSide registry rest net)
    (ledger : Ledger crc32 policy numbering net) {packet : Packet ToSend ConnectionAccepted}
    {antarc : Protocol Server} {now : Duration}
    (hsent : ∃ transmission ∈ net.socket,
      lineOf transmission.packet = lineToSend Body.connectionAccepted packet)
    (h : net.antarc.sentConnectionAccepted packet now = .ok antarc) :
    ServerSide registry rest { net with antarc := antarc } ∧
      ((net.antarc.service.awaitingConnectionAck.lookup packet.message.connectionId = none ∧
          Ledger crc32 policy numbering { net with antarc := antarc }) ∨
        (∃ peer, net.antarc.service.awaitingConnectionAck.lookup packet.message.connectionId =
            some peer) ∧
          Ledger crc32 policy (numbering.advance packet.delivery.metadata.address)
            { net with antarc := antarc }) := by
  have hpeers := samePeers_sentConnectionAccepted h
  obtain ⟨awaiting, hawaiting, rfl⟩ := sentConnectionAccepted_frame h
  obtain ⟨transmission, hmem, hline⟩ := hsent
  refine ⟨⟨side.table.of_samePeers hpeers, ?_, ?_, ?_⟩, ?_⟩
  · unfold AcceptOk
    simp only [hpeers.addressOf_eq]
    exact side.queued
  · intro kept hkept
    rcases List.mem_append.mp hkept with hkept | hkept
    · exact side.stored kept hkept
    · rw [List.mem_singleton.mp hkept]
      exact ⟨transmission, hmem, hline⟩
  · simp only [hpeers.addressOf_eq]
    exact side.sent
  · rcases hawaiting with ⟨hnone, rfl⟩ | ⟨peer, advanced, hfound, hadvanced, rfl⟩
    · exact .inl ⟨hnone, ledger.stay (fun _ => rfl) rfl ledger.queued ledger.stored⟩
    · refine .inr ⟨⟨peer, hfound⟩, ?_⟩
      have hregistered := side.sent transmission hmem packet.message (by rw [hline]; rfl)
      rw [hline, side.table.addressOf_awaiting hfound] at hregistered
      have haddress : peer.address = packet.delivery.metadata.address :=
        Option.some.inj hregistered
      rw [← haddress]
      exact ledger.advance (advancesAt_awaiting side.table hfound hadvanced rfl rfl
        (side.table.of_samePeers hpeers).distinct) ledger.queued ledger.stored

theorem BooksAt.pollConnectionAccepted
    (books : BooksAt crc32 policy start (ServerSide registry []) numbering net)
    (clock : Nat → Duration) :
    Ensures (fun after => ∃ later, BooksAt crc32 policy start (ServerSide registry []) later after ∧
        SendsFirst numbering net.socket
          (net.antarc.service.scheduler.service.listScheduledConnectionAccepted.map entryOf) later
          after.socket)
      (Stands crc32) (net.pollConnectionAccepted crc32 clock) := by
  obtain ⟨ledger, settled, hsteps, side⟩ := books
  let queue := net.antarc.service.scheduler.service.listScheduledConnectionAccepted
  let drained : Protocol Server := { net.antarc with service := { net.antarc.service with
    scheduler := { net.antarc.service.scheduler with service := ⟨[]⟩ } } }
  have hdrain : net.antarc.drainConnectionAccepted 0 queue.length = .ok (queue, drained) := by
    unfold Protocol.drainConnectionAccepted Server.drainConnectionAccepted
    simp only [queue, drainRange_all, ok_bind]
    rfl
  have hledger : Ledger crc32 policy numbering { net with antarc := drained } :=
    ledger.stay (fun _ => rfl) rfl ledger.queued ledger.stored
  have hside : ServerSide registry queue { net with antarc := drained } := by
    refine ⟨side.table.of_samePeers ⟨rfl, rfl, fun _ => rfl, fun _ => rfl⟩, ?_, side.stored,
      side.sent⟩
    rw [List.append_nil]
    exact side.queued
  have hbooks : BooksAt crc32 policy start (ServerSide registry queue) numbering
      { net with antarc := drained } := ⟨hledger, settled, hsteps, hside⟩
  unfold AntarcNet.pollConnectionAccepted AntarcNet.pollQueue
  dsimp only
  rw [hdrain]
  refine ensures_sendsFirst
    (fun rest numbering net => BooksAt crc32 policy start (ServerSide registry rest) numbering net)
    ?_ clock hbooks
  rintro scheduled rest numbering net createdAt accountedAt ⟨ledger, settled, hsteps, side⟩
  obtain ⟨hmetadata, hregistered⟩ := side.queued scheduled List.mem_cons_self
  have hwellFormed : (Bodied.body scheduled.message).WellFormed := hmetadata
  -- The accept is made from the trackers of the peer that awaits under its id.
  have hcreated : ∀ packet, net.antarc.createConnectionAccepted scheduled createdAt = .ok packet →
      Stamped net.antarc.service scheduled packet ∧ ∃ peer,
        net.antarc.service.awaitingConnectionAck.lookup scheduled.message.connectionId =
          some peer := by
    intro packet hpacket
    obtain ⟨peer, hfound, hpacket⟩ := bind_eq_ok.mp hpacket
    cases hpacket
    have hfound' := expect_eq_ok.mp hfound
    have haddress : peer.address = scheduled.address :=
      Option.some.inj ((side.table.addressOf_awaiting hfound').symm.trans hregistered)
    exact ⟨⟨rfl, rfl, rfl, peer.localAckTracker, .inr ⟨_, peer, hfound', haddress, rfl⟩⟩,
      peer, hfound'⟩
  refine ledger.send (fun packet hpacket => (hcreated packet hpacket).1) hwellFormed
    (fun id hid => by contradiction) (.inl (settled _)) ?_
  intro packet antarc hpacket stamped hemitted hsent
  have hnew : ∃ transmission ∈ (handed crc32 net packet true).socket,
      lineOf transmission.packet = lineToSend Body.connectionAccepted packet :=
    ⟨_, List.mem_append_right _ (List.mem_singleton_self _), rfl⟩
  obtain ⟨hside, ⟨hnone, -⟩ | ⟨-, haccounted⟩⟩ :=
    (side.handed stamped).acceptSent hemitted hnew hsent
  · obtain ⟨-, peer, hfound⟩ := hcreated packet hpacket
    rw [stamped.message] at hnone
    exact absurd (hnone.symm.trans hfound) (by simp)
  · rw [stamped.address] at haccounted
    exact stamped.sendsOne rfl (.inl (settled _)) ⟨haccounted, settled.sent _ _,
      hsteps.trans (.tail (.single (.emit _ _ (.inl (settled _)))) (.advance _)), hside⟩

theorem preserves_pollConnectionAccepted (clock : Nat → Duration) :
    Preserves (Books crc32 policy start (ServerSide registry [])) (Stands crc32)
      (AntarcNet.pollConnectionAccepted crc32 clock) := by
  intro net books
  obtain ⟨numbering, books⟩ := books.at
  exact (books.pollConnectionAccepted clock).mono fun _ ⟨_, h, _⟩ => h.books

theorem Settled.advance (settled : Settled numbering) (address : SocketAddr) :
    Settled (numbering.advance address) := by
  intro other
  by_cases hsame : other = address
  · simp only [Numbering.advance, hsame, Function.update_self]
  · simp only [Numbering.advance, Function.update_of_ne hsame, settled other]

/-- Where the next number moves on, when an accept is sent again: its peer may have been
connected meanwhile. -/
def movedByAccept (server : Server) (packet : Option (Packet ToSend ConnectionAccepted)) :
    Option SocketAddr :=
  packet.bind fun packet => (server.awaitingConnectionAck.lookup packet.message.connectionId).map
    fun _ => packet.delivery.metadata.address

theorem BooksAt.pollRetryConnectionAccepted
    (books : BooksAt crc32 policy start (ServerSide registry []) numbering net)
    (clock : Nat → Duration) :
    Ensures (fun after => ∃ later, BooksAt crc32 policy start (ServerSide registry []) later after ∧
        ∃ packet antarc,
          net.antarc.retryReliableConnectionAccepted (clock 0) = .ok (packet, antarc) ∧
          SendsAgain numbering net.socket (movedByAccept net.antarc.service packet) later
            after.socket)
      (Stands crc32) (net.pollRetryConnectionAccepted crc32 clock) := by
  obtain ⟨ledger, settled, hsteps, side⟩ := books
  refine ledger.sendStored ?_
  rintro ⟨packet, antarc⟩ hretry
  have hpeers := samePeers_retryConnectionAccepted hretry
  obtain ⟨list, hlast, rfl⟩ := retryConnectionAccepted_frame hretry
  obtain ⟨hlist, hpacket⟩ := retryLast_cases hlast
  have hledger : Ledger crc32 policy numbering { net with antarc := { net.antarc with
      service := { net.antarc.service with
        reliabilityHandler := { net.antarc.service.reliabilityHandler with
          service := { net.antarc.service.reliabilityHandler.service with
            listSentConnectionAccepted := list } } } } } :=
    ledger.stay (fun _ => rfl) rfl ledger.queued ledger.stored
  have hside := side.congr hpeers rfl hlist
  refine ⟨hledger, ?_, ?_⟩
  · rintro rfl
    exact ⟨numbering, ⟨hledger, settled, hsteps, hside⟩, none, _, hretry, .nothing⟩
  rintro packet rfl
  obtain ⟨sent, hsent, heq⟩ := hpacket packet rfl
  have hstored := side.stored sent hsent
  rw [show lineSent Body.connectionAccepted sent = lineToSend Bodied.body packet by
    rw [heq]; rfl] at hstored
  refine ⟨hstored, ?_⟩
  intro old hmem hline hresent next hnext
  have hresends : Numbering.machine.Steps start (numbering.resend (sendingOf old)) := by
    refine hsteps.tail (.resend _ ?_)
    rw [ledger.log]
    exact List.mem_map_of_mem hmem
  have hsettled : Settled (numbering.resend (sendingOf old)) := settled
  have hnew : ∃ transmission ∈ (handed crc32 net packet false).socket,
      lineOf transmission.packet = lineToSend Body.connectionAccepted packet :=
    ⟨_, List.mem_append_right _ (List.mem_singleton_self _), rfl⟩
  have hline' : lineOf (Sendable.outgoing packet) = lineOf old.packet := hline.symm
  let again : Transmission := ⟨packet.datagram crc32, Sendable.outgoing packet, false⟩
  obtain ⟨hside, ⟨hnone, haccounted⟩ | ⟨⟨peer, hfound⟩, haccounted⟩⟩ :=
    (hside.resent ⟨_, _, false⟩ hmem hline').acceptSent hresent hnew hnext
  · refine ⟨_, ⟨haccounted, hsettled, hresends, hside⟩, some packet, _, hretry, ?_⟩
    have hmoved : movedByAccept net.antarc.service (some packet) = none :=
      congrArg (Option.map _) hnone
    rw [hmoved]
    exact .resent again _ rfl
  · refine ⟨_, ⟨haccounted, hsettled.advance _, hresends.tail (.advance _), hside⟩, some packet, _,
      hretry, ?_⟩
    have hmoved : movedByAccept net.antarc.service (some packet) =
        some packet.delivery.metadata.address := congrArg (Option.map _) hfound
    rw [hmoved]
    exact .moved again _ rfl _ ⟨old, hmem, congrArg Line.address hline⟩

theorem preserves_pollRetryConnectionAccepted (clock : Nat → Duration) :
    Preserves (Books crc32 policy start (ServerSide registry [])) (Stands crc32)
      (AntarcNet.pollRetryConnectionAccepted crc32 clock) := by
  intro net books
  obtain ⟨numbering, books⟩ := books.at
  exact (books.pollRetryConnectionAccepted clock).mono fun _ ⟨_, h, _⟩ => h.books

theorem preserves_serverSend (clock : Clock) :
    Preserves (Books crc32 policy start (ServerSide registry [])) (Stands crc32)
      (AntarcNet.serverSend crc32 clock) := by
  have stable := stable_serverSide crc32 policy registry []
  unfold AntarcNet.serverSend
  refine .comp (preserves_pollRetryConnectionAccepted _) (.comp ?_ (.comp ?_
    (.comp (preserves_pollConnectionAccepted _) (preserves_carried stable clock 4))))
  · exact preserves_retry DataTransfer stable _
  · exact preserves_retry Fragment stable _

end Passes

section Calls

variable {crc32 : Crc32} {policy : Policy} {registry : Registry SocketAddr}
  {numbering start : Numbering SocketAddr PacketId} {net : AntarcNet Server}
  {antarc : Protocol Server} {server : Server}

/-- What the books need of a packet that the server takes. -/
structure ServerMayTake (policy : Policy) (server : Server) (decoded : DecodedForServer) :
    Prop where
  hear : ∀ header address trackers, forServerHeader decoded = some header →
    addressOf server header.connectionId = some address → Holds server address trackers →
    policy.peer address (trackersHearing trackers header) ∧ policy.id address header.connectionId
  register : ∀ packet, decoded = .connectionRequest packet →
    policy.peer packet.delivery.metadata.address (freshTrackers packet.sequence.get)

theorem ServerTable.registered_of_holds (table : ServerTable registry server)
    {address : SocketAddr} {trackers : Trackers} (h : Holds server address trackers) :
    ∃ id, addressOf server id = some address := by
  rcases h with ⟨id, peer, hfound, haddress, -⟩ | ⟨id, peer, hfound, rfl, -⟩
  · exact ⟨id, addressOf_of_connectedAt ⟨peer, hfound, haddress⟩⟩
  · exact ⟨id, table.addressOf_awaiting hfound⟩

theorem Ledger.serverHears (ledger : Ledger crc32 policy numbering net)
    (table : ServerTable registry net.antarc.service) {header : Header}
    (may : ∀ address trackers, addressOf net.antarc.service header.connectionId = some address →
      Holds net.antarc.service address trackers →
      policy.peer address (trackersHearing trackers header) ∧ policy.id address header.connectionId)
    (h : ServerHears net.antarc.service header server) :
    Ledger crc32 policy numbering { net with antarc := { net.antarc with service := server } } := by
  have hdistinct := (table.of_hears h).distinct
  cases h with
  | connected peer found reassembler events delivers =>
    have hmay := may _ _ (ServerTable.addressOf_connected found) (holds_of_connected found)
    exact ledger.heard found hmay.1 reassembler events
  | awaiting peer unconnected found time reassembler events delivers =>
    let hearer := hearing (peer.connected time header.connectionId) header reassembler
    let server : Server := { net.antarc.service with
      awaitingConnectionAck := net.antarc.service.awaitingConnectionAck.erase header.connectionId
      connected := net.antarc.service.connected.insert header.connectionId hearer
      api := net.antarc.service.api ++ events }
    have hbefore : Holds net.antarc.service peer.address (trackersOf peer) :=
      .inr ⟨_, peer, found, rfl, rfl⟩
    have hmay := may _ _ (table.addressOf_awaiting found) hbefore
    have hat : ∀ id address, ConnectedAt server id address ↔
        id = header.connectionId ∧ hearer.address = address ∨
          ConnectedAt net.antarc.service id address := connectedAt_insert unconnected rfl
    refine ledger.hears hbefore hmay.1 ?_ ?_ (fun id address h => (hat id address).mpr (.inr h))
      ?_ hdistinct rfl rfl
    · rintro other trackers (⟨id, found', hlookup, hother, htrackers⟩ |
        ⟨id, found', hlookup, hother, htrackers⟩)
      · change (net.antarc.service.connected.insert header.connectionId hearer).lookup id =
          some found' at hlookup
        rw [lookup_insert_eq] at hlookup
        split at hlookup
        · cases hlookup
          exact .inr ⟨hother.symm, htrackers.symm⟩
        · exact .inl (.inl ⟨id, found', hlookup, hother, htrackers⟩)
      · rw [lookup_erase_eq] at hlookup
        split at hlookup
        · contradiction
        · exact .inl (.inr ⟨id, found', hlookup, hother, htrackers⟩)
    · rintro other trackers (⟨id, found', hlookup, hother, htrackers⟩ |
        ⟨id, found', hlookup, hother, htrackers⟩)
      · obtain ⟨found'', hlookup'', haddress''⟩ :=
          (hat id other).mpr (.inr ⟨found', hlookup, hother⟩)
        exact ⟨_, .inl ⟨id, found'', hlookup'', haddress'', rfl⟩⟩
      · by_cases hid : id = header.connectionId
        · rw [hid] at hlookup
          cases hlookup.symm.trans found
          exact ⟨_, .inl ⟨header.connectionId, hearer, Finmap.lookup_insert _, hother, rfl⟩⟩
        · exact ⟨trackers, .inr ⟨id, found', (Finmap.lookup_erase_ne hid).trans hlookup, hother,
            htrackers⟩⟩
    · intro id other h
      rcases (hat id other).mp h with ⟨rfl, hother⟩ | hold
      · rw [← hother]
        exact hmay.2
      · exact ledger.named id other hold

theorem Ledger.serverAdmits (ledger : Ledger crc32 policy numbering net)
    {later : Registry SocketAddr} (table : ServerTable registry net.antarc.service)
    {packet : Packet Received ConnectionRequest} {packetId : PacketId} {time : Duration}
    {tracker : ConnectionId}
    (hunknown : net.antarc.service.connectionRequestAnotherState
      packet.delivery.metadata.address = false)
    (hlater : ServerTable later (admitting net.antarc.service packet packetId time tracker))
    (htrusted : policy.peer packet.delivery.metadata.address
      (freshTrackers packet.sequence.get)) :
    Ledger crc32 policy numbering { net with antarc := { net.antarc with
      service := admitting net.antarc.service packet packetId time tracker } } := by
  have hnew : ∀ trackers, ¬Holds net.antarc.service packet.delivery.metadata.address trackers := by
    intro trackers h
    obtain ⟨id, hid⟩ := table.registered_of_holds h
    rw [known_of_addressOf hid] at hunknown
    contradiction
  obtain ⟨hawaiting, -⟩ := table.next_unused
  have hholds : ∀ other trackers,
      Holds (admitting net.antarc.service packet packetId time tracker) other trackers →
      Holds net.antarc.service other trackers ∨ other = packet.delivery.metadata.address ∧
        trackers = freshTrackers packet.sequence.get := by
    rintro other trackers (hconnected | ⟨id, peer, hlookup, hother, htrackers⟩)
    · exact .inl (.inl hconnected)
    · rw [admitting, lookup_insert_eq] at hlookup
      split at hlookup
      · cases hlookup
        exact .inr ⟨hother.symm, htrackers.symm⟩
      · exact .inl (.inr ⟨id, peer, hlookup, hother, htrackers⟩)
  refine ledger.follow ⟨?_, ?_, fun _ _ h => h, hlater.distinct⟩ ?_ ledger.named ledger.queued
    ledger.stored
  · intro other trackers h
    rcases hholds other trackers h with hold | ⟨rfl, rfl⟩
    · exact .inl ⟨trackers, hold, rfl⟩
    · exact .inr ⟨hnew, rfl⟩
  · rintro other trackers (hconnected | ⟨id, peer, hlookup, hother, htrackers⟩)
    · exact ⟨trackers, .inl hconnected⟩
    · refine ⟨trackers, .inr ⟨id, peer, ?_, hother, htrackers⟩⟩
      have hid : id ≠ net.antarc.service.connectionIdTracker := by
        rintro rfl
        exact absurd (hawaiting.symm.trans hlookup) (by simp)
      rw [admitting, Finmap.lookup_insert_of_ne _ hid]
      exact hlookup
  · intro other trackers h
    rcases hholds other trackers h with hold | ⟨rfl, rfl⟩
    · exact ledger.trusted other trackers hold
    · exact htrusted

theorem addressOf_of_extends {later : Registry SocketAddr} {next : Server}
    (table : ServerTable registry server) (htable : ServerTable later next)
    (h : registry.Extends later) {id : ConnectionId} {address : SocketAddr}
    (hid : addressOf server id = some address) : addressOf next id = some address := by
  rw [← table.holder] at hid
  rw [← htable.holder]
  exact h _ _ hid

/-- Receiving keeps the packets of the handler, and queues no accept but for a new peer. -/
theorem ServerTable.received_accepts (table : ServerTable registry server) {next : Server}
    {hash : RandomState} {raw : RawPacket} {packetId : PacketId} {now : Duration}
    {result : Result Bool}
    (h : server.onReceived crc32 hash raw packetId now = .ok (result, next)) :
    next.reliabilityHandler = server.reliabilityHandler ∧
      ∀ scheduled ∈ next.scheduler.service.listScheduledConnectionAccepted,
        scheduled ∈ server.scheduler.service.listScheduledConnectionAccepted ∨
          AcceptOk next scheduled := by
  rcases server_onReceived_cases h with hsame | ⟨_, _, -, -, -, hhears⟩ | ⟨packet, -, -, hadmits⟩
  · rw [hsame]
    exact ⟨rfl, fun _ hmem => .inl hmem⟩
  · obtain ⟨hscheduler, hhandler⟩ := hhears.kept
    rw [hscheduler]
    exact ⟨hhandler, fun _ hmem => .inl hmem⟩
  · cases hadmits with
    | again id peer asking found =>
      rw [table.requesting, Finmap.lookup_empty] at found
      contradiction
    | registered tracker unknown counted =>
      refine ⟨rfl, fun scheduled hmem => ?_⟩
      rcases List.mem_append.mp hmem with hmem | hmem
      · exact .inl hmem
      · right
        rw [List.mem_singleton.mp hmem]
        refine ⟨rfl, ?_⟩
        simp only [addressOf, admitting, Finmap.lookup_insert, table.next_unused.2]
        rfl

theorem BooksAt.serverReceived
    (books : BooksAt crc32 policy start (ServerSide registry []) numbering net)
    {hash : RandomState} {raw : RawPacket} {now : Duration} {result : Result Unit}
    (may : ∀ decoded, raw.decode crc32 DecodedForServer.tryFrom now = .ok (.ok decoded) →
      ServerMayTake policy net.antarc.service decoded)
    (h : net.antarc.serverReceived crc32 hash raw now = .ok (result, antarc)) :
    ∃ later, registry.Extends later ∧
      BooksAt crc32 policy start (ServerSide later []) numbering { net with antarc := antarc } := by
  obtain ⟨ledger, settled, hsteps, side⟩ := books
  obtain ⟨later, hextends, htable⟩ := side.table.of_received h
  obtain ⟨answered, hreceived, -⟩ := serverReceived_onReceived h
  have hregistered : ∀ {id address}, addressOf net.antarc.service id = some address →
      addressOf antarc.service id = some address :=
    fun hid => addressOf_of_extends side.table htable hextends hid
  obtain ⟨hhandler, haccepts⟩ := side.table.received_accepts hreceived
  refine ⟨later, hextends, ?_, settled, hsteps, htable, ?_, ?_, ?_⟩
  · rcases server_onReceived_cases hreceived with
      hsame | ⟨decoded, header, hdecode, hheader, -, hhears⟩ | ⟨packet, hdecode, -, hadmits⟩
    · exact ledger.of_service hsame
    · have hledger := ledger.serverHears side.table
        (fun address trackers => (may decoded hdecode).hear header address trackers hheader) hhears
      exact hledger.of_service rfl
    · have htrusted := (may _ hdecode).register packet rfl
      generalize hservice : antarc.service = service at hadmits htable
      cases hadmits with
      | again id peer asking found =>
        rw [side.table.requesting, Finmap.lookup_empty] at found
        contradiction
      | registered tracker unknown counted =>
        exact (ledger.serverAdmits side.table unknown htable htrusted).of_service hservice
  · intro scheduled hmem
    rcases haccepts scheduled hmem with hold | haccept
    · exact ⟨(side.queued scheduled hold).1, hregistered (side.queued scheduled hold).2⟩
    · exact haccept
  · rw [hhandler]
    exact side.stored
  · exact fun transmission hmem message hmessage =>
      hregistered (side.sent transmission hmem message hmessage)

theorem BooksAt.serverPoll
    (books : BooksAt crc32 policy start (ServerSide registry []) numbering net)
    {hash : RandomState} {peerHash : ConnectionId → RandomState} {elapsed now : Duration}
    {events : List (ProtocolEvent ServerEvent)}
    (h : net.antarc.serverPoll hash peerHash elapsed now = .ok (events, antarc)) :
    BooksAt crc32 policy start (ServerSide registry []) numbering
      { net with antarc := antarc } := by
  have hpeers := samePeers_poll h
  obtain ⟨handler, connected, hhandler, hconnected, -, rfl⟩ := serverPoll_frame h
  obtain ⟨hstored, hservice⟩ := stored_poll hhandler
  obtain ⟨ledger, settled, hsteps, side⟩ := books
  have hkept : ∀ packet ∈ handler.service.listSentConnectionAccepted,
      packet ∈ net.antarc.service.reliabilityHandler.service.listSentConnectionAccepted := by
    rw [serverHandler_poll hservice]
    exact fun packet => List.mem_of_mem_tail
  refine ⟨?_, settled, hsteps, side.congr hpeers rfl hkept⟩
  refine ledger.stay (fun id => ?_) rfl ledger.queued fun line hline =>
    ledger.stored line (hstored line hline)
  refine map_lookup_updateEach _ rowOf _ hconnected (fun _ peer polled hpoll => ?_) id
  obtain ⟨reassembler, rfl⟩ := poll_frame hpoll
  rfl

theorem BooksAt.serverReceive
    (books : BooksAt crc32 policy start (ServerSide registry []) numbering net)
    (hash : RandomState) (peerHash : ConnectionId → RandomState) (received elapsed now : Duration)
    (datagram : Option RawPacket)
    (may : ∀ raw decoded, datagram = some raw →
      raw.decode crc32 DecodedForServer.tryFrom received = .ok (.ok decoded) →
      ServerMayTake policy net.antarc.service decoded) :
    Ensures (fun result => ∃ later, registry.Extends later ∧
        BooksAt crc32 policy start (ServerSide later []) numbering result.2) (Stands crc32)
      (net.serverReceive crc32 hash peerHash received elapsed now datagram) := by
  unfold AntarcNet.serverReceive
  cases datagram with
  | none => exact books.ledger.attempt fun _ h => by contradiction
  | some raw =>
    have hreceived : ∀ result, net.antarc.serverReceived crc32 hash raw received = .ok result →
        ∃ later, registry.Extends later ∧
          BooksAt crc32 policy start (ServerSide later []) numbering
            { net with antarc := result.2 } :=
      fun result h => books.serverReceived (fun decoded => may raw decoded rfl) h
    apply (books.ledger.attempt hreceived).bind
    rintro ⟨outcome, antarc⟩ ⟨later, hextends, hbooks⟩
    replace hbooks := hbooks.report (stable_serverSide crc32 policy later []) outcome
    apply (hbooks.ledger.attempt fun result => hbooks.serverPoll).bind
    exact fun _ h => ⟨later, hextends, h⟩

theorem Books.serverReceive (books : Books crc32 policy start (ServerSide registry []) net)
    (hash : RandomState) (peerHash : ConnectionId → RandomState) (received elapsed now : Duration)
    (datagram : Option RawPacket)
    (may : ∀ raw decoded, datagram = some raw →
      raw.decode crc32 DecodedForServer.tryFrom received = .ok (.ok decoded) →
      ServerMayTake policy net.antarc.service decoded) :
    Ensures (fun result => ∃ later, registry.Extends later ∧
        Books crc32 policy start (ServerSide later []) result.2) (Stands crc32)
      (net.serverReceive crc32 hash peerHash received elapsed now datagram) := by
  obtain ⟨numbering, books⟩ := books.at
  apply (books.serverReceive hash peerHash received elapsed now datagram may).mono
  exact fun _ ⟨later, hextends, h⟩ => ⟨later, hextends, h.books⟩

theorem ledger_newServer (crc32 : Crc32) (policy : Policy) (address : SocketAddr)
    (reliableTtl : Duration) : Ledger crc32 policy .start (.newServer address reliableTtl) := by
  have table := serverTable_new reliableTtl
  refine .start rfl ?_ ?_ rfl
  · intro other trackers h
    obtain ⟨id, hid⟩ := table.registered_of_holds h
    rw [← table.holder] at hid
    contradiction
  · intro queue hmem
    simpa [queues, AntarcNet.newServer, Protocol.newServer, Server.new, Scheduler.new,
      Protocol.core, Service.core] using hmem

theorem serverSide_new (address : SocketAddr) (reliableTtl : Duration) :
    ServerSide .empty [] (.newServer address reliableTtl) where
  table := serverTable_new reliableTtl
  queued _ h := by contradiction
  stored _ h := by contradiction
  sent _ h := by contradiction

theorem books_newServer (crc32 : Crc32) (policy : Policy) (address : SocketAddr)
    (reliableTtl : Duration) :
    Books crc32 policy .start (ServerSide .empty []) (.newServer address reliableTtl) :=
  ⟨.start, ledger_newServer crc32 policy address reliableTtl, fun _ => rfl, .refl,
    serverSide_new address reliableTtl⟩

end Calls

end Antarc.Properties
