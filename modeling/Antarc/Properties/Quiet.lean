import Antarc.Properties.Requests
import Antarc.Properties.ServerBooks

/-! A driver that has no peer connected. Nothing is queued or kept for a connection, so the
passes of the handshake are all that its polls do. -/
namespace Antarc.Properties

open Library

section Idle

variable {S A B E : Type} [Service S A B E] {crc32 : Crc32} {net : AntarcNet S}

structure Idle (core : ServiceCore A B E) : Prop where
  queued : core.scheduler = .new core.scheduler.service
  kept : core.reliabilityHandler = .new core.reliabilityHandler.service

theorem Idle.handshake {core next : ServiceCore A B E} (hidle : Idle core) {queue : A} {list : B}
    (hscheduler : next.scheduler = { core.scheduler with service := queue })
    (hhandler : next.reliabilityHandler = { core.reliabilityHandler with service := list }) :
    Idle next where
  queued := by
    rw [hscheduler, hidle.queued]
    rfl
  kept := by
    rw [hhandler, hidle.kept]
    rfl

theorem Ledger.idle [PeerTable S] {policy : Policy} {numbering : Numbering SocketAddr PacketId}
    (ledger : Ledger crc32 policy numbering net) (halone : net.antarc.core.connected = ∅) :
    Idle net.antarc.core := by
  have hnone : ∀ id address, ¬ConnectedAt net.antarc.service id address := by
    rintro id address ⟨peer, hfound, -⟩
    change net.antarc.core.connected.lookup id = some peer at hfound
    rw [halone, Finmap.lookup_empty] at hfound
    contradiction
  have hqueues : ∀ queue ∈ queues net.antarc.core.scheduler, queue = [] := by
    intro queue hqueue
    refine List.eq_nil_iff_forall_not_mem.mpr fun entry hentry => ?_
    obtain ⟨-, id, -, hat⟩ := (ledger.queued queue hqueue).entries entry hentry
    exact hnone _ _ hat
  have hlines : storedLines net.antarc.core.reliabilityHandler = [] := by
    refine List.eq_nil_iff_forall_not_mem.mpr fun line hline => ?_
    obtain ⟨transmission, hmem, hsame⟩ := ledger.stored line hline
    have hconnection := (ledger.sent transmission hmem).connection
    rw [hsame] at hconnection
    simp only [storedLines, List.mem_append, List.mem_map] at hline
    rcases hline with (⟨packet, -, rfl⟩ | ⟨packet, -, rfl⟩) | ⟨packet, -, rfl⟩
    · exact hnone _ _ (hconnection _ rfl)
    · exact hnone _ _ (hconnection _ rfl)
    · exact hnone _ _ (hconnection _ rfl)
  generalize net.antarc.core = core at hqueues hlines ⊢
  obtain ⟨api, connected, scheduler, handler⟩ := core
  obtain ⟨first, second, third, fourth, fifth, sixth, queue⟩ := scheduler
  obtain ⟨transfers, beats, fragments, list⟩ := handler
  simp only [queues, List.forall_mem_cons, List.map_eq_nil_iff] at hqueues
  simp only [storedLines, List.append_eq_nil_iff, List.map_eq_nil_iff] at hlines
  obtain ⟨rfl, rfl, rfl, rfl, rfl, rfl, -⟩ := hqueues
  obtain ⟨⟨rfl, rfl⟩, rfl⟩ := hlines
  exact ⟨rfl, rfl⟩

theorem pollScheduled_empty {R M : Type} [Queued R M] [Reliability R] [Carried M] [Sendable M]
    (create : Protocol S → Scheduled R M → Duration → Exec (Packet ToSend M))
    (clock : Nat → Duration)
    (hqueue : (Queued.queue net.antarc.core.scheduler : List (Scheduled R M)) = []) :
    AntarcNet.pollScheduled crc32 create clock net = .ok net := by
  have hsame : Queued.setQueue net.antarc.core.scheduler ([] : List (Scheduled R M)) =
      net.antarc.core.scheduler := by
    rw [← hqueue, Queued.setQueue_queue]
  rw [pollScheduled_eq, hqueue, hsame]
  change Except.ok { net with antarc := net.antarc.setCore net.antarc.core } = _
  rw [Protocol.setCore, Protocol.core, Service.setCore_core]

theorem pollRetry_empty {M : Type} [Carried M] [Sendable M] (clock : Nat → Duration)
    (hlist : (Carried.listSent net.antarc.core.reliabilityHandler : List (Packet Sent M)) = [])
    (hput : Carried.setListSent net.antarc.core.reliabilityHandler ([] : List (Packet Sent M)) =
      net.antarc.core.reliabilityHandler) :
    AntarcNet.pollRetry M crc32 clock net = .ok net := by
  have hretry : net.antarc.retry M (clock 0) = .ok (none, net.antarc) := by
    unfold Protocol.retry ReliabilityHandler.retry
    simp only [hlist, retryLast_nil, ok_bind, pure_bind, hput]
    change Except.ok (none, net.antarc.setCore net.antarc.core) = _
    rw [Protocol.setCore, Protocol.core, Service.setCore_core]
  unfold AntarcNet.pollRetry AntarcNet.pollStored
  rw [hretry]
  rfl

theorem pollRetryDataTransfer_idle (hidle : Idle net.antarc.core) (clock : Nat → Duration) :
    net.pollRetryDataTransfer crc32 clock = .ok net :=
  pollRetry_empty clock (by rw [hidle.kept]; rfl) (by rw [hidle.kept]; rfl)

theorem pollRetryFragment_idle (hidle : Idle net.antarc.core) (clock : Nat → Duration) :
    net.pollRetryFragment crc32 clock = .ok net :=
  pollRetry_empty clock (by rw [hidle.kept]; rfl) (by rw [hidle.kept]; rfl)

theorem pollCarried_idle (hidle : Idle net.antarc.core) (clock : Clock) (pass : Nat) :
    net.pollCarried crc32 clock pass = .ok net := by
  have htransfers : net.pollUnreliableDataTransfer crc32 (clock pass) = .ok net :=
    pollScheduled_empty _ _ (by rw [hidle.queued]; rfl)
  have hreliableTransfers : net.pollReliableDataTransfer crc32 (clock (pass + 1)) = .ok net :=
    pollScheduled_empty _ _ (by rw [hidle.queued]; rfl)
  have hfragments : net.pollUnreliableFragment crc32 (clock (pass + 2)) = .ok net :=
    pollScheduled_empty _ _ (by rw [hidle.queued]; rfl)
  have hreliableFragments : net.pollReliableFragment crc32 (clock (pass + 3)) = .ok net :=
    pollScheduled_empty _ _ (by rw [hidle.queued]; rfl)
  have hheartbeats : net.pollUnreliableHeartbeat crc32 (clock (pass + 4)) = .ok net :=
    pollScheduled_empty _ _ (by rw [hidle.queued]; rfl)
  have hreliableHeartbeats : net.pollReliableHeartbeat crc32 (clock (pass + 5)) = .ok net :=
    pollScheduled_empty _ _ (by rw [hidle.queued]; rfl)
  unfold AntarcNet.pollCarried
  rw [htransfers, ok_bind, hreliableTransfers, ok_bind, hfragments, ok_bind, hreliableFragments,
    ok_bind, hheartbeats, ok_bind, hreliableHeartbeats]

theorem carriedDrive_alone (halone : net.antarc.core.connected = ∅)
    {outcome : Drive (AntarcNet S)} (h : CarriedDrive net outcome) : outcome = .ok net := by
  have hempty : isEmpty net.antarc.core.connected = true := by
    rw [halone]
    rfl
  cases h with
  | schedule hash reliability sendTo payload now =>
    unfold AntarcNet.schedule Protocol.schedule Protocol.scheduleHelper
    rw [if_pos hempty]
    rfl
  | heartbeat hash reliability sendTo now =>
    unfold AntarcNet.heartbeat Protocol.heartbeat Protocol.heartbeatHelper
    rw [if_pos hempty]
    rfl

end Idle

def keptFor (peer : SocketAddr) (kept : List (Packet Sent M)) : List (Packet Sent M) :=
  kept.filter fun packet => packet.delivery.metadata.address = peer

def sentTo (address : SocketAddr) (sent : List Transmission) : List Transmission :=
  sent.filter fun transmission => transmission.raw.address = address

theorem keptFor_append (peer : SocketAddr) (first second : List (Packet Sent M)) :
    keptFor peer (first ++ second) = keptFor peer first ++ keptFor peer second :=
  List.filter_append ..

theorem sentTo_append (address : SocketAddr) (first second : List Transmission) :
    sentTo address (first ++ second) = sentTo address first ++ sentTo address second :=
  List.filter_append ..

section Requests

variable {crc32 : Crc32} {host : SocketAddr} {asked : List SocketAddr}
  {net middle after : AntarcNet Client} {sent later : List Transmission}

theorem ClientSide.settled {rest : List (Scheduled Reliable ConnectionRequest)}
    (side : ClientSide asked rest net) : RequestsSettled asked net.antarc.service where
  asking := fun address hmem => (side.table.asked_iff address).mpr (.inl hmem)
  stored := by
    intro packet hpacket
    obtain ⟨transmission, hmem, hline⟩ := side.stored packet hpacket
    have hcontacted := side.contacted transmission hmem
    rw [hline] at hcontacted
    exact hcontacted

/-- The retry pass sends nothing again: it returns where the newest request that is kept is not
due, and then forgets it. -/
theorem pollRetryConnectionRequest_cases {clock : Nat → Duration}
    (settled : RequestsSettled asked net.antarc.service)
    (h : net.pollRetryConnectionRequest crc32 clock = .ok after) :
    ∃ list, after = { net with antarc := requestStore.put net.antarc list } ∧
      (storedRequests net.antarc.service = [] ∧ list = [] ∨
        ∃ packet, (storedRequests net.antarc.service).getLast? = some packet ∧
          ¬Due (clock 0) packet ∧ list = (storedRequests net.antarc.service).dropLast) := by
  obtain ⟨⟨packet, antarc⟩, hresend, h⟩ := bind_eq_ok.mp h
  replace hresend := attempt_eq_ok.mp hresend
  obtain ⟨list, hlast, rfl⟩ := resend_frame hresend
  change retryLast (clock 0) (storedRequests net.antarc.service) = _ at hlast
  cases hstored : (storedRequests net.antarc.service).getLast? with
  | none =>
    rw [List.getLast?_eq_none_iff] at hstored
    rw [hstored, retryLast_nil] at hlast
    cases hlast
    cases h
    exact ⟨[], rfl, .inl ⟨hstored, rfl⟩⟩
  | some stored =>
    by_cases hdue : Due (clock 0) stored
    · -- A due request is transmitted, and its accounting panics.
      obtain ⟨taken, hagain, hpanics⟩ := resend_panics (clock 1) settled hstored hdue
      cases hagain.symm.trans hresend
      obtain ⟨sent, hsent, h⟩ := bind_eq_ok.mp h
      obtain ⟨antarc, haccounted, h⟩ := bind_eq_ok.mp h
      rw [transmit_antarc hsent] at haccounted
      cases hpanics.symm.trans (attempt_eq_ok.mp haccounted)
    · rcases retryLast_not_due hstored hdue with htaken | hpanic
      · cases htaken.symm.trans hlast
        cases h
        exact ⟨_, rfl, .inr ⟨stored, rfl, hdue, rfl⟩⟩
      · cases hpanic.symm.trans hlast

structure Unasked (host : SocketAddr) (net after : AntarcNet Client)
    (sent : List Transmission) : Prop where
  unsent : sentTo host sent = []
  requesting : host ∈ after.antarc.service.requestingConnection ↔
    host ∈ net.antarc.service.requestingConnection
  awaiting : host ∈ after.antarc.service.awaitingConnectionAck ↔
    host ∈ net.antarc.service.awaitingConnectionAck
  kept : keptFor host (storedRequests after.antarc.service) =
    keptFor host (storedRequests net.antarc.service)

structure Asked (host : SocketAddr) (net after : AntarcNet Client)
    (sent : List Transmission) : Prop where
  once : ∃ transmission, sentTo host sent = [transmission]
  asking : host ∈ net.antarc.service.requestingConnection
  requesting : host ∉ after.antarc.service.requestingConnection
  awaiting : host ∈ after.antarc.service.awaitingConnectionAck
  kept : ∃ packet, keptFor host (storedRequests after.antarc.service) =
    keptFor host (storedRequests net.antarc.service) ++ [packet]

/-- A pass over requests, or a part of it, as it is seen from one host. -/
structure Asking (host : SocketAddr) (net after : AntarcNet Client)
    (sent : List Transmission) : Prop where
  connected : after.antarc.service.connected = net.antarc.service.connected
  idle : Idle net.antarc.core → Idle after.antarc.core
  socket : after.socket = net.socket ++ sent
  requests : ∀ transmission ∈ sent, ∃ packet, transmission.packet = .connectionRequest packet
  outcome : Unasked host net after sent ∨ Asked host net after sent

theorem Unasked.trans (first : Unasked host net middle sent)
    (second : Unasked host middle after later) : Unasked host net after (sent ++ later) where
  unsent := by rw [sentTo_append, first.unsent, second.unsent, List.append_nil]
  requesting := second.requesting.trans first.requesting
  awaiting := second.awaiting.trans first.awaiting
  kept := second.kept.trans first.kept

theorem Unasked.then_asked (first : Unasked host net middle sent)
    (second : Asked host middle after later) : Asked host net after (sent ++ later) where
  once := by
    rw [sentTo_append, first.unsent, List.nil_append]
    exact second.once
  asking := first.requesting.mp second.asking
  requesting := second.requesting
  awaiting := second.awaiting
  kept := by
    rw [← first.kept]
    exact second.kept

theorem Asked.then_unasked (first : Asked host net middle sent)
    (second : Unasked host middle after later) : Asked host net after (sent ++ later) where
  once := by
    rw [sentTo_append, second.unsent, List.append_nil]
    exact first.once
  asking := first.asking
  requesting := fun hmem => first.requesting (second.requesting.mp hmem)
  awaiting := second.awaiting.mpr first.awaiting
  kept := by
    rw [second.kept]
    exact first.kept

theorem Asking.trans (first : Asking host net middle sent)
    (second : Asking host middle after later) : Asking host net after (sent ++ later) where
  connected := second.connected.trans first.connected
  idle := fun hidle => second.idle (first.idle hidle)
  socket := by rw [second.socket, first.socket, List.append_assoc]
  requests := by
    intro transmission hmem
    rcases List.mem_append.mp hmem with hmem | hmem
    · exact first.requests transmission hmem
    · exact second.requests transmission hmem
  outcome := by
    rcases first.outcome with hfirst | hfirst <;> rcases second.outcome with hsecond | hsecond
    · exact .inl (hfirst.trans hsecond)
    · exact .inr (hfirst.then_asked hsecond)
    · exact .inr (hfirst.then_unasked hsecond)
    · exact absurd hsecond.asking hfirst.requesting

theorem asking_requested {transmission : Transmission} {packet : Packet ToSend ConnectionRequest}
    {found : Peer RequestingConnection} (peer : Peer RequestingConnection) (now : Duration)
    (hraw : transmission.raw.address = packet.delivery.metadata.address)
    (hpacket : transmission.packet = .connectionRequest packet)
    (hfound : net.antarc.service.requestingConnection.lookup packet.delivery.metadata.address =
      some found) :
    Asking host net
      { net with
        antarc := { net.antarc with
          service := requested net.antarc.service packet peer now net.antarc.reliableTtl }
        socket := net.socket ++ [transmission] } [transmission] where
  connected := rfl
  idle := fun hidle => hidle.handshake rfl rfl
  socket := rfl
  requests := by
    intro other hmem
    rw [List.mem_singleton.mp hmem]
    exact ⟨packet, hpacket⟩
  outcome := by
    have hstored : storedRequests (requested net.antarc.service packet peer now
        net.antarc.reliableTtl) =
        storedRequests net.antarc.service ++ [packet.sent now net.antarc.reliableTtl] := rfl
    by_cases hsame : packet.delivery.metadata.address = host
    · subst hsame
      refine .inr ⟨⟨transmission, ?_⟩, Finmap.mem_of_lookup_eq_some hfound, ?_, ?_,
        packet.sent now net.antarc.reliableTtl, ?_⟩
      · exact List.filter_cons_of_pos (decide_eq_true hraw)
      · exact fun hmem => (Finmap.mem_erase.mp hmem).1 rfl
      · exact Finmap.mem_insert.mpr (.inl rfl)
      · rw [hstored, keptFor_append]
        refine congrArg _ ?_
        exact List.filter_cons_of_pos (decide_eq_true rfl)
    · refine .inl ⟨?_, ?_, ?_, ?_⟩
      · exact List.filter_cons_of_neg (by simpa [hraw] using hsame)
      · change host ∈ net.antarc.service.requestingConnection.erase _ ↔ _
        rw [Finmap.mem_erase]
        exact and_iff_right (Ne.symm hsame)
      · change host ∈ net.antarc.service.awaitingConnectionAck.insert _ _ ↔ _
        rw [Finmap.mem_insert]
        exact or_iff_right (Ne.symm hsame)
      · rw [hstored, keptFor_append]
        refine (congrArg _ ?_).trans (List.append_nil _)
        exact List.filter_cons_of_neg fun h => hsame (of_decide_eq_true h)

theorem asking_nothing (hconnected : after.antarc.service.connected = net.antarc.service.connected)
    (hidle : Idle net.antarc.core → Idle after.antarc.core) (hsocket : after.socket = net.socket)
    (hrequesting : after.antarc.service.requestingConnection =
      net.antarc.service.requestingConnection)
    (hawaiting : after.antarc.service.awaitingConnectionAck =
      net.antarc.service.awaitingConnectionAck)
    (hkept : storedRequests after.antarc.service = storedRequests net.antarc.service) :
    Asking host net after [] where
  connected := hconnected
  idle := hidle
  socket := hsocket.trans (List.append_nil _).symm
  requests := fun _ hmem => absurd hmem List.not_mem_nil
  outcome := .inl ⟨rfl, by rw [hrequesting], by rw [hawaiting], by rw [hkept]⟩

theorem asking_sendEach {entries : List (Scheduled Reliable ConnectionRequest)}
    {clock : Nat → Duration}
    (h : AntarcNet.sendEach crc32 Protocol.createConnectionRequest Protocol.sentConnectionRequest
      clock entries net = .ok after) : ∃ sent, Asking host net after sent := by
  induction entries generalizing net clock with
  | nil =>
    cases h
    exact ⟨[], asking_nothing rfl id rfl rfl rfl rfl⟩
  | cons scheduled rest ih =>
    obtain ⟨middle, hturn, h⟩ := bind_eq_ok.mp h
    obtain ⟨later, hlater⟩ := ih h
    obtain ⟨packet, antarc, hcreate, -, haccounted, rfl⟩ := turn_eq_ok.mp hturn
    obtain ⟨peer, advanced, hfound, -, rfl⟩ := sentConnectionRequest_frame haccounted
    have hasked : Asking host net _ [⟨packet.datagram crc32, Sendable.outgoing packet, true⟩] :=
      asking_requested advanced (clock 1) rfl rfl hfound
    exact ⟨_, hasked.trans hlater⟩

theorem asking_pollConnectionRequest {clock : Nat → Duration}
    (h : net.pollConnectionRequest crc32 clock = .ok after) :
    ∃ sent, Asking host net after sent := by
  obtain ⟨⟨entries, antarc⟩, hdrain, h⟩ := bind_eq_ok.mp h
  replace hdrain := attempt_eq_ok.mp hdrain
  obtain ⟨⟨_, service⟩, hservice, hdrain⟩ := bind_eq_ok.mp hdrain
  obtain ⟨⟨_, queue⟩, -, hservice⟩ := bind_eq_ok.mp hservice
  cases hservice
  cases hdrain
  let drained : Client := { net.antarc.service with
    scheduler := { net.antarc.service.scheduler with service := ⟨queue⟩ } }
  have hdrained : Asking host net { net with antarc := { net.antarc with service := drained } } [] :=
    asking_nothing rfl (fun hidle => hidle.handshake rfl rfl) rfl rfl rfl rfl
  obtain ⟨sent, hsent⟩ := asking_sendEach h
  exact ⟨sent, hdrained.trans hsent⟩

/-- The send passes of a client that is alone: one request may be forgotten, and those that are
queued are sent. -/
theorem clientSend_idle {clock : Clock} (host : SocketAddr)
    (settled : RequestsSettled asked net.antarc.service) (hidle : Idle net.antarc.core)
    (h : net.clientSend crc32 clock = .ok after) :
    ∃ list sent, (list = storedRequests net.antarc.service ∨
        ∃ packet, (storedRequests net.antarc.service).getLast? = some packet ∧
          ¬Due (clock 0 0) packet ∧ list = (storedRequests net.antarc.service).dropLast) ∧
      Asking host { net with antarc := requestStore.put net.antarc list } after sent := by
  obtain ⟨retried, hretry, h⟩ := bind_eq_ok.mp h
  obtain ⟨list, rfl, hlist⟩ := pollRetryConnectionRequest_cases settled hretry
  have hretried : Idle (requestStore.put net.antarc list).core := hidle.handshake rfl rfl
  obtain ⟨same, htransfers, h⟩ := bind_eq_ok.mp h
  cases (pollRetryDataTransfer_idle hretried (clock 1)).symm.trans htransfers
  obtain ⟨requesting, hrequests, h⟩ := bind_eq_ok.mp h
  obtain ⟨sent, hasking⟩ : ∃ sent, Asking host _ requesting sent :=
    asking_pollConnectionRequest hrequests
  cases (pollCarried_idle (hasking.idle hretried) clock 3).symm.trans h
  refine ⟨list, sent, hlist.imp_left ?_, hasking⟩
  rintro ⟨hstored, rfl⟩
  exact hstored.symm

theorem clientReceive_frame {received elapsed : Duration} {raw : RawPacket}
    {events : List (ProtocolEvent ClientEvent)}
    (h : net.clientReceive crc32 received elapsed (some raw) = .ok (events, after)) :
    ∃ result client handler,
      net.antarc.service.onReceived crc32 raw received = .ok (result, client) ∧
      client.reliabilityHandler.poll elapsed = .ok handler ∧
      after = { net with antarc := { net.antarc with
        service := { client with reliabilityHandler := handler, api := [] } } } := by
  obtain ⟨⟨outcome, antarc⟩, hreceived, h⟩ := bind_eq_ok.mp h
  obtain ⟨honReceived, hantarc⟩ := clientReceived_onReceived (attempt_eq_ok.mp hreceived)
  obtain ⟨⟨_, polled⟩, hpolled, h⟩ := bind_eq_ok.mp h
  cases h
  obtain ⟨handler, hhandler, -, rfl⟩ := clientPoll_frame (attempt_eq_ok.mp hpolled)
  refine ⟨outcome, antarc.service, handler, honReceived, ?_, ?_⟩
  · cases outcome <;> exact hhandler
  · rw [hantarc]
    cases outcome <;> rfl

end Requests

section Accepts

variable {crc32 : Crc32} {net after : AntarcNet Server}

def storedAccepts (server : Server) : List (Packet Sent ConnectionAccepted) :=
  server.reliabilityHandler.service.listSentConnectionAccepted

def scheduledAccepts (server : Server) : List (Scheduled Reliable ConnectionAccepted) :=
  server.scheduler.service.listScheduledConnectionAccepted

theorem pollRetryConnectionAccepted_empty (clock : Nat → Duration)
    (hstored : storedAccepts net.antarc.service = []) :
    net.pollRetryConnectionAccepted crc32 clock = .ok net := by
  have hretry := acceptStore.retry_eq net.antarc (clock 0)
  change net.antarc.retryReliableConnectionAccepted (clock 0) = _ at hretry
  rw [show acceptStore.list net.antarc = [] from hstored, retryLast_nil] at hretry
  have hsame : acceptStore.put net.antarc [] = net.antarc := by
    rw [← hstored]
    rfl
  unfold AntarcNet.pollRetryConnectionAccepted AntarcNet.pollStored
  rw [hretry]
  change Except.ok { net with antarc := acceptStore.put net.antarc [] } = _
  rw [hsame]

def drainedOfAccepts (net : AntarcNet Server) : AntarcNet Server :=
  { net with antarc := { net.antarc with service := { net.antarc.service with
    scheduler := { net.antarc.service.scheduler with service := ⟨[]⟩ } } } }

theorem pollConnectionAccepted_eq (clock : Nat → Duration) (net : AntarcNet Server) :
    net.pollConnectionAccepted crc32 clock =
      AntarcNet.sendEach crc32 Protocol.createConnectionAccepted Protocol.sentConnectionAccepted
        clock (scheduledAccepts net.antarc.service) (drainedOfAccepts net) := by
  unfold AntarcNet.pollConnectionAccepted AntarcNet.pollQueue Protocol.drainConnectionAccepted
    Server.drainConnectionAccepted
  simp only [drainRange_all, ok_bind]
  rfl

theorem serverSend_idle (clock : Clock) (hidle : Idle net.antarc.core)
    (hstored : storedAccepts net.antarc.service = [])
    (hscheduled : scheduledAccepts net.antarc.service = []) :
    net.serverSend crc32 clock = .ok net := by
  have haccepts : net.pollConnectionAccepted crc32 (clock 3) = .ok net := by
    rw [pollConnectionAccepted_eq, hscheduled]
    change Except.ok (drainedOfAccepts net) = _
    rw [drainedOfAccepts, ← hscheduled]
    rfl
  unfold AntarcNet.serverSend
  rw [pollRetryConnectionAccepted_empty _ hstored, ok_bind, pollRetryDataTransfer_idle hidle,
    ok_bind, pollRetryFragment_idle hidle, ok_bind, haccepts, ok_bind, pollCarried_idle hidle]

structure Accepting (scheduled : Scheduled Reliable ConnectionAccepted)
    (net after : AntarcNet Server) (transmission : Transmission) : Prop where
  connected : after.antarc.service.connected = net.antarc.service.connected
  socket : after.socket = net.socket ++ [transmission]
  addressed : transmission.raw.address = scheduled.address
  packet : ∃ packet, transmission.packet = .connectionAccepted packet
  kept : ∃ packet, storedAccepts after.antarc.service = [packet] ∧
    packet.delivery.metadata.address = scheduled.address

theorem serverSend_accepts {clock : Clock} {scheduled : Scheduled Reliable ConnectionAccepted}
    (hidle : Idle net.antarc.core) (hstored : storedAccepts net.antarc.service = [])
    (hscheduled : scheduledAccepts net.antarc.service = [scheduled])
    (h : net.serverSend crc32 clock = .ok after) :
    ∃ transmission, Accepting scheduled net after transmission := by
  unfold AntarcNet.serverSend at h
  rw [pollRetryConnectionAccepted_empty _ hstored, ok_bind, pollRetryDataTransfer_idle hidle,
    ok_bind, pollRetryFragment_idle hidle, ok_bind] at h
  obtain ⟨accepted, haccepts, h⟩ := bind_eq_ok.mp h
  rw [pollConnectionAccepted_eq, hscheduled] at haccepts
  obtain ⟨_, hturn, haccepts⟩ := bind_eq_ok.mp haccepts
  cases haccepts
  obtain ⟨packet, antarc, hcreate, -, haccounted, rfl⟩ := turn_eq_ok.mp hturn
  obtain ⟨peer, -, hcreate⟩ := bind_eq_ok.mp hcreate
  cases hcreate
  obtain ⟨awaiting, -, rfl⟩ := sentConnectionAccepted_frame haccounted
  let packet := scheduled.intoPacket peer.sequenceTracker peer.remoteAckTracker (clock 3 0)
  let transmission : Transmission := ⟨packet.datagram crc32, .connectionAccepted packet, true⟩
  let server : Server := acceptSent (drainedOfAccepts net).antarc.service awaiting packet (clock 3 1)
    net.antarc.reliableTtl
  let sent : AntarcNet Server := { net with
    antarc := { net.antarc with service := server }
    socket := net.socket ++ [transmission] }
  have hsent : Idle sent.antarc.core := hidle.handshake rfl rfl
  have hlist : storedAccepts sent.antarc.service =
      storedAccepts net.antarc.service ++ [packet.sent (clock 3 1) net.antarc.reliableTtl] := rfl
  rw [hstored] at hlist
  have hafter : after = sent :=
    (Except.ok.inj ((pollCarried_idle hsent clock 4).symm.trans h)).symm
  rw [hafter]
  exact ⟨transmission, rfl, rfl, rfl, ⟨packet, rfl⟩, _, hlist, rfl⟩

theorem serverReceive_frame {hash : RandomState} {peerHash : ConnectionId → RandomState}
    {received elapsed now : Duration} {raw : RawPacket} {events : List (ProtocolEvent ServerEvent)}
    (h : net.serverReceive crc32 hash peerHash received elapsed now (some raw) =
      .ok (events, after)) :
    ∃ result server handler connected,
      net.antarc.service.onReceived crc32 hash raw net.antarc.packetIdTracker received =
        .ok (result, server) ∧
      server.reliabilityHandler.poll elapsed = .ok handler ∧
      updateEach (fun id peer => peer.poll (peerHash id) now)
        (hash.iterate server.connected).entries server.connected = .ok connected ∧
      after.antarc.service =
        { server with reliabilityHandler := handler, connected := connected, api := [] } := by
  obtain ⟨⟨outcome, antarc⟩, hreceived, h⟩ := bind_eq_ok.mp h
  obtain ⟨result, honReceived, -⟩ := serverReceived_onReceived (attempt_eq_ok.mp hreceived)
  obtain ⟨⟨_, polled⟩, hpolled, h⟩ := bind_eq_ok.mp h
  cases h
  obtain ⟨handler, connected, hhandler, hconnected, -, rfl⟩ :=
    serverPoll_frame (attempt_eq_ok.mp hpolled)
  refine ⟨result, antarc.service, handler, connected, honReceived, ?_, ?_, ?_⟩
  · cases outcome <;> exact hhandler
  · cases outcome <;> exact hconnected
  · cases outcome <;> rfl

end Accepts

end Antarc.Properties
