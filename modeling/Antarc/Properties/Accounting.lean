import Antarc.Properties.Polling
import Antarc.Properties.Scheduling

/-! What the operations of a pass change: draining a queue, taking a stored packet and
accounting a packet as sent, of which only the last touches a peer, and of the peer only
its sequence tracker; and what the poll at the end of a pass changes. -/
namespace Antarc.Properties

open Library

def identity (peer : Peer Connected) : SocketAddr × ConnectionId :=
  (peer.address, peer.connection.connectionId)

theorem advance_eq_ok {peer next : Peer Connection} :
    peer.advance = .ok next ↔ ∃ sequence, peer.sequenceTracker.checkedAdd 1 = some sequence ∧
      next = { peer with sequenceTracker := sequence } := by
  unfold Peer.advance
  rw [bind_eq_ok]
  simp only [unwrap_eq_ok, pure, Except.pure, Except.ok.injEq]
  constructor
  · rintro ⟨sequence, hsequence, rfl⟩
    exact ⟨sequence, hsequence, rfl⟩
  · rintro ⟨sequence, hsequence, rfl⟩
    exact ⟨sequence, hsequence, rfl⟩

section Core

variable {A B E : Type} {core next : ServiceCore A B E} {connectionId : ConnectionId}

theorem advanceConnected_cases (h : core.advanceConnected connectionId = .ok next) :
    (core.connected.lookup connectionId = none ∧ next = core) ∨
      ∃ peer advanced, core.connected.lookup connectionId = some peer ∧
        peer.advance = .ok advanced ∧
        next = { core with connected := core.connected.insert connectionId advanced } := by
  unfold ServiceCore.advanceConnected at h
  split at h
  · next peer hfound =>
    obtain ⟨advanced, hadvanced, h⟩ := bind_eq_ok.mp h
    cases h
    exact .inr ⟨peer, advanced, hfound, hadvanced, rfl⟩
  · next hnone =>
    cases h
    exact .inl ⟨hnone, rfl⟩

theorem advanced_frame {completes : Bool}
    (h : (if completes then core.advanceConnected connectionId else .ok core) = .ok next) :
    ∃ connected, next = { core with connected := connected } := by
  cases completes with
  | false =>
    rw [← Except.ok.inj h]
    exact ⟨core.connected, rfl⟩
  | true =>
    rcases advanceConnected_cases h with ⟨-, rfl⟩ | ⟨_, _, -, -, rfl⟩
    · exact ⟨_, rfl⟩
    · exact ⟨_, rfl⟩

end Core

theorem drainRange_all (queue : List α) : drainRange queue 0 queue.length = .ok (queue, []) := by
  simp [drainRange]

theorem mem_drainRange {start stop : Nat} {list drained rest : List α}
    (h : drainRange list start stop = .ok (drained, rest)) : ∀ item ∈ rest, item ∈ list := by
  unfold drainRange at h
  split at h
  · cases h
    intro item hmem
    rcases List.mem_append.mp hmem with hmem | hmem
    · exact List.mem_of_mem_take hmem
    · exact List.mem_of_mem_drop hmem
  · contradiction

section Calls

variable {S A B E : Type} [Service S A B E] {protocol next : Protocol S} {now : Duration}

theorem drain_frame {R M : Type} [Queued R M] {start stop : Nat} {drained : List (Scheduled R M)}
    (h : protocol.drain R M start stop = .ok (drained, next)) :
    ∃ queue : List (Scheduled R M), next = protocol.setCore { protocol.core with
      scheduler := Queued.setQueue protocol.core.scheduler queue } := by
  obtain ⟨⟨_, queue⟩, -, h⟩ := bind_eq_ok.mp h
  cases h
  exact ⟨queue, rfl⟩

theorem retry_frame {M : Type} [Carried M] {packet : Option (Packet ToSend M)}
    (h : protocol.retry M now = .ok (packet, next)) :
    ∃ handler, protocol.core.reliabilityHandler.retry now = .ok (packet, handler) ∧
      next = protocol.setCore { protocol.core with reliabilityHandler := handler } := by
  obtain ⟨⟨_, handler⟩, hretry, h⟩ := bind_eq_ok.mp h
  cases h
  exact ⟨handler, hretry, rfl⟩

/-- A packet is accounted as sent in three parts: an awaiting peer may be connected, the
tracker moves on if the packet ends its sequence, and a reliable packet is kept. -/
theorem sent_frame {M : Type} [Carried M] {packet : Packet ToSend M}
    {reliability : ReliabilityType} (h : protocol.sent packet reliability now = .ok next) :
    ∃ completes core, Carried.completes packet.message = .ok completes ∧
      let connectionId := Carried.connectionId packet.message
      let promoted := Service.promoteAwaiting protocol.service packet.delivery.metadata.address
        connectionId now
      (if completes then (Service.core promoted).advanceConnected connectionId
        else .ok (Service.core promoted)) = .ok core ∧
      next = { protocol with service := Service.setCore promoted { core with
        reliabilityHandler := core.reliabilityHandler.keep reliability
          (packet.sent now protocol.reliableTtl) } } := by
  obtain ⟨service, hservice, h⟩ := bind_eq_ok.mp h
  cases h
  unfold sentCarried at hservice
  dsimp only at hservice
  obtain ⟨completes, hcompletes, hservice⟩ := bind_eq_ok.mp hservice
  cases completes with
  | false =>
    cases hservice
    exact ⟨false, _, hcompletes, rfl, rfl⟩
  | true =>
    obtain ⟨core, hcore, hservice⟩ := bind_eq_ok.mp hservice
    cases hservice
    exact ⟨true, core, hcompletes, hcore, rfl⟩

end Calls

section Handshakes

variable {now : Duration} {start stop : Nat}

theorem drainConnectionAccepted_frame {protocol next : Protocol Server}
    {drained : List (Scheduled Reliable ConnectionAccepted)}
    (h : protocol.drainConnectionAccepted start stop = .ok (drained, next)) :
    ∃ queue, drainRange protocol.service.scheduler.service.listScheduledConnectionAccepted
        start stop = .ok (drained, queue) ∧
      next = { protocol with service := { protocol.service with
        scheduler := { protocol.service.scheduler with service := ⟨queue⟩ } } } := by
  obtain ⟨⟨_, service⟩, hservice, h⟩ := bind_eq_ok.mp h
  obtain ⟨⟨_, queue⟩, hqueue, hservice⟩ := bind_eq_ok.mp hservice
  cases hservice
  cases h
  exact ⟨queue, hqueue, rfl⟩

theorem retryConnectionAccepted_frame {protocol next : Protocol Server}
    {packet : Option (Packet ToSend ConnectionAccepted)}
    (h : protocol.retryReliableConnectionAccepted now = .ok (packet, next)) :
    ∃ list, retryLast now protocol.service.reliabilityHandler.service.listSentConnectionAccepted =
        .ok (packet, list) ∧
      next = { protocol with service := { protocol.service with
        reliabilityHandler :=
          { protocol.service.reliabilityHandler with service := ⟨list⟩ } } } := by
  obtain ⟨⟨_, service⟩, hservice, h⟩ := bind_eq_ok.mp h
  obtain ⟨⟨_, handler⟩, hhandler, hservice⟩ := bind_eq_ok.mp hservice
  obtain ⟨⟨_, list⟩, hlast, hhandler⟩ := bind_eq_ok.mp hhandler
  cases hhandler
  cases hservice
  cases h
  exact ⟨list, hlast, rfl⟩

theorem drainConnectionRequest_frame {protocol next : Protocol Client}
    {drained : List (Scheduled Reliable ConnectionRequest)}
    (h : protocol.drainConnectionRequest start stop = .ok (drained, next)) :
    ∃ queue, drainRange protocol.service.scheduler.service.listScheduledConnectionRequest
        start stop = .ok (drained, queue) ∧
      next = { protocol with service := { protocol.service with
        scheduler := { protocol.service.scheduler with service := ⟨queue⟩ } } } := by
  obtain ⟨⟨_, service⟩, hservice, h⟩ := bind_eq_ok.mp h
  obtain ⟨⟨_, queue⟩, hqueue, hservice⟩ := bind_eq_ok.mp hservice
  cases hservice
  cases h
  exact ⟨queue, hqueue, rfl⟩

theorem resend_frame {protocol next : Protocol Client}
    {packet : Option (Packet ToSend ConnectionRequest)}
    (h : protocol.resendReliableConnectionRequest now = .ok (packet, next)) :
    ∃ list, retryLast now protocol.service.reliabilityHandler.service.listSentConnectionRequest =
        .ok (packet, list) ∧
      next = { protocol with service := { protocol.service with
        reliabilityHandler :=
          { protocol.service.reliabilityHandler with service := ⟨list⟩ } } } := by
  obtain ⟨⟨_, service⟩, hservice, h⟩ := bind_eq_ok.mp h
  obtain ⟨⟨_, handler⟩, hhandler, hservice⟩ := bind_eq_ok.mp hservice
  obtain ⟨⟨_, list⟩, hlast, hhandler⟩ := bind_eq_ok.mp hhandler
  cases hhandler
  cases hservice
  cases h
  exact ⟨list, hlast, rfl⟩

def acceptSent (server : Server) (awaiting : HashMap ConnectionId (Peer AwaitingConnectionAck))
    (packet : Packet ToSend ConnectionAccepted) (time ttl : Duration) : Server :=
  { server with
    awaitingConnectionAck := awaiting
    reliabilityHandler := { server.reliabilityHandler with
      service := ⟨server.reliabilityHandler.service.listSentConnectionAccepted ++
        [packet.sent time ttl]⟩ } }

theorem sentConnectionAccepted_frame {protocol next : Protocol Server}
    {packet : Packet ToSend ConnectionAccepted}
    (h : protocol.sentConnectionAccepted packet now = .ok next) :
    ∃ awaiting,
      ((protocol.service.awaitingConnectionAck.lookup packet.message.connectionId = none ∧
          awaiting = protocol.service.awaitingConnectionAck) ∨
        ∃ peer advanced,
          protocol.service.awaitingConnectionAck.lookup packet.message.connectionId = some peer ∧
          peer.advance = .ok advanced ∧ awaiting =
            protocol.service.awaitingConnectionAck.insert packet.message.connectionId advanced) ∧
      next = { protocol with
        service := acceptSent protocol.service awaiting packet now protocol.reliableTtl } := by
  obtain ⟨service, hsent, h⟩ := bind_eq_ok.mp h
  cases h
  unfold Server.sentConnectionAccepted at hsent
  dsimp only at hsent
  split at hsent
  · next peer hfound =>
    obtain ⟨advanced, hadvanced, hsent⟩ := bind_eq_ok.mp hsent
    cases hsent
    exact ⟨_, .inr ⟨peer, advanced, hfound, hadvanced, rfl⟩, rfl⟩
  · next hnone =>
    cases hsent
    exact ⟨_, .inl ⟨hnone, rfl⟩, rfl⟩

def requested (client : Client) (packet : Packet ToSend ConnectionRequest)
    (peer : Peer RequestingConnection) (time ttl : Duration) : Client :=
  let address := packet.delivery.metadata.address
  { client with
    requestingConnection := client.requestingConnection.erase address
    awaitingConnectionAck :=
      client.awaitingConnectionAck.insert address (peer.awaitConnectionAck time)
    reliabilityHandler := { client.reliabilityHandler with
      service := ⟨client.reliabilityHandler.service.listSentConnectionRequest ++
        [packet.sent time ttl]⟩ } }

theorem sentConnectionRequest_frame {protocol next : Protocol Client}
    {packet : Packet ToSend ConnectionRequest}
    (h : protocol.sentConnectionRequest packet now = .ok next) :
    ∃ peer advanced,
      protocol.service.requestingConnection.lookup packet.delivery.metadata.address = some peer ∧
      peer.advance = .ok advanced ∧
      next = { protocol with
        service := requested protocol.service packet advanced now protocol.reliableTtl } := by
  obtain ⟨service, hsent, h⟩ := bind_eq_ok.mp h
  cases h
  unfold Client.sentConnectionRequest at hsent
  obtain ⟨peer, hpeer, hsent⟩ := bind_eq_ok.mp hsent
  obtain ⟨advanced, hadvanced, hsent⟩ := bind_eq_ok.mp hsent
  cases hsent
  exact ⟨peer, advanced, unwrap_eq_ok.mp hpeer, hadvanced, rfl⟩

end Handshakes

section Polls

variable {now elapsed : Duration}

theorem serverPoll_frame {protocol next : Protocol Server} {hash : RandomState}
    {peerHash : ConnectionId → RandomState} {events : List (ProtocolEvent ServerEvent)}
    (h : protocol.serverPoll hash peerHash elapsed now = .ok (events, next)) :
    ∃ handler connected,
      protocol.service.reliabilityHandler.poll elapsed = .ok handler ∧
      updateEach (fun id peer => peer.poll (peerHash id) now)
        (hash.iterate protocol.service.connected).entries protocol.service.connected =
          .ok connected ∧
      events = protocol.service.api ∧
      next = { protocol with service := { protocol.service with
        reliabilityHandler := handler, connected := connected, api := [] } } := by
  obtain ⟨handler, hhandler, h⟩ := bind_eq_ok.mp h
  obtain ⟨connected, hconnected, h⟩ := bind_eq_ok.mp h
  cases h
  exact ⟨handler, connected, hhandler, hconnected, rfl, rfl⟩

theorem serverPoll_of_nobody {protocol : Protocol Server}
    {handler : ReliabilityHandler ServerReliabilityHandler} {hash : RandomState}
    {peerHash : ConnectionId → RandomState} (hnobody : protocol.service.connected = ∅)
    (hhandler : protocol.service.reliabilityHandler.poll elapsed = .ok handler) :
    protocol.serverPoll hash peerHash elapsed now = .ok (protocol.service.api,
      { protocol with service := { protocol.service with
        reliabilityHandler := handler
        api := [] } }) := by
  have hentries : (hash.iterate protocol.service.connected).entries = [] := by
    rw [hnobody]
    exact Iteration.entries_empty _
  unfold Protocol.serverPoll
  simp only [hhandler, ok_bind, hentries, updateEach, List.foldlM_nil]
  rfl

theorem serverPoll_of_peer {protocol : Protocol Server} {peer polled : Peer Connected}
    {id : ConnectionId} {handler : ReliabilityHandler ServerReliabilityHandler}
    {hash : RandomState} {peerHash : ConnectionId → RandomState}
    (hone : protocol.service.connected = Finmap.singleton id peer)
    (hpeer : peer.poll (peerHash id) now = .ok polled)
    (hhandler : protocol.service.reliabilityHandler.poll elapsed = .ok handler) :
    protocol.serverPoll hash peerHash elapsed now = .ok (protocol.service.api,
      { protocol with service := { protocol.service with
        reliabilityHandler := handler
        connected := protocol.service.connected.insert id polled
        api := [] } }) := by
  have hentries : (hash.iterate protocol.service.connected).entries = [⟨id, peer⟩] := by
    rw [hone]
    exact Iteration.entries_singleton _
  unfold Protocol.serverPoll
  simp only [hhandler, ok_bind, hentries, updateEach, List.foldlM_cons, List.foldlM_nil, hpeer]
  rfl

theorem clientPoll_frame {protocol next : Protocol Client}
    {events : List (ProtocolEvent ClientEvent)}
    (h : protocol.clientPoll elapsed = .ok (events, next)) :
    ∃ handler, protocol.service.reliabilityHandler.poll elapsed = .ok handler ∧
      events = protocol.service.api ∧
      next = { protocol with service := { protocol.service with
        reliabilityHandler := handler, api := [] } } := by
  obtain ⟨handler, hhandler, h⟩ := bind_eq_ok.mp h
  cases h
  exact ⟨handler, hhandler, rfl, rfl⟩

end Polls

end Antarc.Properties
