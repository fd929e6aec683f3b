import Antarc.Properties.Delivery
import Antarc.Properties.Retries

/-! The request that is stored for a retry. Its address has stopped asking when it was
stored, and never asks again, so the driver cannot account it a second time. -/
namespace Antarc.Properties

open Library

section Stored

variable {crc32 : Crc32} {asked : List SocketAddr} {client : Client}

def storedRequests (client : Client) : List (Packet Sent ConnectionRequest) :=
  client.reliabilityHandler.service.listSentConnectionRequest

/-- Whoever asks was asked for, and a stored request is to an address that has been asked for
and does not ask any more. -/
structure RequestsSettled (asked : List SocketAddr) (client : Client) : Prop where
  asking : ∀ address, address ∈ client.requestingConnection → address ∈ asked
  stored : ∀ packet ∈ storedRequests client, packet.delivery.metadata.address ∈ asked ∧
    packet.delivery.metadata.address ∉ client.requestingConnection

theorem RequestsSettled.of_subset {next : Client} (settled : RequestsSettled asked client)
    (hrequesting : next.requestingConnection = client.requestingConnection)
    (hstored : ∀ packet ∈ storedRequests next, packet ∈ storedRequests client) :
    RequestsSettled asked next where
  asking := by
    rw [hrequesting]
    exact settled.asking
  stored := by
    rw [hrequesting]
    exact fun packet hmem => settled.stored packet (hstored packet hmem)

theorem RequestsSettled.of_eq {next : Client} (settled : RequestsSettled asked client)
    (hrequesting : next.requestingConnection = client.requestingConnection)
    (hhandler : next.reliabilityHandler.service = client.reliabilityHandler.service) :
    RequestsSettled asked next := by
  refine settled.of_subset hrequesting ?_
  unfold storedRequests
  rw [hhandler]
  exact fun _ hmem => hmem

theorem RequestsSettled.requested {packet : Packet ToSend ConnectionRequest}
    {peer found : Peer RequestingConnection} {now ttl : Duration}
    (settled : RequestsSettled asked client)
    (hfound : client.requestingConnection.lookup packet.delivery.metadata.address = some found) :
    RequestsSettled asked (requested client packet peer now ttl) where
  asking := fun address hmem => settled.asking address (Finmap.mem_erase.mp hmem).2
  stored := by
    intro stored hmem
    rcases List.mem_append.mp hmem with hmem | hmem
    · obtain ⟨hasked, hnot⟩ := settled.stored stored hmem
      exact ⟨hasked, fun hasking => hnot (Finmap.mem_erase.mp hasking).2⟩
    · rw [List.mem_singleton.mp hmem]
      refine ⟨settled.asking _ (Finmap.mem_of_lookup_eq_some hfound), fun hasking => ?_⟩
      exact (Finmap.mem_erase.mp hasking).1 rfl

theorem RequestsSettled.connecting {address : SocketAddr} {packetId : PacketId} {now : Duration}
    (settled : RequestsSettled asked client) (hnew : address ∉ asked) :
    RequestsSettled (asked ++ [address]) (connecting client address packetId now) where
  asking := by
    intro other hmem
    rcases Finmap.mem_insert.mp hmem with rfl | hmem
    · exact List.mem_append_right _ (List.mem_singleton.mpr rfl)
    · exact List.mem_append_left _ (settled.asking other hmem)
  stored := by
    intro packet hmem
    obtain ⟨hasked, hnot⟩ := settled.stored packet hmem
    refine ⟨List.mem_append_left _ hasked, fun hasking => ?_⟩
    rcases Finmap.mem_insert.mp hasking with hsame | hasking
    · rw [hsame] at hasked
      exact hnew hasked
    · exact hnot hasking

theorem settled_sentConnectionRequest {protocol next : Protocol Client}
    {packet : Packet ToSend ConnectionRequest} {now : Duration}
    (settled : RequestsSettled asked protocol.service)
    (h : protocol.sentConnectionRequest packet now = .ok next) :
    RequestsSettled asked next.service := by
  obtain ⟨_, _, hfound, -, rfl⟩ := sentConnectionRequest_frame h
  exact settled.requested hfound

theorem settled_requests {clock : Nat → Duration} {net after : AntarcNet Client}
    (settled : RequestsSettled asked net.antarc.service)
    (h : net.pollConnectionRequest crc32 clock = .ok after) :
    RequestsSettled asked after.antarc.service := by
  refine pollQueue_keeps (fun protocol => RequestsSettled asked protocol.service)
    (fun _ _ _ _ => settled_sentConnectionRequest) ?_ settled h
  intro protocol drained next settled hdrain
  obtain ⟨_, -, rfl⟩ := drainConnectionRequest_frame hdrain
  exact settled.of_eq rfl rfl

theorem settled_resend {protocol next : Protocol Client} {now : Duration}
    {packet : Option (Packet ToSend ConnectionRequest)}
    (settled : RequestsSettled asked protocol.service)
    (h : protocol.resendReliableConnectionRequest now = .ok (packet, next)) :
    RequestsSettled asked next.service := by
  obtain ⟨list, hlast, rfl⟩ := resend_frame h
  exact settled.of_subset rfl (retryLast_cases hlast).1

theorem settled_retryRequest {clock : Nat → Duration} {net after : AntarcNet Client}
    (settled : RequestsSettled asked net.antarc.service)
    (h : net.pollRetryConnectionRequest crc32 clock = .ok after) :
    RequestsSettled asked after.antarc.service :=
  pollStored_keeps (fun protocol => RequestsSettled asked protocol.service)
    (fun _ _ _ _ => settled_sentConnectionRequest) (fun _ _ _ _ => settled_resend) settled h

end Stored

section Runs

variable {crc32 : Crc32} {asked : List SocketAddr} {run next : ClientRun}

theorem RequestsSettled.of_untouched {client after : Client}
    (settled : RequestsSettled asked client) (h : Untouched client after) :
    RequestsSettled asked after := by
  obtain ⟨core, hframe⟩ := h.frame
  refine settled.of_eq ?_ h.handler
  rw [hframe]
  rfl

theorem settled_clientPoll {protocol after : Protocol Client} {elapsed : Duration}
    {events : List (ProtocolEvent ClientEvent)}
    (settled : RequestsSettled asked protocol.service)
    (h : protocol.clientPoll elapsed = .ok (events, after)) :
    RequestsSettled asked after.service := by
  obtain ⟨handler, hpoll, -, rfl⟩ := clientPoll_frame h
  have htail := clientHandler_poll (stored_poll hpoll).2
  refine settled.of_subset rfl fun packet hmem => ?_
  change packet ∈ handler.service.listSentConnectionRequest at hmem
  rw [htail] at hmem
  exact List.mem_of_mem_tail hmem

theorem settled_step (books : Books crc32 .none .start (ClientSide run.asked []) run.net)
    (settled : RequestsSettled run.asked run.net.antarc.service)
    (h : ClientStep crc32 run next) : RequestsSettled next.asked next.net.antarc.service := by
  obtain ⟨numbering, ledger, hsettled, -, side⟩ := books
  cases h with
  | connect address now antarc call =>
    rcases connect_cases call with ⟨_, hresult, -⟩ | ⟨_, hunknown, -, -, rfl⟩
    · contradiction
    · refine settled.connecting fun hasked => ?_
      rw [(side.table.known_iff address).mpr hasked] at hunknown
      contradiction
  | refused address now error antarc call =>
    rcases connect_cases call with ⟨_, -, rfl⟩ | ⟨_, -, -, hresult, -⟩
    · exact settled
    · contradiction
  | received raw now result antarc call =>
    obtain ⟨hreceived, -⟩ := clientReceived_onReceived call
    rcases client_onReceived_cases hreceived with hsame | ⟨_, -, -, hhears⟩
    · exact hsame ▸ settled
    · obtain ⟨hrequesting, -, hhandler⟩ := hhears.kept
      exact settled.of_eq hrequesting (congrArg ReliabilityHandler.service hhandler)
  | schedule hash reliability sendTo payload now result antarc call =>
    exact settled.of_untouched (ledger.schedule call).2
  | heartbeat hash reliability sendTo now result antarc call =>
    exact settled.of_untouched (ledger.heartbeat call).2
  | poll elapsed events antarc call => exact settled_clientPoll settled call
  | requests clock net call => exact settled_requests settled call
  | retryRequest clock net call => exact settled_retryRequest settled call
  | carried pass kind net call =>
    have hpass := kind.kept ledger hsettled
    rw [call] at hpass
    obtain ⟨later, kept⟩ := hpass
    exact settled.of_untouched kept.carries.untouched

theorem settled_of_reachable (h : (clientRuns crc32).Reachable run) :
    RequestsSettled run.asked run.net.antarc.service := by
  refine h.invariant (fun run => RequestsSettled run.asked run.net.antarc.service) ?_ ?_
  · rintro _ ⟨address, rfl⟩
    exact ⟨fun _ hmem => absurd hmem Finmap.notMem_empty,
      fun _ hmem => absurd hmem List.not_mem_nil⟩
  · intro run next h settled hstep
    exact settled_step (books_of_reachable h) settled hstep

def InOneMap (client : Client) (address : SocketAddr) : Prop :=
  (address ∈ client.requestingConnection ∧ address ∉ client.awaitingConnectionAck ∧
      ¬∃ id, ConnectedAt client id address) ∨
    (address ∉ client.requestingConnection ∧ address ∈ client.awaitingConnectionAck ∧
      ¬∃ id, ConnectedAt client id address) ∨
    (address ∉ client.requestingConnection ∧ address ∉ client.awaitingConnectionAck ∧
      ∃ id, ConnectedAt client id address)

/-- What a resend returns can be accounted, and leaves its peer in one map. -/
def ResendSafe (protocol : Protocol Client) (now later : Duration) : Prop :=
  ∀ packet taken, protocol.resendReliableConnectionRequest now = .ok (some packet, taken) →
    ∃ next, taken.sentConnectionRequest packet later = .ok next ∧
      InOneMap next.service packet.delivery.metadata.address

/-- A stored request that is due is returned, and its accounting unwraps `None`. -/
theorem resend_panics {protocol : Protocol Client} {now : Duration} (later : Duration)
    {packet : Packet Sent ConnectionRequest} (settled : RequestsSettled asked protocol.service)
    (hlast : (storedRequests protocol.service).getLast? = some packet) (hdue : Due now packet) :
    ∃ taken, protocol.resendReliableConnectionRequest now =
        .ok (some (again packet now), taken) ∧
      taken.sentConnectionRequest (again packet now) later = .error .unwrap := by
  refine ⟨requestStore.put protocol (storedRequests protocol.service).dropLast, ?_, ?_⟩
  · have hretry := requestStore.retry_eq protocol now
    rw [show requestStore.list protocol = storedRequests protocol.service from rfl,
      retryLast_due hlast hdue] at hretry
    exact hretry
  · have hnone : protocol.service.requestingConnection.lookup
        packet.delivery.metadata.address = none :=
      Finmap.lookup_eq_none.mpr (settled.stored packet (List.mem_of_getLast? hlast)).2
    unfold Protocol.sentConnectionRequest Client.sentConnectionRequest
    dsimp only [Packet.sent, again, requestStore]
    rw [hnone]
    rfl

/-- Resending a request is safe exactly as long as the retry has nothing to return: no request
is stored, or the newest one is not due. -/
theorem resend_safe_iff_nothing_due (crc32 : Crc32) (run : ClientRun)
    (h : (clientRuns crc32).Reachable run) (now later : Duration) :
    ResendSafe run.net.antarc now later ↔
      ∀ packet, (storedRequests run.net.antarc.service).getLast? = some packet →
        ¬Due now packet := by
  have settled := settled_of_reachable h
  constructor
  · intro hsafe packet hlast hdue
    obtain ⟨taken, hresend, hpanics⟩ := resend_panics later settled hlast hdue
    obtain ⟨next, hnext, -⟩ := hsafe _ _ hresend
    rw [hpanics] at hnext
    contradiction
  · intro hnone packet taken hresend
    obtain ⟨list, hlast, -⟩ := resend_frame hresend
    change retryLast now (storedRequests run.net.antarc.service) = _ at hlast
    cases hstored : (storedRequests run.net.antarc.service).getLast? with
    | none =>
      rw [List.getLast?_eq_none_iff.mp hstored, retryLast_nil] at hlast
      cases hlast
    | some stored =>
      rcases retryLast_not_due hstored (hnone stored hstored) with htaken | hpanic
      · rw [htaken] at hlast
        cases hlast
      · rw [hpanic] at hlast
        contradiction

theorem connectedRun_due : Due (.fromSecs 1001) (askedRequest.sent .zero (.fromSecs 2)) :=
  ⟨.fromSecs 1001, rfl, by decide⟩

theorem connectedRun_resend_panics :
    (clientRuns ieeeCrc32).Reachable connectedRun ∧
      ∃ packet taken, connectedRun.net.antarc.resendReliableConnectionRequest (.fromSecs 1001) =
          .ok (some packet, taken) ∧
        taken.sentConnectionRequest packet (.fromSecs 1001) = .error .unwrap := by
  obtain ⟨taken, hresend, hpanics⟩ := resend_panics (.fromSecs 1001)
    (settled_of_reachable connectedRun_reachable) rfl connectedRun_due
  exact ⟨connectedRun_reachable, _, taken, hresend, hpanics⟩

/-- Right after the request was sent, the resend returns nothing and is safe. -/
theorem connectedRun_resend_safe : ResendSafe connectedRun.net.antarc .zero .zero := by
  refine (resend_safe_iff_nothing_due ieeeCrc32 connectedRun connectedRun_reachable
    .zero .zero).mpr ?_
  rintro packet hlast ⟨sum, hsum, hlong⟩
  cases hlast
  cases hsum
  exact absurd hlong (by decide)

end Runs

end Antarc.Properties
