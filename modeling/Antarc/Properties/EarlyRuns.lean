import Antarc.Properties.Deliveries
import Antarc.Properties.Outboxes
import Antarc.Properties.Retries
import Antarc.Properties.Timely

/-! The first five hundred seconds of a run. A kept packet is sent again once the time at which
it was sent and the time of the retry add up to a thousand seconds; until then every retry takes
a packet from those that are kept and sends nothing. -/
namespace Antarc.Properties

open Library

/-- A reading of the timer in the first five hundred seconds. -/
def IsEarly (time : Duration) : Prop :=
  time ≤ .fromSecs 500

section Times

variable {B H : Type} [ServiceReliability B] [Handshaking B H]
  {handler after : ReliabilityHandler B} {now : Duration}

def keptTimes (handler : ReliabilityHandler B) : List Duration :=
  (expiries handler ++ (Handshaking.listSent handler.service).map expiryOf).map Prod.fst

theorem mem_keptTimes {time : Duration} : time ∈ keptTimes handler ↔
    (∃ expiry ∈ expiries handler, expiry.1 = time) ∨
      ∃ packet ∈ Handshaking.listSent handler.service, packet.delivery.metadata.time = time := by
  simp [keptTimes, expiryOf]

/-- No two early times make a packet due. -/
theorem retryLast_early {M : Type} {list left : List (Packet Sent M)}
    {result : Option (Packet ToSend M)}
    (hlist : ∀ packet ∈ list, IsEarly packet.delivery.metadata.time) (hnow : IsEarly now)
    (h : retryLast now list = .ok (result, left)) : result = none := by
  rcases retryLast_result h with ⟨hnone, -⟩ | ⟨stored, hlast, ⟨sum, hsum, hlong⟩, -⟩
  · exact hnone
  · have htime : stored.delivery.metadata.time.nanos ≤ (Duration.fromSecs 500).nanos :=
      hlist stored (List.mem_of_getLast? hlast)
    have hnow' : now.nanos ≤ (Duration.fromSecs 500).nanos := hnow
    have hlong' : (Duration.fromSecs 1000).nanos < sum.nanos := hlong
    have htwice : (Duration.fromSecs 500).nanos + (Duration.fromSecs 500).nanos =
      (Duration.fromSecs 1000).nanos := rfl
    rw [Duration.add_eq_ok.mp hsum] at hlong'
    omega

section Carried

variable {M : Type} [Carried M] [Expires M]

theorem keptTimes_keep (reliability : ReliabilityType) (sent : Packet Sent M) :
    ∀ time ∈ keptTimes (handler.keep reliability sent),
      time ∈ keptTimes handler ∨ time = sent.delivery.metadata.time := by
  intro time hmem
  rcases mem_keptTimes.mp hmem with ⟨expiry, hexpiry, rfl⟩ | ⟨packet, hpacket, rfl⟩
  · rcases expiries_keep handler reliability sent expiry hexpiry with hold | ⟨-, rfl⟩
    · exact .inl (mem_keptTimes.mpr (.inl ⟨expiry, hold, rfl⟩))
    · exact .inr rfl
  · rw [service_kept] at hpacket
    exact .inl (mem_keptTimes.mpr (.inr ⟨packet, hpacket, rfl⟩))

theorem keptTimes_retry {packet : Option (Packet ToSend M)}
    (hearly : ∀ time ∈ keptTimes handler, IsEarly time) (hnow : IsEarly now)
    (h : handler.retry now = .ok (packet, after)) :
    packet = none ∧ keptTimes after ⊆ keptTimes handler := by
  obtain ⟨hsubset, hservice⟩ := expiries_retry h
  obtain ⟨⟨_, list⟩, hlast, h⟩ := bind_eq_ok.mp h
  cases h
  refine ⟨retryLast_early (fun kept hmem => ?_) hnow hlast, fun time hmem => ?_⟩
  · exact hearly _ (mem_keptTimes.mpr (.inl ⟨_, Expires.expiry_mem handler kept hmem, rfl⟩))
  · rcases mem_keptTimes.mp hmem with ⟨expiry, hexpiry, rfl⟩ | ⟨kept, hkept, rfl⟩
    · exact mem_keptTimes.mpr (.inl ⟨expiry, hsubset hexpiry, rfl⟩)
    · rw [hservice] at hkept
      exact mem_keptTimes.mpr (.inr ⟨kept, hkept, rfl⟩)

end Carried

section Own

variable {list : List (Packet Sent H)}

theorem keptTimes_ownKeep (sent : Packet Sent H) :
    ∀ time ∈ keptTimes ({ handler with
        service := Handshaking.ofList (Handshaking.listSent handler.service ++ [sent]) } :
          ReliabilityHandler B),
      time ∈ keptTimes handler ∨ time = sent.delivery.metadata.time := by
  intro time hmem
  rcases mem_keptTimes.mp hmem with hold | ⟨packet, hpacket, rfl⟩
  · exact .inl (mem_keptTimes.mpr (.inl hold))
  · rw [Handshaking.listSent_ofList, List.mem_append, List.mem_singleton] at hpacket
    rcases hpacket with hold | rfl
    · exact .inl (mem_keptTimes.mpr (.inr ⟨packet, hold, rfl⟩))
    · exact .inr rfl

theorem keptTimes_ownRetry {packet : Option (Packet ToSend H)}
    (hearly : ∀ time ∈ keptTimes handler, IsEarly time) (hnow : IsEarly now)
    (h : retryLast now (Handshaking.listSent handler.service) = .ok (packet, list)) :
    packet = none ∧
      keptTimes ({ handler with service := Handshaking.ofList list } : ReliabilityHandler B) ⊆
        keptTimes handler := by
  refine ⟨retryLast_early (fun kept hmem => ?_) hnow h, fun time hmem => ?_⟩
  · exact hearly _ (mem_keptTimes.mpr (.inr ⟨kept, hmem, rfl⟩))
  · rcases mem_keptTimes.mp hmem with hold | ⟨kept, hkept, rfl⟩
    · exact mem_keptTimes.mpr (.inl hold)
    · rw [Handshaking.listSent_ofList] at hkept
      exact mem_keptTimes.mpr (.inr ⟨kept, (retryLast_cases h).1 kept hkept, rfl⟩)

end Own

theorem keptTimes_poll (h : handler.poll now = .ok after) :
    keptTimes after ⊆ keptTimes handler := by
  obtain ⟨-, rfl⟩ := handlerPoll_eq_ok.mp h
  refine List.map_subset _ (List.append_subset.mpr ⟨fun expiry hmem => ?_, ?_⟩)
  · exact List.mem_append_left _ (dropListHeads_subset _ _ _ hmem)
  · rw [dropHeads_handshakes]
    exact List.Subset.trans (List.map_subset _ (List.tail_subset _)) (List.subset_append_right _ _)

end Times

section Drivers

variable {S A B E H : Type} [Service S A B E] [ServiceReliability B] [Handshaking B H]
  {crc32 : Crc32} {net after : AntarcNet S}

def timesOf (protocol : Protocol S) : List Duration :=
  keptTimes protocol.core.reliabilityHandler

/-- All that went out went out for the first time, and all that is kept was sent early. -/
structure Early (net : AntarcNet S) : Prop where
  first : ∀ transmission ∈ net.socket, transmission.first = true
  kept : ∀ time ∈ timesOf net.antarc, IsEarly time

theorem Early.calls (early : Early net) (hsocket : after.socket = net.socket)
    (htimes : timesOf after.antarc ⊆ timesOf net.antarc) : Early after :=
  ⟨hsocket ▸ early.first, fun time hmem => early.kept time (htimes hmem)⟩

section Loops

variable {R M : Type} [Sendable M]
  {create : Protocol S → Scheduled R M → Duration → Exec (Packet ToSend M)}
  {account : Protocol S → Packet ToSend M → Duration → Exec (Protocol S)}
  {clock : Nat → Duration}

def KeepsNow (account : Protocol S → Packet ToSend M → Duration → Exec (Protocol S)) : Prop :=
  ∀ protocol packet now next, account protocol packet now = .ok next →
    ∀ time ∈ timesOf next, time ∈ timesOf protocol ∨ time = now

theorem Early.sendEach (haccount : KeepsNow account) (early : Early net)
    (hclock : ∀ reading, IsEarly (clock reading)) {entries : List (Scheduled R M)}
    (h : AntarcNet.sendEach crc32 create account clock entries net = .ok after) : Early after := by
  induction entries generalizing net clock with
  | nil =>
    cases h
    exact early
  | cons scheduled rest ih =>
    obtain ⟨middle, hturn, h⟩ := bind_eq_ok.mp h
    obtain ⟨packet, antarc, -, -, haccounted, rfl⟩ := turn_eq_ok.mp hturn
    refine ih ⟨?_, ?_⟩ (fun reading => hclock (reading + 2)) h
    · intro transmission hmem
      rcases List.mem_append.mp hmem with hmem | hmem
      · exact early.first transmission hmem
      · rw [List.mem_singleton.mp hmem]
    · intro time hmem
      rcases haccount _ _ _ _ haccounted time hmem with hold | rfl
      · exact early.kept time hold
      · exact hclock 1

theorem Early.pollQueue (haccount : KeepsNow account) (early : Early net)
    (hclock : ∀ reading, IsEarly (clock reading))
    {drain : Protocol S → Exec (List (Scheduled R M) × Protocol S)}
    (hdrain : ∀ protocol drained next, drain protocol = .ok (drained, next) →
      timesOf next ⊆ timesOf protocol)
    (h : AntarcNet.pollQueue crc32 drain create account clock net = .ok after) : Early after := by
  obtain ⟨⟨drained, antarc⟩, hdrained, h⟩ := bind_eq_ok.mp h
  have hearly : Early { net with antarc := antarc } :=
    early.calls rfl (hdrain _ _ _ (attempt_eq_ok.mp hdrained))
  exact hearly.sendEach haccount hclock h

theorem Early.pollStored (early : Early net) (hclock : IsEarly (clock 0))
    {retry : Protocol S → Duration → Exec (Option (Packet ToSend M) × Protocol S)}
    (hretry : ∀ protocol now packet next, (∀ time ∈ timesOf protocol, IsEarly time) →
      IsEarly now → retry protocol now = .ok (packet, next) →
      packet = none ∧ timesOf next ⊆ timesOf protocol)
    (h : AntarcNet.pollStored crc32 retry account clock net = .ok after) : Early after := by
  obtain ⟨⟨packet, antarc⟩, hretried, h⟩ := bind_eq_ok.mp h
  obtain ⟨rfl, htimes⟩ := hretry _ _ _ _ early.kept hclock (attempt_eq_ok.mp hretried)
  cases h
  exact early.calls rfl htimes

end Loops

section Passes

variable [PromotesPeer S]

theorem keepsNow_sent {M : Type} [Carried M] [Expires M] (reliability : ReliabilityType) :
    KeepsNow fun (protocol : Protocol S) (packet : Packet ToSend M) now =>
      protocol.sent packet reliability now := by
  intro protocol packet now next hsent time hmem
  obtain ⟨completes, core, -, hcore, rfl⟩ := sent_frame hsent
  obtain ⟨advanced, rfl⟩ := advanced_frame hcore
  obtain ⟨connected, hpromoted⟩ := PromotesPeer.frame protocol.service
    packet.delivery.metadata.address (Carried.connectionId packet.message) now
  simp only [timesOf, Protocol.core, Service.core_setCore, hpromoted] at hmem
  exact keptTimes_keep reliability _ time hmem

omit [PromotesPeer S] in
theorem timesOf_schedule {hash : RandomState} {reliability : ReliabilityType} {sendTo : SendTo}
    {payload : Payload} {now : Duration} {result : Result PacketId} {protocol next : Protocol S}
    (h : protocol.schedule hash reliability sendTo payload now = .ok (result, next)) :
    timesOf next ⊆ timesOf protocol := by
  rcases schedule_cases h with ⟨_, -, rfl⟩ | ⟨_, _, -, -, -, -, rfl⟩
  · exact List.Subset.refl _
  · simp only [timesOf, Protocol.core, Protocol.setCore, Service.core_setCore]
    exact List.Subset.refl _

omit [PromotesPeer S] in
theorem timesOf_heartbeat {hash : RandomState} {reliability : ReliabilityType} {sendTo : SendTo}
    {now : Duration} {result : Result PacketId} {protocol next : Protocol S}
    (h : protocol.heartbeat hash reliability sendTo now = .ok (result, next)) :
    timesOf next ⊆ timesOf protocol := by
  rcases heartbeat_cases h with ⟨_, -, rfl⟩ | ⟨_, _, -, -, -, -, rfl⟩
  · exact List.Subset.refl _
  · simp only [timesOf, Protocol.core, Protocol.setCore, Service.core_setCore]
    exact List.Subset.refl _

theorem Early.pollScheduled {R M : Type} [Queued R M] [Reliability R] [Carried M] [Expires M]
    [Sendable M] {create : Protocol S → Scheduled R M → Duration → Exec (Packet ToSend M)}
    {clock : Nat → Duration} (early : Early net) (hclock : ∀ reading, IsEarly (clock reading))
    (h : AntarcNet.pollScheduled crc32 create clock net = .ok after) : Early after := by
  refine early.pollQueue (keepsNow_sent (Reliability.kind R)) hclock ?_ h
  intro protocol drained next hdrain
  obtain ⟨_, rfl⟩ := drain_frame hdrain
  simp only [timesOf, core_setCore]
  exact List.Subset.refl _

omit [PromotesPeer S] in
theorem Early.pollRetry {M : Type} [Carried M] [Expires M] [Sendable M] {clock : Nat → Duration}
    (early : Early net) (hclock : ∀ reading, IsEarly (clock reading))
    (h : AntarcNet.pollRetry M crc32 clock net = .ok after) : Early after := by
  refine early.pollStored (hclock 0) ?_ h
  intro protocol now packet next hearly hnow hretry
  obtain ⟨handler, hhandler, rfl⟩ := retry_frame hretry
  simp only [timesOf, core_setCore]
  exact keptTimes_retry hearly hnow hhandler

theorem Early.pollCarried {clock : Clock} {pass : Nat} (early : Early net)
    (hclock : ∀ pass reading, IsEarly (clock pass reading))
    (h : net.pollCarried crc32 clock pass = .ok after) : Early after := by
  obtain ⟨_, hfirst, h⟩ := bind_eq_ok.mp h
  obtain ⟨_, hsecond, h⟩ := bind_eq_ok.mp h
  obtain ⟨_, hthird, h⟩ := bind_eq_ok.mp h
  obtain ⟨_, hfourth, h⟩ := bind_eq_ok.mp h
  obtain ⟨_, hfifth, h⟩ := bind_eq_ok.mp h
  have hearly := early.pollScheduled (hclock _) hfirst
  replace hearly := hearly.pollScheduled (hclock _) hsecond
  replace hearly := hearly.pollScheduled (hclock _) hthird
  replace hearly := hearly.pollScheduled (hclock _) hfourth
  exact (hearly.pollScheduled (hclock _) hfifth).pollScheduled (hclock _) h

omit [PromotesPeer S] in
theorem timesOf_report (outcome : Result Unit) (net : AntarcNet S) :
    timesOf (AntarcNet.report outcome net).antarc = timesOf net.antarc := by
  obtain ⟨_, hcore⟩ := report_core outcome net
  rw [timesOf, hcore]
  rfl

end Passes

end Drivers

section Clients

variable {crc32 : Crc32} {net after : AntarcNet Client}

theorem keepsNow_request : KeepsNow Protocol.sentConnectionRequest := by
  intro protocol packet now next hsent
  obtain ⟨_, _, -, -, rfl⟩ := sentConnectionRequest_frame hsent
  exact keptTimes_ownKeep (packet.sent now protocol.reliableTtl)

theorem Early.clientSend {clock : Clock} (early : Early net)
    (hclock : ∀ pass reading, IsEarly (clock pass reading))
    (h : net.clientSend crc32 clock = .ok after) : Early after := by
  obtain ⟨_, hresend, h⟩ := bind_eq_ok.mp h
  obtain ⟨_, hretry, h⟩ := bind_eq_ok.mp h
  obtain ⟨_, hrequests, h⟩ := bind_eq_ok.mp h
  have hearly := early.pollStored (hclock 0 0) (fun _ _ _ _ hearly hnow hcall => by
    obtain ⟨_, hlast, rfl⟩ := resend_frame hcall
    exact keptTimes_ownRetry hearly hnow hlast) hresend
  replace hearly := hearly.pollRetry (hclock 1) hretry
  replace hearly := hearly.pollQueue keepsNow_request (hclock 2) (fun _ _ _ hcall => by
    obtain ⟨_, -, rfl⟩ := drainConnectionRequest_frame hcall
    exact List.Subset.refl _) hrequests
  exact hearly.pollCarried hclock h

theorem Early.clientReceive {received elapsed : Duration} {datagram : Option RawPacket}
    {events : List (ProtocolEvent ClientEvent)} (early : Early net)
    (h : net.clientReceive crc32 received elapsed datagram = .ok (events, after)) :
    Early after := by
  cases datagram with
  | none => contradiction
  | some raw =>
    obtain ⟨outcome, heard, hreceived, hpoll, hsocket⟩ := clientReceive_calls h
    have hheard : timesOf heard = timesOf net.antarc := by
      obtain ⟨hcall, -⟩ := clientReceived_onReceived hreceived
      have hhandler : heard.service.reliabilityHandler = net.antarc.service.reliabilityHandler := by
        rcases client_onReceived_cases hcall with hsame | ⟨_, -, -, hhears⟩
        · rw [hsame]
        · exact hhears.kept.2.2
      exact congrArg keptTimes hhandler
    obtain ⟨handler, hhandler, -, hpolled⟩ := clientPoll_frame hpoll
    refine early.calls hsocket ?_
    rw [hpolled, ← hheard, ← timesOf_report outcome { net with antarc := heard }]
    exact keptTimes_poll hhandler

end Clients

section Servers

variable {crc32 : Crc32} {net after : AntarcNet Server}

theorem keepsNow_accepted : KeepsNow Protocol.sentConnectionAccepted := by
  intro protocol packet now next hsent
  obtain ⟨_, -, rfl⟩ := sentConnectionAccepted_frame hsent
  exact keptTimes_ownKeep (packet.sent now protocol.reliableTtl)

theorem Early.serverSend {clock : Clock} (early : Early net)
    (hclock : ∀ pass reading, IsEarly (clock pass reading))
    (h : net.serverSend crc32 clock = .ok after) : Early after := by
  obtain ⟨_, hresend, h⟩ := bind_eq_ok.mp h
  obtain ⟨_, hretry, h⟩ := bind_eq_ok.mp h
  obtain ⟨_, hretryFragment, h⟩ := bind_eq_ok.mp h
  obtain ⟨_, haccepts, h⟩ := bind_eq_ok.mp h
  have hearly := early.pollStored (hclock 0 0) (fun _ _ _ _ hearly hnow hcall => by
    obtain ⟨_, hlast, rfl⟩ := retryConnectionAccepted_frame hcall
    exact keptTimes_ownRetry hearly hnow hlast) hresend
  replace hearly := hearly.pollRetry (hclock 1) hretry
  replace hearly := hearly.pollRetry (hclock 2) hretryFragment
  replace hearly := hearly.pollQueue keepsNow_accepted (hclock 3) (fun _ _ _ hcall => by
    obtain ⟨_, -, rfl⟩ := drainConnectionAccepted_frame hcall
    exact List.Subset.refl _) haccepts
  exact hearly.pollCarried hclock h

theorem Early.serverReceive {hash : RandomState} {peerHash : ConnectionId → RandomState}
    {received elapsed now : Duration} {datagram : Option RawPacket}
    {events : List (ProtocolEvent ServerEvent)} (early : Early net)
    (h : net.serverReceive crc32 hash peerHash received elapsed now datagram =
      .ok (events, after)) : Early after := by
  cases datagram with
  | none => contradiction
  | some raw =>
    obtain ⟨outcome, heard, hreceived, hpoll, hsocket⟩ := serverReceive_calls h
    have hheard : timesOf heard = timesOf net.antarc := by
      obtain ⟨answered, hcall, -⟩ := serverReceived_onReceived hreceived
      have hhandler : heard.service.reliabilityHandler = net.antarc.service.reliabilityHandler := by
        rcases server_onReceived_cases hcall with
          hsame | ⟨_, _, -, -, -, hhears⟩ | ⟨_, -, -, hadmits⟩
        · rw [hsame]
        · exact hhears.kept.2
        · exact handler_of_admits hadmits
      exact congrArg keptTimes hhandler
    obtain ⟨handler, _, hhandler, -, -, hpolled⟩ := serverPoll_frame hpoll
    refine early.calls hsocket ?_
    rw [hpolled, ← hheard, ← timesOf_report outcome { net with antarc := heard }]
    exact keptTimes_poll hhandler

end Servers

section Runs

inductive ClientEarly (crc32 : Crc32) (net : AntarcNet Client)
    (batches : Batches Channel QueueEntry) :
    AntarcNet Client → Batches Channel QueueEntry → Prop where
  | carried (next : AntarcNet Client) (later : Batches Channel QueueEntry)
      (call : CarriedBatch net batches next later) : ClientEarly crc32 net batches next later
  | connect (address : SocketAddr) (now : Duration) (result : Result Unit)
      (next : AntarcNet Client) (call : net.connect address now = .ok (result, next)) :
      ClientEarly crc32 net batches next batches
  | poll (clock : Clock) (early : ∀ pass reading, IsEarly (clock pass reading))
      (datagram : Option RawPacket) (events : List (ProtocolEvent ClientEvent))
      (next : AntarcNet Client) (call : net.clientPoll crc32 clock datagram = .ok (events, next)) :
      ClientEarly crc32 net batches next batches.close

inductive ServerEarly (crc32 : Crc32) (net : AntarcNet Server)
    (batches : Batches Channel QueueEntry) :
    AntarcNet Server → Batches Channel QueueEntry → Prop where
  | carried (next : AntarcNet Server) (later : Batches Channel QueueEntry)
      (call : CarriedBatch net batches next later) : ServerEarly crc32 net batches next later
  | poll (hash : RandomState) (peerHash : ConnectionId → RandomState) (clock : Clock)
      (early : ∀ pass reading, IsEarly (clock pass reading)) (datagram : Option RawPacket)
      (events : List (ProtocolEvent ServerEvent)) (next : AntarcNet Server)
      (call : net.serverPoll crc32 hash peerHash clock datagram = .ok (events, next)) :
      ServerEarly crc32 net batches next batches.close

def earlyClientRuns (crc32 : Crc32) : Machine (AntarcNet Client × Batches Channel QueueEntry) where
  init := (clientBatches crc32).init
  step run next := ClientEarly crc32 run.1 run.2 next.1 next.2

def earlyServerRuns (crc32 : Crc32) : Machine (AntarcNet Server × Batches Channel QueueEntry) where
  init := (serverBatches crc32).init
  step run next := ServerEarly crc32 run.1 run.2 next.1 next.2

variable {crc32 : Crc32} {batches later : Batches Channel QueueEntry}

theorem ClientEarly.batch {net next : AntarcNet Client}
    (h : ClientEarly crc32 net batches next later) : ClientBatch crc32 net batches next later := by
  cases h with
  | carried _ _ call => exact .carried _ _ call
  | connect address now result _ call => exact .connect address now result _ call
  | poll clock early datagram events _ call => exact .poll clock datagram events _ call

theorem ServerEarly.batch {net next : AntarcNet Server}
    (h : ServerEarly crc32 net batches next later) : ServerBatch crc32 net batches next later := by
  cases h with
  | carried _ _ call => exact .carried _ _ call
  | poll hash peerHash clock early datagram events _ call =>
    exact .poll hash peerHash clock datagram events _ call

theorem Early.carriedBatch {S A B E H : Type} [Service S A B E] [ServiceReliability B]
    [Handshaking B H] {net next : AntarcNet S} (early : Early net)
    (h : CarriedBatch net batches next later) : Early next := by
  cases h with
  | schedule hash reliability sendTo payload now result _ call =>
    obtain ⟨⟨_, antarc⟩, hcall, call⟩ := bind_eq_ok.mp call
    cases call
    exact early.calls rfl (timesOf_schedule (attempt_eq_ok.mp hcall))
  | heartbeat hash reliability sendTo now result _ call =>
    obtain ⟨⟨_, antarc⟩, hcall, call⟩ := bind_eq_ok.mp call
    cases call
    exact early.calls rfl (timesOf_heartbeat (attempt_eq_ok.mp hcall))

theorem ClientEarly.keeps {net next : AntarcNet Client} (early : Early net)
    (h : ClientEarly crc32 net batches next later) : Early next := by
  cases h with
  | carried _ _ call => exact early.carriedBatch call
  | connect address now result _ call =>
    obtain ⟨⟨_, antarc⟩, hconnect, call⟩ := bind_eq_ok.mp call
    cases call
    rcases connect_cases (attempt_eq_ok.mp hconnect) with ⟨_, -, rfl⟩ | ⟨_, -, -, -, rfl⟩
    · exact early
    · exact early.calls rfl (List.Subset.refl _)
  | poll clock readings datagram events _ call =>
    obtain ⟨sent, hsent, hreceived⟩ := bind_eq_ok.mp call
    exact (early.clientSend readings hsent).clientReceive hreceived

theorem ServerEarly.keeps {net next : AntarcNet Server} (early : Early net)
    (h : ServerEarly crc32 net batches next later) : Early next := by
  cases h with
  | carried _ _ call => exact early.carriedBatch call
  | poll hash peerHash clock readings datagram events _ call =>
    obtain ⟨sent, hsent, hreceived⟩ := bind_eq_ok.mp call
    exact (early.serverSend readings hsent).serverReceive hreceived

def carriedSent (socket : List Transmission) : List QueueEntry :=
  (socket.map sentEntry).filter fun entry => entry.body.connection.isSome

/-- Nothing went out twice, and all that was queued went out or waits. -/
structure GoesOnce {S A B E : Type} [Service S A B E] (net : AntarcNet S)
    (batches : Batches Channel QueueEntry) : Prop where
  first : ∀ transmission ∈ net.socket, transmission.first = true
  once : (carriedSent net.socket ++ sendOrder.flatMap (waitingOn net.antarc.core.scheduler)).Perm
    (batches.all.map Prod.snd)

theorem SendsBatches.goesOnce {S A B E : Type} [Service S A B E] {net : AntarcNet S}
    (sends : SendsBatches net batches)
    (hfirst : ∀ transmission ∈ net.socket, transmission.first = true) : GoesOnce net batches := by
  refine ⟨hfirst, ?_⟩
  have honce := sends.once
  rwa [carriedFirst, firstSent, List.filter_eq_self.mpr hfirst] at honce

/-- In every run of either driver whose polls read the timer in its first five hundred seconds,
whatever datagrams arrive and whatever is lost: no packet is sent again, and each entry that a
call of `schedule` or `heartbeat` queued is on the wire once, reliable or not. -/
theorem early_traffic_goes_once (crc32 : Crc32) :
    (∀ run, (earlyClientRuns crc32).Reachable run → GoesOnce run.1 run.2) ∧
      ∀ run, (earlyServerRuns crc32).Reachable run → GoesOnce run.1 run.2 := by
  constructor
  · intro run h
    have hreachable : (clientBatches crc32).Reachable run := by
      refine h.invariant (clientBatches crc32).Reachable ?_ ?_
      · exact fun _ hinit => .start hinit
      · exact fun _ _ _ hreachable hstep => hreachable.next (ClientEarly.batch hstep)
    have hearly : Early run.1 := by
      refine h.invariant (fun run => Early run.1) ?_ fun _ _ _ => ClientEarly.keeps
      rintro _ ⟨address, rfl⟩
      exact ⟨fun _ hmem => absurd hmem List.not_mem_nil, fun _ hmem => absurd hmem List.not_mem_nil⟩
    exact (client_sendsBatches hreachable).goesOnce hearly.first
  · intro run h
    have hreachable : (serverBatches crc32).Reachable run := by
      refine h.invariant (serverBatches crc32).Reachable ?_ ?_
      · exact fun _ hinit => .start hinit
      · exact fun _ _ _ hreachable hstep => hreachable.next (ServerEarly.batch hstep)
    have hearly : Early run.1 := by
      refine h.invariant (fun run => Early run.1) ?_ fun _ _ _ => ServerEarly.keeps
      rintro _ ⟨address, reliableTtl, rfl⟩
      exact ⟨fun _ hmem => absurd hmem List.not_mem_nil, fun _ hmem => absurd hmem List.not_mem_nil⟩
    exact (server_sendsBatches hreachable).goesOnce hearly.first

theorem earlyClientRuns_next {net next : AntarcNet Client}
    (h : (earlyClientRuns crc32).Reachable (net, batches))
    (hstep : ClientEarly crc32 net batches next later) :
    (earlyClientRuns crc32).Reachable (next, later) :=
  h.next hstep

theorem earlyClientRuns_carried {run next : AntarcNet Client × Batches Channel QueueEntry}
    (h : (earlyClientRuns crc32).Reachable run) (hcalls : CarriedBatches run next) :
    (earlyClientRuns crc32).Reachable next := by
  induction hcalls with
  | refl => exact h
  | tail _ hcall ih => exact earlyClientRuns_next ih (.carried _ _ hcall)

/-- A client that connects and sends what it has queued, with a timer that stands still. -/
theorem bundle_goes_once : ∃ run, (earlyClientRuns ieeeCrc32).Reachable run ∧
    run.2.past = [[], bundledItems] ∧ carriedSent run.1.socket = bundledSent ∧
    GoesOnce run.1 run.2 := by
  have hclock : ∀ pass reading, IsEarly ((fun _ _ => .zero : Clock) pass reading) :=
    fun _ _ => Nat.zero_le _
  obtain ⟨bundled, hcalls, events, client, hpolled, hsent⟩ :=
    greetedClient_bundles (Classical.arbitrary RandomState)
  have hconnected : ClientEarly ieeeCrc32 (.newClient (.v4 1 1)) .new askedRun.net .new :=
    .connect (.v4 0 0) .zero (.ok ()) _ rfl
  have hgreeted : ClientEarly ieeeCrc32 askedRun.net .new greetedClient Batches.new.close :=
    .poll _ hclock _ _ _ askedRun_greeted
  have hnew : (earlyClientRuns ieeeCrc32).Reachable (.newClient (.v4 1 1), .new) :=
    .start ⟨_, rfl⟩
  have hqueued := earlyClientRuns_carried
    (earlyClientRuns_next (earlyClientRuns_next hnew hconnected) hgreeted) hcalls
  have hrun := earlyClientRuns_next hqueued (.poll _ hclock _ events client hpolled)
  have hgoes := (early_traffic_goes_once ieeeCrc32).1 _ hrun
  rw [carriedFirst, firstSent, List.filter_eq_self.mpr hgoes.first] at hsent
  exact ⟨_, hrun, rfl, hsent, hgoes⟩

end Runs

end Antarc.Properties
