import Antarc.Library.Simulation
import Antarc.Net.Exchange
import Antarc.Properties.Deliveries
import Antarc.Properties.Fragments

/-! What is handed over was asked for. Each queue entry that carries bytes is a chunk of an
order, under the order's packet id; no two orders of a party have one id, so fragments of one
packet are chunks of one payload. -/
namespace Antarc.Properties

open Library

section Orders

def Body.carries : Body → Bool
  | .dataTransfer _ => true
  | .fragment _ => true
  | _ => false

/-- An entry that carries bytes is a chunk of an order that covers its connection. -/
def Ordered (orders : List Order) (entry : QueueEntry) : Prop :=
  entry.body.carries = true → ∃ order ∈ orders, order.packetId = entry.packetId ∧
    ∃ id, order.Covers id ∧ ∃ chunk ∈ numberedChunks order.payload,
      entry.body = chunkBody (numberedChunks order.payload).length id chunk

variable {orders : List Order}

theorem Ordered.mono {entry : QueueEntry} (h : Ordered orders entry) (more : List Order) :
    Ordered (orders ++ more) entry := by
  intro hcarries
  obtain ⟨order, hmem, hrest⟩ := h hcarries
  exact ⟨order, List.mem_append_left _ hmem, hrest⟩

theorem sparesHandshakes_ordered (orders : List Order) : SparesHandshakes (Ordered orders) := by
  rintro ⟨packetId, address, body⟩ hconnection hcarries
  cases body <;> contradiction

/-- Orders are under distinct packet ids, and all ids in use are behind the tracker. -/
structure Numbered (orders : List Order) (tracker : PacketId) : Prop where
  before : ∀ order ∈ orders, order.packetId.toNat < tracker.toNat
  distinct : (orders.map Order.packetId).Nodup

theorem Numbered.mono {tracker later : PacketId} (h : Numbered orders tracker)
    (hgrows : tracker.toNat ≤ later.toNat) : Numbered orders later :=
  ⟨fun order hmem => (h.before order hmem).trans_le hgrows, h.distinct⟩

theorem Numbered.append {tracker later : PacketId} (h : Numbered orders tracker) (order : Order)
    (hid : order.packetId = tracker) (hnext : tracker.toNat < later.toNat) :
    Numbered (orders ++ [order]) later := by
  constructor
  · intro other hmem
    rcases List.mem_append.mp hmem with hmem | hmem
    · exact (h.before other hmem).trans hnext
    · rw [List.mem_singleton.mp hmem, hid]
      exact hnext
  · rw [List.map_append, List.map_singleton, List.nodup_append]
    refine ⟨h.distinct, List.nodup_singleton _, ?_⟩
    rintro _ hmem _ hsame rfl
    obtain ⟨other, hother, heq⟩ := List.mem_map.mp hmem
    have hlt := h.before other hother
    rw [heq, List.mem_singleton.mp hsame, hid] at hlt
    exact Nat.lt_irrefl _ hlt

end Orders

section Parties

variable {S A B E : Type} [Service S A B E] {orders : List Order} {net after : AntarcNet S}

/-- All that a party holds and has sent was ordered. -/
structure Placed (orders : List Order) (net : AntarcNet S) : Prop where
  sourced : Sourced (Ordered orders) net
  numbered : Numbered orders net.antarc.packetIdTracker

theorem Placed.keeps (h : Placed orders net)
    (hsourced : Sourced (Ordered orders) net → Sourced (Ordered orders) after)
    (htracker : net.antarc.packetIdTracker.toNat ≤ after.antarc.packetIdTracker.toNat) :
    Placed orders after :=
  ⟨hsourced h.sourced, h.numbered.mono htracker⟩

theorem covers_of_targets {core : ServiceCore A B E} {hash : RandomState} {sendTo : SendTo}
    {targets : List Target} (h : core.targets hash sendTo = .ok targets) (packetId : PacketId)
    (payload : Payload) :
    ∀ target ∈ targets, (⟨packetId, sendTo, payload⟩ : Order).Covers target.1 := by
  intro target hmem
  unfold ServiceCore.targets at h
  cases sendTo with
  | single id =>
    dsimp only at h
    split at h
    · cases h
      rw [List.mem_singleton.mp hmem]
      exact .inl rfl
    · contradiction
  | broadcast => exact .inr rfl

theorem heldEntries_scheduler (protocol : Protocol S) (scheduler : Scheduler A)
    (tracker : PacketId) :
    heldEntries { protocol.setCore { protocol.core with scheduler := scheduler } with
        packetIdTracker := tracker } =
      entriesOf scheduler ++
        (storedLines protocol.core.reliabilityHandler).map Line.entry := by
  have hcore : Protocol.core { protocol.setCore { protocol.core with scheduler := scheduler } with
      packetIdTracker := tracker } = { protocol.core with scheduler := scheduler } :=
    core_setCore protocol _
  rw [heldEntries, queuedEntries, hcore]
  rfl

theorem Placed.schedule {hash : RandomState} {reliability : ReliabilityType} {sendTo : SendTo}
    {payload : Payload} {now : Duration} {result : Result PacketId} (h : Placed orders net)
    (hcall : net.schedule hash reliability sendTo payload now = .ok (result, after)) :
    Placed (Exchange.noted orders result ⟨net.antarc.packetIdTracker, sendTo, payload⟩) after := by
  obtain ⟨⟨_, antarc⟩, hschedule, hcall⟩ := bind_eq_ok.mp hcall
  cases hcall
  rcases schedule_cases (attempt_eq_ok.mp hschedule) with
    ⟨error, rfl, rfl⟩ | ⟨targets, tracker, -, htargets, htracker, rfl, rfl⟩
  · exact h
  · let order : Order := ⟨net.antarc.packetIdTracker, sendTo, payload⟩
    have hcounted := addU64_one_eq_ok htracker
    refine ⟨?_, h.numbered.append order rfl (hcounted ▸ Nat.lt_succ_self _)⟩
    have hsourced : Sourced (Ordered (orders ++ [order])) net :=
      ⟨fun entry hmem => (h.sourced.held entry hmem).mono _,
        fun transmission hmem => (h.sourced.sent transmission hmem).mono _⟩
    refine hsourced.calls fun entry hmem => ?_
    rw [heldEntries_scheduler] at hmem
    rcases List.mem_append.mp hmem with hmem | hmem
    · rcases List.mem_append.mp ((entriesOf_queued_perm ..).mem_iff.mp hmem) with hmem | hmem
      · obtain ⟨chunk, hchunk, hmem⟩ := List.mem_flatMap.mp hmem
        obtain ⟨target, htarget, rfl⟩ := List.mem_map.mp hmem
        have hcovers : order.Covers target.1 := by
          rcases htargets with hnone | htargets
          · rw [hnone] at hchunk
            contradiction
          · exact covers_of_targets htargets _ _ target htarget
        exact .inr fun _ => ⟨order, List.mem_append_right _ (List.mem_singleton_self _), rfl,
          target.1, hcovers, chunk, hchunk, rfl⟩
      · exact .inl (List.mem_append_left _ hmem)
    · exact .inl (List.mem_append_right _ hmem)

theorem Placed.heartbeat {hash : RandomState} {reliability : ReliabilityType} {sendTo : SendTo}
    {now : Duration} {result : Result PacketId} (h : Placed orders net)
    (hcall : net.heartbeat hash reliability sendTo now = .ok (result, after)) :
    Placed orders after := by
  obtain ⟨⟨_, antarc⟩, hheartbeat, hcall⟩ := bind_eq_ok.mp hcall
  cases hcall
  rcases heartbeat_cases (attempt_eq_ok.mp hheartbeat) with
    ⟨error, rfl, rfl⟩ | ⟨targets, tracker, -, -, htracker, rfl, rfl⟩
  · exact h
  · refine h.keeps (fun hsourced => ?_) ((addU64_one_eq_ok htracker).symm ▸ Nat.le_succ _)
    refine hsourced.calls fun entry hmem => ?_
    rw [heldEntries_scheduler] at hmem
    rcases List.mem_append.mp hmem with hmem | hmem
    · rcases List.mem_append.mp ((entriesOf_beaten_perm ..).mem_iff.mp hmem) with hmem | hmem
      · obtain ⟨target, -, rfl⟩ := List.mem_map.mp hmem
        exact .inr fun hcarries => by contradiction
      · exact .inl (List.mem_append_left _ hmem)
    · exact .inl (List.mem_append_right _ hmem)

theorem tracker_common {protocol next : Protocol S} {kept : Option Duration}
    (h : CommonWork protocol kept next) :
    protocol.packetIdTracker.toNat ≤ next.packetIdTracker.toNat := by
  cases h with
  | schedule hash reliability sendTo payload now result next call =>
    rcases schedule_cases call with ⟨_, -, rfl⟩ | ⟨_, tracker, -, -, htracker, -, rfl⟩
    · exact le_rfl
    · exact (addU64_one_eq_ok htracker).symm ▸ Nat.le_succ _
  | heartbeat hash reliability sendTo now result next call =>
    rcases heartbeat_cases call with ⟨_, -, rfl⟩ | ⟨_, tracker, -, -, htracker, -, rfl⟩
    · exact le_rfl
    · exact (addU64_one_eq_ok htracker).symm ▸ Nat.le_succ _
  | drain R M start stop drained next call =>
    obtain ⟨_, rfl⟩ := drain_frame call
    exact le_rfl
  | sent M packet reliability now next call =>
    obtain ⟨_, _, -, -, rfl⟩ := sent_frame call
    exact le_rfl
  | retry M now packet next call =>
    obtain ⟨_, -, rfl⟩ := retry_frame call
    exact le_rfl

/-- Receiving makes no entry, and what is kept for a retry may be dropped. -/
theorem Placed.received (h : Placed orders net)
    (hqueued : queuedEntries after.antarc = queuedEntries net.antarc)
    (hstored : ∀ line ∈ storedLines after.antarc.core.reliabilityHandler,
      line ∈ storedLines net.antarc.core.reliabilityHandler) (hsocket : after.socket = net.socket)
    (htracker : net.antarc.packetIdTracker.toNat ≤ after.antarc.packetIdTracker.toNat) :
    Placed orders after := by
  refine h.keeps (fun hsourced => ⟨fun entry hmem => hsourced.held entry ?_, ?_⟩) htracker
  · rw [heldEntries, hqueued] at hmem
    exact List.mem_append.mpr ((List.mem_append.mp hmem).imp id fun hmem =>
      List.map_subset _ hstored hmem)
  · rw [hsocket]
    exact hsourced.sent

end Parties

section Clients

variable {crc32 : Crc32} {orders : List Order} {net after : AntarcNet Client}

theorem tracker_client {protocol next : Protocol Client} {kept : Option Duration}
    (h : ClientWork protocol kept next) :
    protocol.packetIdTracker.toNat ≤ next.packetIdTracker.toNat := by
  cases h with
  | common call => exact tracker_common call
  | connect address now result next call => exact (stamps_connect call).grows
  | drainConnectionRequest start stop drained next call =>
    obtain ⟨_, -, rfl⟩ := drainConnectionRequest_frame call
    exact le_rfl
  | sentConnectionRequest packet now next call =>
    obtain ⟨_, _, -, -, rfl⟩ := sentConnectionRequest_frame call
    exact le_rfl
  | resendConnectionRequest now packet next call =>
    obtain ⟨_, -, rfl⟩ := resend_frame call
    exact le_rfl
  | poll elapsed events next call =>
    obtain ⟨_, -, -, rfl⟩ := clientPoll_frame call
    exact le_rfl

theorem Placed.connect {address : SocketAddr} {now : Duration} {result : Result Unit}
    (h : Placed orders net) (hcall : net.connect address now = .ok (result, after)) :
    Placed orders after := by
  obtain ⟨⟨_, antarc⟩, hconnect, hcall⟩ := bind_eq_ok.mp hcall
  cases hcall
  have hconnect := attempt_eq_ok.mp hconnect
  refine h.keeps (fun hsourced => hsourced.calls fun entry hmem => .inl ?_)
    (stamps_connect hconnect).grows
  rcases connect_cases hconnect with ⟨_, -, rfl⟩ | ⟨_, -, -, -, rfl⟩
  · exact hmem
  · exact hmem

theorem Placed.clientSend {clock : Clock} (h : Placed orders net)
    (hcall : net.clientSend crc32 clock = .ok after) : Placed orders after := by
  refine h.keeps (fun hsourced => hsourced.clientSend (sparesHandshakes_ordered orders) hcall) ?_
  exact (works_clientSend hcall).keeps
    (fun protocol => net.antarc.packetIdTracker.toNat ≤ protocol.packetIdTracker.toNat)
    (fun _ _ _ hle hwork => hle.trans (tracker_client hwork)) le_rfl

theorem Placed.clientReceive {received elapsed : Duration} {raw : RawPacket}
    {events : List (ProtocolEvent ClientEvent)} (h : Placed orders net)
    (hcall : net.clientReceive crc32 received elapsed (some raw) = .ok (events, after)) :
    Placed orders after := by
  have hload := load_clientReceive hcall
  obtain ⟨outcome, heard, hreceived, hpoll, hsocket⟩ := clientReceive_calls hcall
  obtain ⟨handler, hhandler, -, hpolled⟩ := clientPoll_frame hpoll
  obtain ⟨_, hreported⟩ := report_core outcome { net with antarc := heard }
  obtain ⟨hheard, -⟩ := clientReceived_onReceived hreceived
  have hkept : heard.service.reliabilityHandler = net.antarc.service.reliabilityHandler := by
    rcases client_onReceived_cases hheard with hsame | ⟨_, -, -, hhears⟩
    · rw [hsame]
    · exact hhears.kept.2.2
  have hstored : ∀ line ∈ storedLines after.antarc.core.reliabilityHandler,
      line ∈ storedLines net.antarc.core.reliabilityHandler := by
    rw [hpolled]
    intro line hline
    have hline := (stored_poll hhandler).1 line hline
    change line ∈ storedLines (AntarcNet.report outcome
      { net with antarc := heard }).antarc.core.reliabilityHandler at hline
    rw [hreported] at hline
    change line ∈ storedLines heard.service.reliabilityHandler at hline
    rwa [hkept] at hline
  exact h.received (congrArg Prod.fst hload) hstored hsocket
    (congrArg (fun load => load.2.toNat) hload).ge

end Clients

section Servers

variable {crc32 : Crc32} {orders : List Order} {net after : AntarcNet Server}

theorem tracker_server {protocol next : Protocol Server} {kept : Option Duration}
    (h : ServerWork protocol kept next) :
    protocol.packetIdTracker.toNat ≤ next.packetIdTracker.toNat := by
  cases h with
  | common call => exact tracker_common call
  | drainConnectionAccepted start stop drained next call =>
    obtain ⟨_, -, rfl⟩ := drainConnectionAccepted_frame call
    exact le_rfl
  | sentConnectionAccepted packet now next call =>
    obtain ⟨_, -, rfl⟩ := sentConnectionAccepted_frame call
    exact le_rfl
  | retryConnectionAccepted now packet next call =>
    obtain ⟨_, -, rfl⟩ := retryConnectionAccepted_frame call
    exact le_rfl
  | poll hash peerHash elapsed now events next call =>
    obtain ⟨_, _, -, -, -, rfl⟩ := serverPoll_frame call
    exact le_rfl

theorem Placed.serverSend {clock : Clock} (h : Placed orders net)
    (hcall : net.serverSend crc32 clock = .ok after) : Placed orders after := by
  refine h.keeps (fun hsourced => hsourced.serverSend (sparesHandshakes_ordered orders) hcall) ?_
  exact (works_serverSend hcall).keeps
    (fun protocol => net.antarc.packetIdTracker.toNat ≤ protocol.packetIdTracker.toNat)
    (fun _ _ _ hle hwork => hle.trans (tracker_server hwork)) le_rfl

theorem handler_serverReceived {registry : Registry SocketAddr} {protocol heard : Protocol Server}
    (table : ServerTable registry protocol.service) {hash : RandomState} {raw : RawPacket}
    {now : Duration} {result : Result Unit}
    (h : protocol.serverReceived crc32 hash raw now = .ok (result, heard)) :
    heard.service.reliabilityHandler = protocol.service.reliabilityHandler := by
  obtain ⟨_, hreceived, -⟩ := serverReceived_onReceived h
  exact (table.received_accepts hreceived).1

theorem Placed.serverReceive {registry : Registry SocketAddr} {hash : RandomState}
    {peerHash : ConnectionId → RandomState} {received elapsed now : Duration} {raw : RawPacket}
    {events : List (ProtocolEvent ServerEvent)} (h : Placed orders net)
    (table : ServerTable registry net.antarc.service)
    (hcall : net.serverReceive crc32 hash peerHash received elapsed now (some raw) =
      .ok (events, after)) : Placed orders after := by
  obtain ⟨hqueued, htracker⟩ := load_serverReceive hcall
  obtain ⟨outcome, heard, hreceived, hpoll, hsocket⟩ := serverReceive_calls hcall
  obtain ⟨handler, _, hhandler, -, -, hpolled⟩ := serverPoll_frame hpoll
  obtain ⟨_, hreported⟩ := report_core outcome { net with antarc := heard }
  have hkept := handler_serverReceived table hreceived
  have hstored : ∀ line ∈ storedLines after.antarc.core.reliabilityHandler,
      line ∈ storedLines net.antarc.core.reliabilityHandler := by
    rw [hpolled]
    intro line hline
    have hline := (stored_poll hhandler).1 line hline
    change line ∈ storedLines (AntarcNet.report outcome
      { net with antarc := heard }).antarc.core.reliabilityHandler at hline
    rw [hreported] at hline
    change line ∈ storedLines heard.service.reliabilityHandler at hline
    rwa [hkept] at hline
  exact h.received hqueued hstored hsocket htracker

end Servers

section Runs

variable {crc32 : Crc32} {host : SocketAddr} {exchange : Exchange}

theorem world_of_reachable (h : (exchanges crc32 host).Reachable exchange) :
    (worlds crc32 host).Reachable exchange.world := by
  refine h.view Exchange.world (fun exchange (hinit : (exchanges crc32 host).init exchange) =>
    hinit.1) fun exchange next hstep => ?_
  cases hstep with
  | clientScheduled address client hash reliability sendTo payload now result net call =>
    exact .clientCalled address client _ (.schedule hash reliability sendTo payload now) net
      (map_eq_ok.mpr ⟨_, call, rfl⟩)
  | serverScheduled hash reliability sendTo payload now result net call =>
    exact .serverCalled _ (.schedule hash reliability sendTo payload now) net
      (map_eq_ok.mpr ⟨_, call, rfl⟩)
  | clientBeat address client hash reliability sendTo now result net call =>
    exact .clientCalled address client _ (.heartbeat hash reliability sendTo now) net
      (map_eq_ok.mpr ⟨_, call, rfl⟩)
  | serverBeat hash reliability sendTo now result net call =>
    exact .serverCalled _ (.heartbeat hash reliability sendTo now) net
      (map_eq_ok.mpr ⟨_, call, rfl⟩)
  | connect address client now result net call =>
    exact .connect address client now result net call
  | clientSent address client clock net call => exact .clientSent address client clock net call
  | serverSent clock net call => exact .serverSent clock net call
  | clientReceived address client raw arrives received elapsed events net call =>
    exact .clientReceived address client raw arrives received elapsed events net call
  | serverReceived raw arrives hash peerHash received elapsed now events net call =>
    exact .serverReceived raw arrives hash peerHash received elapsed now events net call

/-- Every run of the world is an exchange: the notes are only taken. -/
theorem exists_exchange {world : World} (h : (worlds crc32 host).Reachable world) :
    ∃ exchange, (exchanges crc32 host).Reachable exchange ∧ exchange.world = world := by
  have answers : (exchanges crc32 host).Answers (worlds crc32 host)
      fun world exchange => exchange.world = world := by
    refine ⟨fun world hinit => ⟨⟨world, fun _ => []⟩, ⟨hinit, rfl⟩, rfl⟩, ?_⟩
    rintro _ next exchange - - rfl hstep
    have hanswer : ∃ later, Exchange.Step crc32 host exchange later ∧ later.world = next := by
      cases hstep with
      | connect address client now result net call =>
        exact ⟨_, .connect address client now result net call, rfl⟩
      | clientCalled address client outcome call net returned =>
        cases call with
        | schedule hash reliability sendTo payload now =>
          obtain ⟨⟨result, _⟩, hcall, rfl⟩ := map_eq_ok.mp returned
          exact ⟨_, .clientScheduled address client hash reliability sendTo payload now result _
            hcall, rfl⟩
        | heartbeat hash reliability sendTo now =>
          obtain ⟨⟨result, _⟩, hcall, rfl⟩ := map_eq_ok.mp returned
          exact ⟨_, .clientBeat address client hash reliability sendTo now result _ hcall, rfl⟩
      | clientSent address client clock net call =>
        exact ⟨_, .clientSent address client clock net call, rfl⟩
      | clientReceived address client raw arrives received elapsed events net call =>
        exact ⟨_, .clientReceived address client raw arrives received elapsed events net call, rfl⟩
      | serverCalled outcome call net returned =>
        cases call with
        | schedule hash reliability sendTo payload now =>
          obtain ⟨⟨result, _⟩, hcall, rfl⟩ := map_eq_ok.mp returned
          exact ⟨_, .serverScheduled hash reliability sendTo payload now result _ hcall, rfl⟩
        | heartbeat hash reliability sendTo now =>
          obtain ⟨⟨result, _⟩, hcall, rfl⟩ := map_eq_ok.mp returned
          exact ⟨_, .serverBeat hash reliability sendTo now result _ hcall, rfl⟩
      | serverSent clock net call => exact ⟨_, .serverSent clock net call, rfl⟩
      | serverReceived raw arrives hash peerHash received elapsed now events net call =>
        exact ⟨_, .serverReceived raw arrives hash peerHash received elapsed now events net call,
          rfl⟩
    obtain ⟨later, hlater, hworld⟩ := hanswer
    exact ⟨later, .single hlater, hworld⟩
  exact answers.reachable h

structure AllPlaced (host : SocketAddr) (exchange : Exchange) : Prop where
  server : Placed (exchange.orders host) exchange.world.server
  clients : ∀ address, address ≠ host →
    Placed (exchange.orders address) (exchange.world.clients address)

theorem AllPlaced.server_moves (h : AllPlaced host exchange) {net : AntarcNet Server}
    {orders : SocketAddr → List Order} (hplaced : Placed (orders host) net)
    (hothers : ∀ address, address ≠ host → orders address = exchange.orders address) :
    AllPlaced host ⟨{ exchange.world with server := net }, orders⟩ where
  server := hplaced
  clients := fun address client => by
    dsimp only
    rw [hothers address client]
    exact h.clients address client

theorem AllPlaced.client_moves (h : AllPlaced host exchange) {address : SocketAddr}
    (client : address ≠ host) {net : AntarcNet Client} {orders : SocketAddr → List Order}
    (hplaced : Placed (orders address) net)
    (hothers : ∀ other, other ≠ address → orders other = exchange.orders other) :
    AllPlaced host ⟨exchange.world.setClient address net, orders⟩ where
  server := by
    dsimp only
    rw [hothers host client.symm]
    exact h.server
  clients := by
    intro other hother
    dsimp only
    by_cases hsame : other = address
    · subst hsame
      rwa [clients_setClient_self]
    · have hclient : (exchange.world.setClient address net).clients other =
          exchange.world.clients other := Function.update_of_ne hsame ..
      rw [hothers other hsame, hclient]
      exact h.clients other hother

theorem note_self (address : SocketAddr) (result : Result PacketId) (order : Order) :
    exchange.note address result order address =
      Exchange.noted (exchange.orders address) result order :=
  Function.update_self ..

theorem note_of_ne {address other : SocketAddr} (hne : other ≠ address)
    (result : Result PacketId) (order : Order) :
    exchange.note address result order other = exchange.orders other :=
  Function.update_of_ne hne ..

theorem allPlaced_step {next : Exchange} (hreachable : (exchanges crc32 host).Reachable exchange)
    (h : AllPlaced host exchange) (hstep : Exchange.Step crc32 host exchange next) :
    AllPlaced host next := by
  cases hstep with
  | clientScheduled address client hash reliability sendTo payload now result net call =>
    refine h.client_moves client ?_ fun other hne => note_of_ne hne ..
    rw [note_self]
    exact (h.clients address client).schedule call
  | serverScheduled hash reliability sendTo payload now result net call =>
    refine h.server_moves ?_ fun address client => note_of_ne client ..
    rw [note_self]
    exact h.server.schedule call
  | clientBeat address client hash reliability sendTo now result net call =>
    exact h.client_moves client ((h.clients address client).heartbeat call) fun _ _ => rfl
  | serverBeat hash reliability sendTo now result net call =>
    exact h.server_moves (h.server.heartbeat call) fun _ _ => rfl
  | connect address client now result net call =>
    exact h.client_moves client ((h.clients address client).connect call) fun _ _ => rfl
  | clientSent address client clock net call =>
    exact h.client_moves client ((h.clients address client).clientSend call) fun _ _ => rfl
  | serverSent clock net call => exact h.server_moves (h.server.serverSend call) fun _ _ => rfl
  | clientReceived address client raw arrives received elapsed events net call =>
    exact h.client_moves client ((h.clients address client).clientReceive call) fun _ _ => rfl
  | serverReceived raw arrives hash peerHash received elapsed now events net call =>
    obtain ⟨registry, _, _, agrees⟩ := agrees_of_reachable (world_of_reachable hreachable)
    exact h.server_moves (h.server.serverReceive agrees.serverSide.table call) fun _ _ => rfl

theorem allPlaced_of_reachable (h : (exchanges crc32 host).Reachable exchange) :
    AllPlaced host exchange := by
  refine h.invariant (AllPlaced host) ?_ fun _ _ hreachable hplaced hstep =>
    allPlaced_step hreachable hplaced hstep
  rintro ⟨_, _⟩ ⟨⟨reliableTtl, rfl⟩, rfl⟩
  have hnone : ∀ tracker, Numbered [] tracker := fun tracker =>
    ⟨fun _ hmem => by contradiction, List.nodup_nil⟩
  exact ⟨⟨⟨fun _ hmem => by contradiction, fun _ hmem => by contradiction⟩, hnone _⟩,
    fun _ _ => ⟨⟨fun _ hmem => by contradiction, fun _ hmem => by contradiction⟩, hnone _⟩⟩

end Runs

section Delivery

/-- What may be handed over of a payload: all of it, if it fits one datagram, or some of the
chunks that it was cut into. -/
inductive Excerpt (payload : Payload) : Payload → Prop where
  | whole (fits : payload.length ≤ maxFragmentSize - Message.headerSize Fragment) :
      Excerpt payload payload
  | parts (cut : 1 < (numberedChunks payload).length) (parts : List (Payload × Nat))
      (chosen : ∀ part ∈ parts, part ∈ numberedChunks payload)
      (count : parts.length + 1 = (numberedChunks payload).length % 256) :
      Excerpt payload (parts.map Prod.fst).flatten

variable {orders : List Order}

theorem whole_chunk {payload : Payload} (hfew : ¬(numberedChunks payload).length > 1)
    {chunk : Payload × Nat} (hmem : chunk ∈ numberedChunks payload) :
    chunk.1 = payload ∧ payload.length ≤ maxFragmentSize - Message.headerSize Fragment := by
  have hfits : payload.length ≤ maxFragmentSize - Message.headerSize Fragment := by
    by_contra hlong
    exact hfew (two_le_numberedChunks (Nat.lt_of_not_le hlong))
  have hone : numberedChunks payload = [chunk] := by
    obtain ⟨other, hother⟩ := List.length_eq_one_iff.mp
      (Nat.le_antisymm (Nat.le_of_not_lt hfew) (List.length_pos_of_mem hmem))
    rw [hother] at hmem ⊢
    rw [List.mem_singleton.mp hmem]
  have hchunks : (numberedChunks payload).map Prod.fst =
      chunks (maxFragmentSize - Message.headerSize Fragment) payload := List.zipIdx_map_fst 0 _
  have hbytes := flatten_chunks (by decide : 0 < maxFragmentSize - Message.headerSize Fragment)
    payload
  rw [← hchunks, hone, List.map_singleton, List.flatten_singleton] at hbytes
  exact ⟨hbytes, hfits⟩

theorem Ordered.of_fragment {packetId : PacketId} {address : SocketAddr} {message : Fragment}
    (h : Ordered orders ⟨packetId, address, .fragment message⟩) :
    ∃ order ∈ orders, order.packetId = packetId ∧ order.Covers message.connectionId ∧
      1 < (numberedChunks order.payload).length ∧
      ∃ chunk ∈ numberedChunks order.payload, message.payload = chunk.1 ∧
        message.total = UInt8.ofNat (numberedChunks order.payload).length := by
  obtain ⟨order, hmem, hid, connection, hcovers, chunk, hchunk, hbody⟩ := h rfl
  unfold chunkBody at hbody
  split at hbody
  · next hcut =>
    cases hbody
    exact ⟨order, hmem, hid, hcovers, hcut, chunk, hchunk, rfl, rfl⟩
  · contradiction

theorem Ordered.of_transfer {packetId : PacketId} {address : SocketAddr} {message : DataTransfer}
    (h : Ordered orders ⟨packetId, address, .dataTransfer message⟩) :
    ∃ order ∈ orders, order.Covers message.connectionId ∧
      Excerpt order.payload message.payload := by
  obtain ⟨order, hmem, hid, connection, hcovers, chunk, hchunk, hbody⟩ := h rfl
  unfold chunkBody at hbody
  split at hbody
  · contradiction
  · next hfew =>
    cases hbody
    obtain ⟨hsame, hfits⟩ := whole_chunk hfew hchunk
    refine ⟨order, hmem, hcovers, ?_⟩
    change Excerpt order.payload chunk.1
    rw [hsame]
    exact .whole hfits

theorem Placed.excerpt {S A B E : Type} [Service S A B E] {net : AntarcNet S}
    (h : Placed orders net) {destination : SocketAddr} {id : ConnectionId} {payload : Payload}
    (hconveyed : Conveyed net.socket destination id payload) :
    ∃ order ∈ orders, order.Covers id ∧ Excerpt order.payload payload := by
  have hordered : ∀ part : Packet ToSend Fragment,
      (∃ transmission ∈ net.socket, transmission.packet = .fragment part) →
      Ordered orders
        ⟨part.delivery.id, part.delivery.metadata.address, .fragment part.message⟩ := by
    rintro part ⟨transmission, hmem, his⟩
    have hsent := h.sourced.sent transmission hmem
    rw [sentEntry, his] at hsent
    exact hsent
  cases hconveyed with
  | whole transmission sent packet is addressed on carries =>
    have hsent := h.sourced.sent transmission sent
    rw [sentEntry, is] at hsent
    obtain ⟨order, hmem, hcovers, hexcerpt⟩ := Ordered.of_transfer hsent
    exact ⟨order, hmem, on ▸ hcovers, carries ▸ hexcerpt⟩
  | joined parts last sent addressed same count joins =>
    obtain ⟨hlast, hparts⟩ := List.forall_mem_cons.mp sent
    obtain ⟨order, hmem, hid, hcovers, hcut, -, -, -, htotal⟩ :=
      Ordered.of_fragment (hordered last hlast)
    have hchunks : ∀ part ∈ parts, ∃ chunk : Payload × Nat,
        chunk ∈ numberedChunks order.payload ∧ chunk.1 = part.message.payload := by
      intro part hpart
      obtain ⟨other, hother, hid', -, -, chunk, hchunk, hpayload, -⟩ :=
        Ordered.of_fragment (hordered part (hparts part hpart))
      -- The parts have one packet id, and no two orders share it.
      have hsame : other = order := List.inj_on_of_nodup_map h.numbered.distinct hother hmem
        (by rw [hid', hid, (same part hpart).1])
      exact ⟨chunk, hsame ▸ hchunk, hpayload.symm⟩
    obtain ⟨chosen, hpayloads, hchosen⟩ := exists_counterparts
      (R := fun _ chunk => chunk ∈ numberedChunks order.payload) hchunks
    have hconnection := (addressed last List.mem_cons_self).2
    refine ⟨order, hmem, hconnection ▸ hcovers, ?_⟩
    rw [← joins, ← hpayloads]
    refine .parts hcut chosen (fun chunk hchunk => ?_) ?_
    · obtain ⟨_, -, hin⟩ := hchosen chunk hchunk
      exact hin
    · have hlength := congrArg List.length hpayloads
      rw [List.length_map, List.length_map] at hlength
      rw [hlength, count, htotal]
      exact UInt8.toNat_ofNat'

/-- In every run of a server, its clients and their applications over a network that does not
forge: a payload that a poll hands over is an excerpt of one payload that the application at
the other end of its connection has asked to be sent there. -/
theorem deliveries_were_scheduled (crc32 : Crc32) (host : SocketAddr) (exchange : Exchange)
    (h : (exchanges crc32 host).Reachable exchange) (destination : SocketAddr)
    (id : ConnectionId) (payload : Payload)
    (hover : Obtains crc32 host exchange.world destination id payload) :
    ∃ source, Ends host exchange.world id source destination ∧
      ∃ order ∈ exchange.orders source, order.Covers id ∧ Excerpt order.payload payload := by
  have hplaced := allPlaced_of_reachable h
  obtain ⟨source, hends, hconveyed⟩ := hover.conveyed (world_of_reachable h)
  refine ⟨source, hends, ?_⟩
  unfold sentFrom at hconveyed
  split at hconveyed
  · next hhost =>
    subst hhost
    exact hplaced.server.excerpt hconveyed
  · next client => exact (hplaced.clients source client).excerpt hconveyed

end Delivery

section Greeting

/-- The client's greeting is handed over by the server, and was asked for at that client. -/
theorem greeting_was_scheduled : ∃ exchange, (exchanges ieeeCrc32 (.v4 0 0)).Reachable exchange ∧
    Obtains ieeeCrc32 (.v4 0 0) exchange.world (.v4 0 0) .one [7] ∧
    ∃ source, Ends (.v4 0 0) exchange.world .one source (.v4 0 0) ∧
      ∃ order ∈ exchange.orders source, order.Covers .one ∧ Excerpt order.payload [7] := by
  obtain ⟨world, hworld, hobtains⟩ := greeting_obtained
  obtain ⟨exchange, hexchange, rfl⟩ := exists_exchange hworld
  exact ⟨exchange, hexchange, hobtains,
    deliveries_were_scheduled ieeeCrc32 (.v4 0 0) exchange hexchange _ _ _ hobtains⟩

end Greeting

end Antarc.Properties
