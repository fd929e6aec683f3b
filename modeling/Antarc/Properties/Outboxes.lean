import Antarc.Library.Outbox
import Antarc.Library.Simulation
import Antarc.Properties.Agreement
import Antarc.Properties.Counted

/-! A driver's six queues are an outbox. Each poll empties them in one order, so what a driver
puts on the wire for the first time is settled by what was queued between two polls. -/
namespace Antarc.Properties

open Library

section Channels

inductive Freight where
  | dataTransfer
  | fragment
  | heartbeat
  deriving DecidableEq

structure Channel where
  reliability : ReliabilityType
  freight : Freight
  deriving DecidableEq

/-- The order in which the send half of a poll empties the queues. -/
def sendOrder : List Channel :=
  [⟨.unreliable, .dataTransfer⟩, ⟨.reliable, .dataTransfer⟩, ⟨.unreliable, .fragment⟩,
    ⟨.reliable, .fragment⟩, ⟨.unreliable, .heartbeat⟩, ⟨.reliable, .heartbeat⟩]

theorem sendOrder_nodup : sendOrder.Nodup := by
  decide

theorem mem_sendOrder (channel : Channel) : channel ∈ sendOrder := by
  obtain ⟨reliability, freight⟩ := channel
  cases reliability <;> cases freight <;> decide

def waitingOn (scheduler : Scheduler A) : Channel → List QueueEntry
  | ⟨.unreliable, .dataTransfer⟩ => scheduler.listScheduledUnreliableDataTransfer.map entryOf
  | ⟨.reliable, .dataTransfer⟩ => scheduler.listScheduledReliableDataTransfer.map entryOf
  | ⟨.unreliable, .fragment⟩ => scheduler.listScheduledUnreliableFragment.map entryOf
  | ⟨.reliable, .fragment⟩ => scheduler.listScheduledReliableFragment.map entryOf
  | ⟨.unreliable, .heartbeat⟩ => scheduler.listScheduledUnreliableHeartbeat.map entryOf
  | ⟨.reliable, .heartbeat⟩ => scheduler.listScheduledReliableHeartbeat.map entryOf

class Channelled (R M : Type) [Queued R M] [Sendable M] [Bodied M] where
  channel : Channel
  waitingOn_setQueue : ∀ {A : Type} (scheduler : Scheduler A) (entries : List (Scheduled R M))
    (other : Channel), waitingOn (Queued.setQueue scheduler entries) other =
      if other = channel then entries.map entryOf else waitingOn scheduler other

instance : Channelled Reliable DataTransfer where
  channel := ⟨.reliable, .dataTransfer⟩
  waitingOn_setQueue := by rintro A scheduler entries ⟨_ | _, _ | _ | _⟩ <;> rfl

instance : Channelled Unreliable DataTransfer where
  channel := ⟨.unreliable, .dataTransfer⟩
  waitingOn_setQueue := by rintro A scheduler entries ⟨_ | _, _ | _ | _⟩ <;> rfl

instance : Channelled Reliable Fragment where
  channel := ⟨.reliable, .fragment⟩
  waitingOn_setQueue := by rintro A scheduler entries ⟨_ | _, _ | _ | _⟩ <;> rfl

instance : Channelled Unreliable Fragment where
  channel := ⟨.unreliable, .fragment⟩
  waitingOn_setQueue := by rintro A scheduler entries ⟨_ | _, _ | _ | _⟩ <;> rfl

instance : Channelled Reliable Heartbeat where
  channel := ⟨.reliable, .heartbeat⟩
  waitingOn_setQueue := by rintro A scheduler entries ⟨_ | _, _ | _ | _⟩ <;> rfl

instance : Channelled Unreliable Heartbeat where
  channel := ⟨.unreliable, .heartbeat⟩
  waitingOn_setQueue := by rintro A scheduler entries ⟨_ | _, _ | _ | _⟩ <;> rfl

section Pushes

variable {R M A : Type} [Queued R M] [Sendable M] [Bodied M] [Channelled R M]

theorem waitingOn_channel (scheduler : Scheduler A) :
    waitingOn scheduler (Channelled.channel R M) =
      (Queued.queue scheduler : List (Scheduled R M)).map entryOf := by
  have hset := Channelled.waitingOn_setQueue scheduler
    (Queued.queue scheduler : List (Scheduled R M)) (Channelled.channel R M)
  rwa [Queued.setQueue_queue, if_pos rfl] at hset

theorem waitingOn_pushAll (scheduler : Scheduler A) (entries : List (Scheduled R M))
    (other : Channel) : waitingOn (pushAll scheduler entries) other =
      waitingOn scheduler other ++
        onChannel other ((entries.map entryOf).map fun entry => (Channelled.channel R M, entry)) := by
  rw [onChannel_map, pushAll, Channelled.waitingOn_setQueue]
  by_cases h : other = Channelled.channel R M
  · rw [if_pos h, if_pos h.symm, h, waitingOn_channel, List.map_append]
  · rw [if_neg h, if_neg (Ne.symm h), List.append_nil]

end Pushes

def payloadChannel (reliability : ReliabilityType) (total : Nat) : Channel :=
  ⟨reliability, if total > 1 then .fragment else .dataTransfer⟩

theorem waitingOn_queued (scheduler : Scheduler A) (reliability : ReliabilityType)
    (packetId : PacketId) (time : Duration) (targets : List Target) (total : Nat)
    (chunks : List (Payload × Nat)) (channel : Channel) :
    waitingOn (queued scheduler reliability packetId time targets total chunks) channel =
      waitingOn scheduler channel ++ onChannel channel
        ((chunkEntries packetId targets total chunks).map
          fun entry => (payloadChannel reliability total, entry)) := by
  unfold queued chunkEntries chunkBody payloadChannel
  split <;> cases reliability <;> dsimp only
  all_goals
    rw [waitingOn_pushAll, map_entryOf_entriesFor]
    rfl

def beatEntries (packetId : PacketId) (targets : List Target) : List QueueEntry :=
  targets.map fun target => ⟨packetId, target.2, .heartbeat (.new target.1)⟩

theorem waitingOn_beaten (scheduler : Scheduler A) (reliability : ReliabilityType)
    (packetId : PacketId) (time : Duration) (targets : List Target) (channel : Channel) :
    waitingOn (beaten scheduler reliability packetId time targets) channel =
      waitingOn scheduler channel ++ onChannel channel
        ((beatEntries packetId targets).map fun entry => (⟨reliability, .heartbeat⟩, entry)) := by
  cases reliability
  all_goals
    refine (waitingOn_pushAll scheduler _ _).trans ?_
    rw [map_entryOf_entriesFor, List.flatMap_singleton]
    rfl

end Channels

section Views

def carriedFirst (socket : List Transmission) : List QueueEntry :=
  (firstSent socket).filter fun entry => entry.body.connection.isSome

variable {S : Type} {crc32 : Crc32} {net after : AntarcNet S}

def outboxOf {A B E : Type} [Service S A B E] (net : AntarcNet S) : Outbox Channel QueueEntry where
  waiting := waitingOn net.antarc.core.scheduler
  sent := carriedFirst net.socket

theorem outboxOf_new {A B E : Type} [Service S A B E] {service : A}
    (hqueues : net.antarc.core.scheduler = .new service) (hsocket : net.socket = []) :
    outboxOf net = .new := by
  apply Outbox.ext
  · funext ⟨reliability, freight⟩
    change waitingOn net.antarc.core.scheduler _ = []
    rw [hqueues]
    cases reliability <;> cases freight <;> rfl
  · change carriedFirst net.socket = []
    rw [hsocket]
    rfl

section Loops

variable {R M : Type} [Sendable M] [Bodied M]
  {create : Protocol S → Scheduled R M → Duration → Exec (Packet ToSend M)}
  {account : Protocol S → Packet ToSend M → Duration → Exec (Protocol S)}
  {clock : Nat → Duration}

def CreatesOwn (create : Protocol S → Scheduled R M → Duration → Exec (Packet ToSend M)) : Prop :=
  ∀ protocol scheduled now packet, create protocol scheduled now = .ok packet →
    ∀ raw first, sentEntry ⟨raw, Sendable.outgoing packet, first⟩ = entryOf scheduled

theorem firstSent_sendEach (hcreate : CreatesOwn create) {entries : List (Scheduled R M)}
    (h : AntarcNet.sendEach crc32 create account clock entries net = .ok after) :
    firstSent after.socket = firstSent net.socket ++ entries.map entryOf := by
  induction entries generalizing net clock with
  | nil =>
    cases h
    simp
  | cons scheduled rest ih =>
    obtain ⟨middle, hturn, h⟩ := bind_eq_ok.mp h
    obtain ⟨packet, antarc, hcreated, -, -, rfl⟩ := turn_eq_ok.mp hturn
    rw [ih h, firstSent_append, if_pos rfl, hcreate _ _ _ _ hcreated, List.append_assoc]
    rfl

omit [Bodied M] in
theorem firstSent_pollStored
    {retry : Protocol S → Duration → Exec (Option (Packet ToSend M) × Protocol S)}
    (h : AntarcNet.pollStored crc32 retry account clock net = .ok after) :
    firstSent after.socket = firstSent net.socket := by
  obtain ⟨⟨packet, antarc⟩, -, h⟩ := bind_eq_ok.mp h
  cases packet with
  | none =>
    cases h
    rfl
  | some packet =>
    obtain ⟨sent, hsent, h⟩ := bind_eq_ok.mp h
    obtain ⟨_, -, h⟩ := bind_eq_ok.mp h
    cases h
    obtain ⟨-, rfl⟩ := transmit_eq_ok.mp hsent
    exact (firstSent_append _ _).trans (List.append_nil _)

end Loops

section Carried

variable {A B E : Type} [Service S A B E] [PromotesQuietly S]

theorem scheduler_sent {M : Type} [Carried M] {protocol next : Protocol S}
    {packet : Packet ToSend M} {reliability : ReliabilityType} {now : Duration}
    (h : protocol.sent packet reliability now = .ok next) :
    next.core.scheduler = protocol.core.scheduler := by
  obtain ⟨completes, core, -, hcore, rfl⟩ := sent_frame h
  obtain ⟨connected, rfl⟩ := advanced_frame hcore
  simp only [Protocol.core, Service.core_setCore, PromotesQuietly.scheduler]

omit [PromotesQuietly S] in
theorem createsOwn_of_carried {R M : Type} [Carried M] [Sendable M] [Bodied M]
    {create : Protocol S → Scheduled R M → Duration → Exec (Packet ToSend M)} {message : String}
    (hcreate : ∀ protocol scheduled now,
      create protocol scheduled now = protocol.core.createCarried message scheduled now) :
    CreatesOwn create := by
  intro protocol scheduled now packet hcreated raw first
  rw [hcreate] at hcreated
  obtain ⟨peer, -, hcreated⟩ := bind_eq_ok.mp hcreated
  cases hcreated
  unfold sentEntry
  rw [Bodied.line_outgoing]
  rfl

theorem outbox_pollScheduled {R M : Type} [Queued R M] [Reliability R] [Carried M] [Sendable M]
    [Bodied M] [Travels M] [Channelled R M]
    {create : Protocol S → Scheduled R M → Duration → Exec (Packet ToSend M)} {message : String}
    (hcreate : ∀ protocol scheduled now,
      create protocol scheduled now = protocol.core.createCarried message scheduled now)
    {clock : Nat → Duration} (h : AntarcNet.pollScheduled crc32 create clock net = .ok after) :
    outboxOf after = (outboxOf net).empty [Channelled.channel R M] := by
  rw [pollScheduled_eq] at h
  have hscheduler : after.antarc.core.scheduler =
      Queued.setQueue net.antarc.core.scheduler ([] : List (Scheduled R M)) := by
    refine sendEach_keeps (fun protocol => protocol.core.scheduler = _) ?_ ?_ h
    · exact fun _ _ _ _ hkept hsent => (scheduler_sent hsent).trans hkept
    · exact congrArg ServiceCore.scheduler (core_setCore net.antarc _)
  have hsent := firstSent_sendEach (createsOwn_of_carried hcreate) h
  apply Outbox.ext
  · funext channel
    change waitingOn after.antarc.core.scheduler channel = _
    rw [hscheduler, Channelled.waitingOn_setQueue]
    simp [Outbox.empty, outboxOf]
  · have hcarried : ∀ entry ∈ (Queued.queue net.antarc.core.scheduler :
        List (Scheduled R M)).map entryOf, entry.body.connection.isSome = true := by
      intro entry hmem
      obtain ⟨scheduled, -, rfl⟩ := List.mem_map.mp hmem
      exact Option.isSome_of_eq_some (Travels.connection_body scheduled.message)
    change carriedFirst after.socket = carriedFirst net.socket ++ [_].flatMap _
    rw [List.flatMap_singleton]
    change _ = _ ++ waitingOn net.antarc.core.scheduler _
    rw [waitingOn_channel, carriedFirst, hsent, List.filter_append,
      List.filter_eq_self.mpr hcarried]
    rfl

theorem outbox_pollRetry {M : Type} [Carried M] [Sendable M] [Bodied M] {clock : Nat → Duration}
    (h : AntarcNet.pollRetry M crc32 clock net = .ok after) : outboxOf after = outboxOf net := by
  have hscheduler : after.antarc.core.scheduler = net.antarc.core.scheduler := by
    refine pollStored_view (fun protocol => protocol.core.scheduler)
      (fun _ _ _ _ hsent => scheduler_sent hsent) (fun _ _ _ _ hretry => ?_) h
    obtain ⟨handler, -, rfl⟩ := retry_frame hretry
    dsimp only
    rw [core_setCore]
  unfold outboxOf carriedFirst
  rw [hscheduler, firstSent_pollStored h]

theorem outbox_pollCarried {clock : Clock} {pass : Nat}
    (h : net.pollCarried crc32 clock pass = .ok after) :
    outboxOf after = (outboxOf net).empty sendOrder := by
  obtain ⟨_, hfirst, h⟩ := bind_eq_ok.mp h
  obtain ⟨_, hsecond, h⟩ := bind_eq_ok.mp h
  obtain ⟨_, hthird, h⟩ := bind_eq_ok.mp h
  obtain ⟨_, hfourth, h⟩ := bind_eq_ok.mp h
  obtain ⟨_, hfifth, h⟩ := bind_eq_ok.mp h
  rw [outbox_pollScheduled (fun _ _ _ => rfl) h, outbox_pollScheduled (fun _ _ _ => rfl) hfifth,
    outbox_pollScheduled (fun _ _ _ => rfl) hfourth, outbox_pollScheduled (fun _ _ _ => rfl) hthird,
    outbox_pollScheduled (fun _ _ _ => rfl) hsecond, outbox_pollScheduled (fun _ _ _ => rfl) hfirst]
  exact Outbox.empty_each sendOrder_nodup (outboxOf net)

end Carried

section Handshakes

theorem carriedFirst_pollQueue {R M : Type} [Sendable M] [Bodied M]
    {drain : Protocol S → Exec (List (Scheduled R M) × Protocol S)}
    {create : Protocol S → Scheduled R M → Duration → Exec (Packet ToSend M)}
    {account : Protocol S → Packet ToSend M → Duration → Exec (Protocol S)}
    {clock : Nat → Duration} (hcreate : CreatesOwn create)
    (hnone : ∀ message : M, (Bodied.body message).connection = none)
    (h : AntarcNet.pollQueue crc32 drain create account clock net = .ok after) :
    carriedFirst after.socket = carriedFirst net.socket := by
  obtain ⟨⟨drained, antarc⟩, -, h⟩ := bind_eq_ok.mp h
  have hothers : ∀ entry ∈ drained.map entryOf, ¬entry.body.connection.isSome = true := by
    intro entry hmem
    obtain ⟨scheduled, -, rfl⟩ := List.mem_map.mp hmem
    rw [show (entryOf scheduled).body.connection = none from hnone scheduled.message]
    exact Bool.false_ne_true
  rw [carriedFirst, firstSent_sendEach hcreate h, List.filter_append,
    List.filter_eq_nil_iff.mpr hothers, List.append_nil]
  rfl

variable {clock : Nat → Duration}

theorem outbox_pollConnectionRequest {net after : AntarcNet Client}
    (h : net.pollConnectionRequest crc32 clock = .ok after) : outboxOf after = outboxOf net := by
  have hwaiting : waitingOn after.antarc.core.scheduler = waitingOn net.antarc.core.scheduler := by
    refine pollQueue_view (fun protocol => waitingOn protocol.core.scheduler)
      (fun _ _ _ _ hsent => ?_) (fun _ _ _ hdrain => ?_) h
    · obtain ⟨_, _, -, -, rfl⟩ := sentConnectionRequest_frame hsent
      rfl
    · obtain ⟨_, -, rfl⟩ := drainConnectionRequest_frame hdrain
      rfl
  have hsent := carriedFirst_pollQueue (fun _ _ _ _ hcreated _ _ => by
    obtain ⟨peer, -, hcreated⟩ := bind_eq_ok.mp hcreated
    cases hcreated
    rfl) (fun _ => rfl) h
  unfold outboxOf
  rw [hwaiting, hsent]

theorem outbox_pollRetryConnectionRequest {net after : AntarcNet Client}
    (h : net.pollRetryConnectionRequest crc32 clock = .ok after) :
    outboxOf after = outboxOf net := by
  have hwaiting : waitingOn after.antarc.core.scheduler = waitingOn net.antarc.core.scheduler := by
    refine pollStored_view (fun protocol => waitingOn protocol.core.scheduler)
      (fun _ _ _ _ hsent => ?_) (fun _ _ _ _ hretry => ?_) h
    · obtain ⟨_, _, -, -, rfl⟩ := sentConnectionRequest_frame hsent
      rfl
    · obtain ⟨_, -, rfl⟩ := resend_frame hretry
      rfl
  unfold outboxOf carriedFirst
  rw [hwaiting, firstSent_pollStored h]

theorem outbox_pollConnectionAccepted {net after : AntarcNet Server}
    (h : net.pollConnectionAccepted crc32 clock = .ok after) : outboxOf after = outboxOf net := by
  have hwaiting : waitingOn after.antarc.core.scheduler = waitingOn net.antarc.core.scheduler := by
    refine pollQueue_view (fun protocol => waitingOn protocol.core.scheduler)
      (fun _ _ _ _ hsent => ?_) (fun _ _ _ hdrain => ?_) h
    · obtain ⟨_, -, rfl⟩ := sentConnectionAccepted_frame hsent
      rfl
    · obtain ⟨_, -, rfl⟩ := drainConnectionAccepted_frame hdrain
      rfl
  have hsent := carriedFirst_pollQueue (fun _ _ _ _ hcreated _ _ => by
    obtain ⟨peer, -, hcreated⟩ := bind_eq_ok.mp hcreated
    cases hcreated
    rfl) (fun _ => rfl) h
  unfold outboxOf
  rw [hwaiting, hsent]

theorem outbox_pollRetryConnectionAccepted {net after : AntarcNet Server}
    (h : net.pollRetryConnectionAccepted crc32 clock = .ok after) :
    outboxOf after = outboxOf net := by
  have hwaiting : waitingOn after.antarc.core.scheduler = waitingOn net.antarc.core.scheduler := by
    refine pollStored_view (fun protocol => waitingOn protocol.core.scheduler)
      (fun _ _ _ _ hsent => ?_) (fun _ _ _ _ hretry => ?_) h
    · obtain ⟨_, -, rfl⟩ := sentConnectionAccepted_frame hsent
      rfl
    · obtain ⟨_, -, rfl⟩ := retryConnectionAccepted_frame hretry
      rfl
  unfold outboxOf carriedFirst
  rw [hwaiting, firstSent_pollStored h]

end Handshakes

section Halves

variable {received elapsed now : Duration} {datagram : Option RawPacket} {clock : Clock}

theorem outbox_clientSend {net after : AntarcNet Client}
    (h : net.clientSend crc32 clock = .ok after) :
    outboxOf after = (outboxOf net).empty sendOrder := by
  obtain ⟨_, hresend, h⟩ := bind_eq_ok.mp h
  obtain ⟨_, hretry, h⟩ := bind_eq_ok.mp h
  obtain ⟨_, hrequests, h⟩ := bind_eq_ok.mp h
  rw [outbox_pollCarried h, outbox_pollConnectionRequest hrequests, outbox_pollRetry hretry,
    outbox_pollRetryConnectionRequest hresend]

theorem outbox_serverSend {net after : AntarcNet Server}
    (h : net.serverSend crc32 clock = .ok after) :
    outboxOf after = (outboxOf net).empty sendOrder := by
  obtain ⟨_, hresend, h⟩ := bind_eq_ok.mp h
  obtain ⟨_, hretry, h⟩ := bind_eq_ok.mp h
  obtain ⟨_, hfragment, h⟩ := bind_eq_ok.mp h
  obtain ⟨_, haccepts, h⟩ := bind_eq_ok.mp h
  rw [outbox_pollCarried h, outbox_pollConnectionAccepted haccepts, outbox_pollRetry hfragment,
    outbox_pollRetry hretry, outbox_pollRetryConnectionAccepted hresend]

theorem waitingOn_report {A B E : Type} [Service S A B E] (outcome : Result Unit)
    (net : AntarcNet S) : waitingOn (AntarcNet.report outcome net).antarc.core.scheduler =
      waitingOn net.antarc.core.scheduler := by
  cases outcome with
  | ok _ => rfl
  | error fail =>
    have hcore := core_setCore net.antarc (net.antarc.core.pushApi (.fail fail))
    exact congrArg (fun core => waitingOn core.scheduler) hcore

theorem outbox_clientReceive {net : AntarcNet Client}
    {result : List (ProtocolEvent ClientEvent) × AntarcNet Client}
    (h : net.clientReceive crc32 received elapsed datagram = .ok result) :
    outboxOf result.2 = outboxOf net := by
  have hsocket := clientReceive_socket h
  cases datagram with
  | none => contradiction
  | some raw =>
    obtain ⟨⟨outcome, antarc⟩, hreceived, h⟩ := bind_eq_ok.mp h
    obtain ⟨⟨events, polled⟩, hpolled, h⟩ := bind_eq_ok.mp h
    cases h
    obtain ⟨_, -, -, rfl⟩ := clientPoll_frame (attempt_eq_ok.mp hpolled)
    have hwaiting := waitingOn_report outcome { net with antarc := antarc }
    obtain ⟨hheard, hantarc⟩ := clientReceived_onReceived (attempt_eq_ok.mp hreceived)
    have hsame : waitingOn antarc.core.scheduler = waitingOn net.antarc.core.scheduler := by
      rw [hantarc]
      rcases client_onReceived_cases hheard with hsame | ⟨_, -, -, hhears⟩
      · rw [hsame]
      · exact congrArg waitingOn hhears.kept.2.1
    apply Outbox.ext
    · exact hwaiting.trans hsame
    · exact congrArg carriedFirst hsocket

theorem outbox_serverReceive {net : AntarcNet Server} {hash : RandomState}
    {peerHash : ConnectionId → RandomState}
    {result : List (ProtocolEvent ServerEvent) × AntarcNet Server}
    (h : net.serverReceive crc32 hash peerHash received elapsed now datagram = .ok result) :
    outboxOf result.2 = outboxOf net := by
  have hsocket := serverReceive_socket h
  cases datagram with
  | none => contradiction
  | some raw =>
    obtain ⟨⟨outcome, antarc⟩, hreceived, h⟩ := bind_eq_ok.mp h
    obtain ⟨⟨events, polled⟩, hpolled, h⟩ := bind_eq_ok.mp h
    cases h
    obtain ⟨_, _, -, -, -, rfl⟩ := serverPoll_frame (attempt_eq_ok.mp hpolled)
    have hwaiting := waitingOn_report outcome { net with antarc := antarc }
    have hsame : waitingOn antarc.core.scheduler = waitingOn net.antarc.core.scheduler := by
      obtain ⟨_, hheard, -⟩ := serverReceived_onReceived (attempt_eq_ok.mp hreceived)
      change waitingOn antarc.service.scheduler = waitingOn net.antarc.service.scheduler
      rcases server_onReceived_cases hheard with
        hsame | ⟨_, _, -, -, -, hhears⟩ | ⟨_, -, -, hadmits⟩
      · rw [hsame]
      · rw [hhears.scheduler]
      · have hsix := (admits_greets hadmits).1 net.antarc.service.scheduler.service
        have hqueues := congrArg waitingOn hsix
        exact hqueues
    apply Outbox.ext
    · exact hwaiting.trans hsame
    · exact congrArg carriedFirst hsocket

end Halves

section Calls

variable {A B E : Type} [Service S A B E]

def chunkItems (packetId : PacketId) (reliability : ReliabilityType) (targets : List Target)
    (chunks : List (Payload × Nat)) : List (Channel × QueueEntry) :=
  (chunkEntries packetId targets chunks.length chunks).map
    fun entry => (payloadChannel reliability chunks.length, entry)

@[simp] theorem chunkItems_of_nobody (packetId : PacketId) (reliability : ReliabilityType)
    (chunks : List (Payload × Nat)) : chunkItems packetId reliability [] chunks = [] := by
  simp [chunkItems, chunkEntries]

/-- The entries that a call of `schedule` queues, if it finds whom they are for. -/
def scheduledItems (hash : RandomState) (net : AntarcNet S) (reliability : ReliabilityType)
    (sendTo : SendTo) (payload : Payload) : List (Channel × QueueEntry) :=
  match net.antarc.core.targets hash sendTo with
  | .ok targets =>
      chunkItems net.antarc.packetIdTracker reliability targets (numberedChunks payload)
  | .error _ => []

def beatItems (hash : RandomState) (net : AntarcNet S) (reliability : ReliabilityType)
    (sendTo : SendTo) : List (Channel × QueueEntry) :=
  match net.antarc.core.targets hash sendTo with
  | .ok targets => (beatEntries net.antarc.packetIdTracker targets).map
      fun entry => (⟨reliability, .heartbeat⟩, entry)
  | .error _ => []

variable {hash : RandomState} {reliability : ReliabilityType} {sendTo : SendTo} {now : Duration}

theorem targets_of_nobody {core : ServiceCore A B E} (hnobody : isEmpty core.connected = true)
    {targets : List Target} (h : core.targets hash sendTo = .ok targets) : targets = [] := by
  unfold ServiceCore.targets at h
  cases sendTo with
  | single id =>
    dsimp only at h
    split at h
    · next peer hfound =>
      rw [isEmpty_of_lookup hfound] at hnobody
      contradiction
    · contradiction
  | broadcast =>
    cases h
    rw [(hash.iterate core.connected).isEmpty_iff.mp hnobody]
    rfl

theorem outbox_requeued {protocol : Protocol S} {scheduler : Scheduler A} {tracker : PacketId}
    {items : List (Channel × QueueEntry)} (socket : List Transmission) (address : SocketAddr)
    (hqueues : ∀ channel, waitingOn scheduler channel =
      waitingOn protocol.core.scheduler channel ++ onChannel channel items) :
    outboxOf (⟨{ protocol.setCore { protocol.core with scheduler := scheduler } with
        packetIdTracker := tracker }, address, socket⟩ : AntarcNet S) =
      (outboxOf (⟨protocol, address, socket⟩ : AntarcNet S)).place items := by
  apply Outbox.ext
  · funext channel
    have hcore := core_setCore protocol { protocol.core with scheduler := scheduler }
    have hscheduler := congrArg (fun core => waitingOn core.scheduler channel) hcore
    exact hscheduler.trans (hqueues channel)
  · rfl

theorem outbox_schedule {payload : Payload} {result : Result PacketId}
    (h : net.schedule hash reliability sendTo payload now = .ok (result, after)) :
    outboxOf after =
      (outboxOf net).place (scheduledItems hash net reliability sendTo payload) := by
  obtain ⟨⟨_, antarc⟩, hcall, h⟩ := bind_eq_ok.mp h
  cases h
  replace hcall := attempt_eq_ok.mp hcall
  unfold scheduledItems
  cases hnobody : isEmpty net.antarc.core.connected with
  | true =>
    cases (schedule_of_nobody hnobody payload).symm.trans hcall
    split
    · next targets htargets =>
      rw [targets_of_nobody hnobody htargets, chunkItems_of_nobody, Outbox.place_nil]
    · rw [Outbox.place_nil]
  | false =>
    have hcounts : ∀ targets, (numberedChunks payload = [] ∨
        net.antarc.core.targets hash sendTo = .ok targets) →
        outboxOf { net with antarc := antarc } = (outboxOf net).place
          (chunkItems net.antarc.packetIdTracker reliability targets (numberedChunks payload)) := by
      intro targets htargets
      obtain ⟨tracker, -, hpure⟩ :=
        bind_eq_ok.mp ((schedule_counts hnobody htargets).symm.trans hcall)
      cases hpure
      exact outbox_requeued net.socket net.address (waitingOn_queued _ _ _ _ _ _ _)
    split
    · next targets htargets => exact hcounts targets (.inr htargets)
    · next error htargets =>
      by_cases hchunks : numberedChunks payload = []
      · refine (hcounts [] (.inl hchunks)).trans ?_
        rw [chunkItems_of_nobody]
      · cases (schedule_of_error hnobody htargets hchunks).symm.trans hcall
        rw [Outbox.place_nil]

theorem outbox_heartbeat {result : Result PacketId}
    (h : net.heartbeat hash reliability sendTo now = .ok (result, after)) :
    outboxOf after = (outboxOf net).place (beatItems hash net reliability sendTo) := by
  obtain ⟨⟨_, antarc⟩, hcall, h⟩ := bind_eq_ok.mp h
  cases h
  replace hcall := attempt_eq_ok.mp hcall
  unfold beatItems
  cases hnobody : isEmpty net.antarc.core.connected with
  | true =>
    cases (heartbeat_of_nobody hnobody).symm.trans hcall
    split
    · next targets htargets =>
      rw [targets_of_nobody hnobody htargets]
      exact (Outbox.place_nil _).symm
    · rw [Outbox.place_nil]
  | false =>
    split
    · next targets htargets =>
      obtain ⟨tracker, -, hpure⟩ :=
        bind_eq_ok.mp ((heartbeat_counts hnobody htargets).symm.trans hcall)
      cases hpure
      exact outbox_requeued net.socket net.address (waitingOn_beaten _ _ _ _ _)
    · next error htargets =>
      cases (heartbeat_of_error hnobody htargets).symm.trans hcall
      rw [Outbox.place_nil]

theorem outbox_connect {net after : AntarcNet Client} {address : SocketAddr}
    {result : Result Unit} (h : net.connect address now = .ok (result, after)) :
    outboxOf after = outboxOf net := by
  obtain ⟨⟨_, antarc⟩, hconnect, h⟩ := bind_eq_ok.mp h
  cases h
  rcases connect_cases (attempt_eq_ok.mp hconnect) with ⟨_, -, rfl⟩ | ⟨_, -, -, -, rfl⟩ <;> rfl

end Calls

end Views

section Runs

/-- Runs of a driver with the batches of entries that its applications have queued between
one poll and the next. -/
inductive CarriedBatch {S A B E : Type} [Service S A B E] (net : AntarcNet S)
    (batches : Batches Channel QueueEntry) :
    AntarcNet S → Batches Channel QueueEntry → Prop where
  | schedule (hash : RandomState) (reliability : ReliabilityType) (sendTo : SendTo)
      (payload : Payload) (now : Duration) (result : Result PacketId) (next : AntarcNet S)
      (call : net.schedule hash reliability sendTo payload now = .ok (result, next)) :
      CarriedBatch net batches next
        (batches.place (scheduledItems hash net reliability sendTo payload))
  | heartbeat (hash : RandomState) (reliability : ReliabilityType) (sendTo : SendTo)
      (now : Duration) (result : Result PacketId) (next : AntarcNet S)
      (call : net.heartbeat hash reliability sendTo now = .ok (result, next)) :
      CarriedBatch net batches next (batches.place (beatItems hash net reliability sendTo))

inductive ClientBatch (crc32 : Crc32) (net : AntarcNet Client)
    (batches : Batches Channel QueueEntry) :
    AntarcNet Client → Batches Channel QueueEntry → Prop where
  | carried (next : AntarcNet Client) (later : Batches Channel QueueEntry)
      (call : CarriedBatch net batches next later) : ClientBatch crc32 net batches next later
  | connect (address : SocketAddr) (now : Duration) (result : Result Unit)
      (next : AntarcNet Client) (call : net.connect address now = .ok (result, next)) :
      ClientBatch crc32 net batches next batches
  | poll (clock : Clock) (datagram : Option RawPacket) (events : List (ProtocolEvent ClientEvent))
      (next : AntarcNet Client) (call : net.clientPoll crc32 clock datagram = .ok (events, next)) :
      ClientBatch crc32 net batches next batches.close

inductive ServerBatch (crc32 : Crc32) (net : AntarcNet Server)
    (batches : Batches Channel QueueEntry) :
    AntarcNet Server → Batches Channel QueueEntry → Prop where
  | carried (next : AntarcNet Server) (later : Batches Channel QueueEntry)
      (call : CarriedBatch net batches next later) : ServerBatch crc32 net batches next later
  | poll (hash : RandomState) (peerHash : ConnectionId → RandomState) (clock : Clock)
      (datagram : Option RawPacket) (events : List (ProtocolEvent ServerEvent))
      (next : AntarcNet Server)
      (call : net.serverPoll crc32 hash peerHash clock datagram = .ok (events, next)) :
      ServerBatch crc32 net batches next batches.close

def clientBatches (crc32 : Crc32) : Machine (AntarcNet Client × Batches Channel QueueEntry) where
  init run := ∃ address, run = (.newClient address, .new)
  step run next := ClientBatch crc32 run.1 run.2 next.1 next.2

theorem clientBatches_next {crc32 : Crc32} {net next : AntarcNet Client}
    {batches later : Batches Channel QueueEntry}
    (h : (clientBatches crc32).Reachable (net, batches))
    (hstep : ClientBatch crc32 net batches next later) :
    (clientBatches crc32).Reachable (next, later) :=
  h.next hstep

def CarriedBatches {S A B E : Type} [Service S A B E] :
    AntarcNet S × Batches Channel QueueEntry → AntarcNet S × Batches Channel QueueEntry → Prop :=
  Relation.ReflTransGen fun before after => CarriedBatch before.1 before.2 after.1 after.2

theorem CarriedBatches.call {S A B E : Type} [Service S A B E]
    {start : AntarcNet S × Batches Channel QueueEntry} {net next : AntarcNet S}
    {batches later : Batches Channel QueueEntry} (h : CarriedBatches start (net, batches))
    (hcall : CarriedBatch net batches next later) : CarriedBatches start (next, later) :=
  Relation.ReflTransGen.tail h hcall

theorem clientBatches_carried {crc32 : Crc32}
    {run next : AntarcNet Client × Batches Channel QueueEntry}
    (h : (clientBatches crc32).Reachable run) (hcalls : CarriedBatches run next) :
    (clientBatches crc32).Reachable next := by
  induction hcalls with
  | refl => exact h
  | tail _ hcall ih => exact clientBatches_next ih (.carried _ _ hcall)

def serverBatches (crc32 : Crc32) : Machine (AntarcNet Server × Batches Channel QueueEntry) where
  init run := ∃ address reliableTtl, run = (.newServer address reliableTtl, .new)
  step run next := ServerBatch crc32 run.1 run.2 next.1 next.2

theorem CarriedBatch.step {S A B E : Type} [Service S A B E] {net next : AntarcNet S}
    {batches later : Batches Channel QueueEntry} (h : CarriedBatch net batches next later) :
    Outbox.Step sendOrder (outboxOf net, batches) (outboxOf next, later) := by
  cases h with
  | schedule hash reliability sendTo payload now result _ call =>
    rw [outbox_schedule call]
    exact .place _ _ _
  | heartbeat hash reliability sendTo now result _ call =>
    rw [outbox_heartbeat call]
    exact .place _ _ _

theorem ClientBatch.step {crc32 : Crc32} {net next : AntarcNet Client}
    {batches later : Batches Channel QueueEntry} (h : ClientBatch crc32 net batches next later) :
    Outbox.Step sendOrder (outboxOf net, batches) (outboxOf next, later) := by
  cases h with
  | carried _ _ call => exact call.step
  | connect address now result _ call =>
    have hstep : Outbox.Step sendOrder _ _ := .place (outboxOf net) batches []
    rw [outbox_connect call]
    rwa [Outbox.place_nil, Batches.place_nil] at hstep
  | poll clock datagram events _ call =>
    obtain ⟨sent, hsent, hreceived⟩ := bind_eq_ok.mp call
    rw [outbox_clientReceive hreceived, outbox_clientSend hsent]
    exact .empty _ _

theorem ServerBatch.step {crc32 : Crc32} {net next : AntarcNet Server}
    {batches later : Batches Channel QueueEntry} (h : ServerBatch crc32 net batches next later) :
    Outbox.Step sendOrder (outboxOf net, batches) (outboxOf next, later) := by
  cases h with
  | carried _ _ call => exact call.step
  | poll hash peerHash clock datagram events _ call =>
    obtain ⟨sent, hsent, hreceived⟩ := bind_eq_ok.mp call
    rw [outbox_serverReceive hreceived, outbox_serverSend hsent]
    exact .empty _ _

/-- What a driver has sent for the first time is, batch after batch and in the order of the
queues, what was queued; what was queued since the last poll waits. -/
structure SendsBatches {S A B E : Type} [Service S A B E] (net : AntarcNet S)
    (batches : Batches Channel QueueEntry) : Prop where
  settles : Settles sendOrder (outboxOf net) batches
  once : (carriedFirst net.socket ++ sendOrder.flatMap (waitingOn net.antarc.core.scheduler)).Perm
    (batches.all.map Prod.snd)

theorem sendsBatches_of_reachable {S A B E : Type} [Service S A B E] {net : AntarcNet S}
    {batches : Batches Channel QueueEntry}
    (h : (outboxes sendOrder).Reachable (outboxOf net, batches)) : SendsBatches net batches := by
  have settles := settles_of_reachable mem_sendOrder h
  exact ⟨settles, settles.exactly_once sendOrder_nodup mem_sendOrder⟩

theorem client_sendsBatches {crc32 : Crc32} {run : AntarcNet Client × Batches Channel QueueEntry}
    (h : (clientBatches crc32).Reachable run) : SendsBatches run.1 run.2 := by
  refine sendsBatches_of_reachable
    (h.view (fun run => (outboxOf run.1, run.2)) ?_ fun _ _ => ClientBatch.step)
  rintro _ ⟨address, rfl⟩
  exact Prod.ext (outboxOf_new rfl rfl) rfl

theorem server_sendsBatches {crc32 : Crc32} {run : AntarcNet Server × Batches Channel QueueEntry}
    (h : (serverBatches crc32).Reachable run) : SendsBatches run.1 run.2 := by
  refine sendsBatches_of_reachable
    (h.view (fun run => (outboxOf run.1, run.2)) ?_ fun _ _ => ServerBatch.step)
  rintro _ ⟨address, reliableTtl, rfl⟩
  exact Prod.ext (outboxOf_new rfl rfl) rfl

/-- In every run of either driver, whatever datagrams arrive: each entry that a call of
`schedule` or `heartbeat` queued goes out in its first transmission exactly once, in the poll
that follows the call, queue by queue and within a queue in the order of the calls. -/
theorem queues_empty_in_order (crc32 : Crc32) :
    (∀ run, (clientBatches crc32).Reachable run → SendsBatches run.1 run.2) ∧
      ∀ run, (serverBatches crc32).Reachable run → SendsBatches run.1 run.2 :=
  ⟨fun _ => client_sendsBatches, fun _ => server_sendsBatches⟩

end Runs

section Bundle

/-- What the client of `greetedWorld` queues, one call after the other. -/
def bundledItems : List (Channel × QueueEntry) :=
  [(⟨.reliable, .heartbeat⟩, ⟨1, .v4 0 0, .heartbeat (.new .one)⟩),
    (⟨.reliable, .dataTransfer⟩, ⟨2, .v4 0 0, .dataTransfer (.new .one [1, 2])⟩),
    (⟨.unreliable, .dataTransfer⟩, ⟨3, .v4 0 0, .dataTransfer (.new .one [7])⟩),
    (⟨.unreliable, .dataTransfer⟩, ⟨4, .v4 0 0, .dataTransfer (.new .one [8])⟩)]

/-- The same in the order of the passes, with the calls in order within each. -/
def bundledSent : List QueueEntry :=
  [⟨3, .v4 0 0, .dataTransfer (.new .one [7])⟩, ⟨4, .v4 0 0, .dataTransfer (.new .one [8])⟩,
    ⟨2, .v4 0 0, .dataTransfer (.new .one [1, 2])⟩, ⟨1, .v4 0 0, .heartbeat (.new .one)⟩]

set_option maxRecDepth 8000 in
theorem greetedClient_bundles (hash : RandomState) : ∃ bundled : AntarcNet Client,
    CarriedBatches (greetedClient, Batches.new.close)
      (bundled, Batches.new.close.place bundledItems) ∧
    ∃ events client, bundled.clientPoll ieeeCrc32 (fun _ _ => .zero)
        (some (fromServer answeringAccept)) = .ok (events, client) ∧
      carriedFirst client.socket = bundledSent := by
  have hdecode :=
    (Codec.roundTrips_connectionAccepted ieeeCrc32 answeringAccept (.v4 0 0) .zero rfl).2.2
  have hnone : CarriedBatches (greetedClient, Batches.new.close)
      (greetedClient, Batches.new.close) := .refl
  have hbeaten := hnone.call (.heartbeat hash .reliable (.single .one) .zero _ _ rfl)
  have hfirst := hbeaten.call (.schedule hash .reliable (.single .one) [1, 2] .zero _ _ rfl)
  have hsecond := hfirst.call (.schedule hash .unreliable (.single .one) [7] .zero _ _ rfl)
  have hthird := hsecond.call (.schedule hash .unreliable (.single .one) [8] .zero _ _ rfl)
  refine ⟨_, hthird, ?_⟩
  unfold AntarcNet.clientPoll AntarcNet.clientReceive Protocol.clientReceived Client.onReceived
    fromServer
  simp only [hdecode, ok_bind]
  exact ⟨_, _, rfl, rfl⟩

/-- A run of the client in which four calls make a batch. -/
theorem bundle_sent_in_batch : ∃ run, (clientBatches ieeeCrc32).Reachable run ∧
    run.2.past = [[], bundledItems] ∧ carriedFirst run.1.socket = bundledSent ∧
    SendsBatches run.1 run.2 := by
  obtain ⟨bundled, hcalls, events, client, hpolled, hsent⟩ :=
    greetedClient_bundles (Classical.arbitrary RandomState)
  have hconnected : ClientBatch ieeeCrc32 (.newClient (.v4 1 1)) .new askedRun.net .new :=
    .connect (.v4 0 0) .zero (.ok ()) _ rfl
  have hgreeted : ClientBatch ieeeCrc32 askedRun.net .new greetedClient Batches.new.close :=
    .poll (fun _ _ => .zero) _ _ _ askedRun_greeted
  have hnew : (clientBatches ieeeCrc32).Reachable (.newClient (.v4 1 1), .new) :=
    .start ⟨_, rfl⟩
  have hqueued := clientBatches_carried
    (clientBatches_next (clientBatches_next hnew hconnected) hgreeted) hcalls
  have hrun := clientBatches_next hqueued (.poll (fun _ _ => .zero) _ events client hpolled)
  exact ⟨_, hrun, rfl, hsent, (queues_empty_in_order ieeeCrc32).1 _ hrun⟩

end Bundle

end Antarc.Properties
