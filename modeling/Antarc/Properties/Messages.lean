import Antarc.Properties.Delivery
import Antarc.Properties.IdealLink

/-! Messages on an ideal link, from the client to the server. What the client schedules is
what the server's application is told of, as long as every packet can be numbered and none
has the checksum zero. -/
namespace Antarc.Properties

open Library

structure ScheduleCall where
  payload : Payload
  sendTo : SendTo
  now : Duration

/-- A payload for the peer of this id that one datagram takes. -/
structure ScheduleCall.Fits (call : ScheduleCall) (id : ConnectionId) : Prop where
  nonempty : call.payload ≠ []
  short : call.payload.length ≤ maxFragmentSize - Message.headerSize Fragment
  sendTo : call.sendTo = .single id ∨ call.sendTo = .broadcast

def ScheduleCall.message (id : ConnectionId) (call : ScheduleCall) : DataTransfer :=
  .new id call.payload

section Scheduling

variable {S A B E : Type} [Service S A B E]

def scheduleAll (hash : RandomState) (reliability : ReliabilityType) :
    List ScheduleCall → AntarcNet S → Drive (AntarcNet S)
  | [], net => pure net
  | call :: rest, net => do
      let (_, net) ← net.schedule hash reliability call.sendTo call.payload call.now
      scheduleAll hash reliability rest net

theorem numberedChunks_short {payload : Payload} (hpayload : payload ≠ [])
    (hshort : payload.length ≤ maxFragmentSize - Message.headerSize Fragment) :
    numberedChunks payload = [(payload, 0)] := by
  have hpositive := List.length_pos_of_ne_nil hpayload
  change payload.length ≤ 1483 at hshort
  have hcount : chunkCount 1483 payload.length = 1 := by
    unfold chunkCount
    omega
  change (chunks 1483 payload).zipIdx = _
  rw [chunks, hcount]
  simp [List.take_of_length_le hshort]

variable {hash : RandomState} {reliability : ReliabilityType} {id : ConnectionId}
  {peer : Peer Connected}

def withEntries {R M : Type} [Queued R M] (net : AntarcNet S) (entries : List (Scheduled R M))
    (tracker : PacketId) : AntarcNet S :=
  { net with antarc := { net.antarc.setCore { net.antarc.core with
      scheduler := pushAll net.antarc.core.scheduler entries } with packetIdTracker := tracker } }

theorem core_withEntries {R M : Type} [Queued R M] (net : AntarcNet S)
    (entries : List (Scheduled R M)) (tracker : PacketId) :
    (withEntries net entries tracker).antarc.core =
      { net.antarc.core with scheduler := pushAll net.antarc.core.scheduler entries } :=
  core_setCore _ _

theorem withEntries_withEntries {R M : Type} [Queued R M] (net : AntarcNet S)
    (first second : List (Scheduled R M)) (before after : PacketId) :
    withEntries (withEntries net first before) second after =
      withEntries net (first ++ second) after := by
  unfold withEntries
  rw [pushAll_append]
  simp only [Protocol.setCore, Protocol.core, Service.core_setCore, Service.setCore_setCore]

section Calls

variable {R : Type} [Queued R DataTransfer] {own : R} {net : AntarcNet S}

def QueuesFor (reliability : ReliabilityType) (own : R) (target : Target) : Prop :=
  ∀ (A : Type) (scheduler : Scheduler A) packetId now payload,
    queued scheduler reliability packetId now [target] 1 [(payload, 0)] =
      pushAll scheduler [(⟨packetId, target.2, now, own, .new target.1 payload⟩ :
        Scheduled R DataTransfer)]

theorem schedule_queues {call : ScheduleCall} (hpush : QueuesFor reliability own (id, peer.address))
    (hone : net.antarc.core.connected = Finmap.singleton id peer) (hfits : call.Fits id) :
    net.schedule hash reliability call.sendTo call.payload call.now =
      (net.attempt (addU64 net.antarc.packetIdTracker 1) >>= fun packetId =>
        pure (.ok packetId, withEntries net [(⟨net.antarc.packetIdTracker, peer.address, call.now,
          own, call.message id⟩ : Scheduled R DataTransfer)] packetId)) := by
  unfold AntarcNet.schedule AntarcNet.forward
  rw [schedule_one hone hfits.sendTo]
  unfold queuedForOne
  rw [numberedChunks_short hfits.nonempty hfits.short, List.length_singleton, hpush A]
  cases addU64 net.antarc.packetIdTracker 1 with
  | error panic => rfl
  | ok tracker => rfl

theorem scheduleAll_cases (hash : RandomState) {calls : List ScheduleCall}
    (hpush : QueuesFor reliability own (id, peer.address))
    (hone : net.antarc.core.connected = Finmap.singleton id peer)
    (hcalls : ∀ call ∈ calls, call.Fits id) :
    (net.antarc.packetIdTracker.toNat + calls.length < UInt64.size ∧
      ∃ (entries : List (Scheduled R DataTransfer)) (tracker : PacketId),
        scheduleAll hash reliability calls net = .ok (withEntries net entries tracker) ∧
        entries.map Scheduled.message = calls.map (ScheduleCall.message id) ∧
        AllFor id peer.address entries) ∨
      (¬net.antarc.packetIdTracker.toNat + calls.length < UInt64.size ∧
        ∃ stopped, scheduleAll hash reliability calls net = .error stopped) := by
  induction calls generalizing net with
  | nil =>
    refine .inl ⟨net.antarc.packetIdTracker.toNat_lt, [], net.antarc.packetIdTracker, ?_, rfl,
      fun _ hmem => by contradiction⟩
    unfold withEntries
    rw [pushAll_nil, setCore_core]
    rfl
  | cons call rest ih =>
    let first : Scheduled R DataTransfer :=
      ⟨net.antarc.packetIdTracker, peer.address, call.now, own, call.message id⟩
    let counted := net.antarc.packetIdTracker + 1
    unfold scheduleAll
    rw [schedule_queues hpush hone (hcalls call List.mem_cons_self), List.length_cons]
    by_cases hcount : net.antarc.packetIdTracker.toNat + (1 : UInt64).toNat < UInt64.size
    · have htracker : addU64 net.antarc.packetIdTracker 1 = .ok counted := if_pos hcount
      have hcounted : counted.toNat = net.antarc.packetIdTracker.toNat + 1 := by
        rw [UInt64.toNat_add, Nat.mod_eq_of_lt hcount]
        rfl
      simp only [htracker, AntarcNet.attempt, ok_bind, pure_bind]
      have hconnected : (withEntries net [first] counted).antarc.core.connected =
          Finmap.singleton id peer := by rw [core_withEntries, hone]
      have hrest := ih hconnected fun other hmem => hcalls other (List.mem_cons_of_mem _ hmem)
      have htotal : (withEntries net [first] counted).antarc.packetIdTracker.toNat + rest.length =
          net.antarc.packetIdTracker.toNat + (rest.length + 1) := by
        change counted.toNat + rest.length = _
        omega
      rw [htotal] at hrest
      refine hrest.imp_left ?_
      rintro ⟨hlt, entries, tracker, hscheduled, hmessages, hfor⟩
      refine ⟨hlt, first :: entries, tracker, ?_, ?_, ?_⟩
      · rw [hscheduled, withEntries_withEntries]
        rfl
      · rw [List.map_cons, List.map_cons, hmessages]
      · intro scheduled hmem
        rcases List.mem_cons.mp hmem with rfl | hmem
        · exact ⟨rfl, rfl⟩
        · exact hfor scheduled hmem
    · have htracker : addU64 net.antarc.packetIdTracker 1 = .error .overflow := if_neg hcount
      refine .inr ⟨?_, _, by rw [htracker]; rfl⟩
      change ¬net.antarc.packetIdTracker.toNat + 1 < UInt64.size at hcount
      omega

end Calls

end Scheduling

section Sending

variable {M : Type} [Message M]

/-- The messages, numbered from the tracker of their peer on, have no checksum that is zero. -/
def ChecksumsNonzero (crc32 : Crc32) (peer : Peer Connected) (messages : List M) : Prop :=
  ∀ index message sequence, messages[index]? = some message →
    sequence.get.toNat = peer.sequenceTracker.get.toNat + index →
    checksumOf crc32 sequence peer.remoteAckTracker message ≠ 0

theorem checksumsNonzero_cons {crc32 : Crc32} {peer : Peer Connected} {next : Sequence}
    {message : M} {rest : List M} (hnext : peer.sequenceTracker.checkedAdd 1 = some next) :
    ChecksumsNonzero crc32 peer (message :: rest) ↔
      checksumOf crc32 peer.sequenceTracker peer.remoteAckTracker message ≠ 0 ∧
        ChecksumsNonzero crc32 { peer with sequenceTracker := next } rest := by
  have hnat := NonZeroU32.checkedAdd_one hnext
  constructor
  · intro h
    refine ⟨h 0 message peer.sequenceTracker rfl rfl, ?_⟩
    intro index other sequence hother hsequence
    refine h (index + 1) other sequence hother ?_
    change sequence.get.toNat = next.get.toNat + index at hsequence
    omega
  · rintro ⟨hfirst, hrest⟩ index other sequence hother hsequence
    cases index with
    | zero =>
      cases hother
      rw [NonZeroU32.ext (UInt32.toNat_inj.mp hsequence)]
      exact hfirst
    | succ index =>
      refine hrest index other sequence hother ?_
      change sequence.get.toNat = next.get.toNat + index
      omega

end Sending

section Loop

variable {S A B E : Type} [Service S A B E] {M : Type} [Carried M] [Sendable M] {R : Type}
  (crc32 : Crc32) (reliability : ReliabilityType)
  {create : Protocol S → Scheduled R M → Duration → Exec (Packet ToSend M)} {message : String}
  {net : AntarcNet S} {id : ConnectionId} {address : SocketAddr} {peer : Peer Connected}

theorem sendEach_isOk_iff
    (hcreate : ∀ protocol scheduled now,
      create protocol scheduled now = protocol.core.createCarried message scheduled now)
    (hwhole : ∀ message : M, Carried.completes message = .ok true)
    (clock : Nat → Duration) {entries : List (Scheduled R M)}
    (hentries : AllFor id address entries)
    (hfound : net.antarc.core.connected.lookup id = some peer)
    (hstays : StaysPut net.antarc.service address)
    (hroom : peer.sequenceTracker.get.toNat + entries.length < UInt32.size) :
    (∃ next, AntarcNet.sendEach crc32 create (fun protocol packet now =>
      protocol.sent packet reliability now) clock entries net = .ok next) ↔
      ChecksumsNonzero crc32 peer (entries.map Scheduled.message) := by
  induction entries generalizing net peer clock with
  | nil => exact iff_of_true ⟨net, rfl⟩ fun _ _ _ hmessage => by contradiction
  | cons scheduled rest ih =>
    obtain ⟨hid, haddress⟩ := hentries scheduled List.mem_cons_self
    rw [List.length_cons] at hroom
    obtain ⟨sequence, hsequence⟩ := NonZeroU32.checkedAdd_one_isSome
      (Nat.lt_of_le_of_lt (by omega) hroom : peer.sequenceTracker.get.toNat + 1 < UInt32.size)
    have hnat := NonZeroU32.checkedAdd_one hsequence
    let moved : Peer Connected := { peer with sequenceTracker := sequence }
    have hmoved : peer.advance = .ok moved := advance_eq_ok.mpr ⟨sequence, hsequence, rfl⟩
    rw [← hid] at hfound
    rw [← haddress] at hstays
    let packet := scheduled.intoPacket peer.sequenceTracker peer.remoteAckTracker (clock 0)
    let middle := afterTurn crc32 reliability net packet moved (clock 1)
    have hturn : ∀ next, net.sendScheduled crc32 create (fun protocol packet now =>
        protocol.sent packet reliability now) scheduled (clock 0) (clock 1) = .ok next ↔
        packet.checksum crc32 ≠ 0 ∧ next = middle := fun _ =>
      sendScheduled_moved reliability _ _ hcreate hfound hstays (hwhole _) hmoved
    have hmiddle : middle.antarc.core.connected.lookup id = some moved :=
      hid ▸ lookup_afterTurn packet moved (clock 1)
    have hstays' : StaysPut middle.antarc.service address :=
      haddress ▸ hstays.afterTurn packet moved _
    have hroom' : moved.sequenceTracker.get.toNat + rest.length < UInt32.size := by
      change sequence.get.toNat + rest.length < UInt32.size
      omega
    have hrest := ih (fun reading => clock (reading + 2))
      (fun other hmem => hentries other (List.mem_cons_of_mem _ hmem)) hmiddle hstays' hroom'
    rw [List.map_cons, checksumsNonzero_cons hsequence, ← hrest]
    simp only [AntarcNet.sendEach, bind_eq_ok, hturn]
    constructor
    · rintro ⟨next, _, ⟨hchecksum, rfl⟩, hsent⟩
      exact ⟨hchecksum, next, hsent⟩
    · rintro ⟨hchecksum, next, hsent⟩
      exact ⟨next, middle, ⟨hchecksum, rfl⟩, hsent⟩

end Loop

section Receiving

variable (crc32 : Crc32) (hash : RandomState) {id : ConnectionId} {protocol : Protocol Server}

theorem receiveAtServer_transfer {packet : Packet ToSend DataTransfer} (source : SocketAddr)
    (time : Duration) (hmetadata : packet.message.metadata = ⟨dataTransfer⟩)
    (hknown : packet.message.connectionId ∈ protocol.service.connected ∨
      packet.message.connectionId ∈ protocol.service.awaitingConnectionAck) :
    ∃ next, receiveAtServer crc32 hash time ⟨source, (packet.datagram crc32).bytes⟩ protocol =
        .ok next ∧
      next.core.api = protocol.core.api ++
        [.dataTransfer packet.message.connectionId packet.message.payload] ∧
      packet.message.connectionId ∈ next.service.connected := by
  have hdecode := (Codec.roundTrips_dataTransfer crc32 packet source time hmetadata).2.1
  obtain ⟨next, hreceived, hapi, hconnected⟩ :=
    onReceived_dataTransfer hash protocol.packetIdTracker hdecode hknown
  refine ⟨{ protocol with service := next }, ?_, hapi, hconnected⟩
  unfold receiveAtServer Protocol.serverReceived
  rw [hreceived]
  rfl

theorem receiveEach_transfers {packets : List (Packet ToSend DataTransfer)} (source : SocketAddr)
    (clock : Nat → Duration)
    (hpackets : ∀ packet ∈ packets, packet.message.metadata = ⟨dataTransfer⟩ ∧
      packet.message.connectionId = id)
    (hknown : id ∈ protocol.service.connected ∨ id ∈ protocol.service.awaitingConnectionAck) :
    ∃ after, receiveEach (receiveAtServer crc32 hash) clock
        (packets.map fun packet => ⟨source, (packet.datagram crc32).bytes⟩) protocol = .ok after ∧
      after.core.api = protocol.core.api ++
        packets.map fun packet => .dataTransfer id packet.message.payload := by
  induction packets generalizing protocol clock with
  | nil => exact ⟨protocol, rfl, (List.append_nil _).symm⟩
  | cons packet rest ih =>
    obtain ⟨hmetadata, rfl⟩ := hpackets packet List.mem_cons_self
    obtain ⟨next, hnext, hapi, hconnected⟩ :=
      receiveAtServer_transfer crc32 hash source (clock 0) hmetadata hknown
    obtain ⟨after, hafter, hevents⟩ := ih (fun reading => clock (reading + 1))
      (fun other hmem => hpackets other (List.mem_cons_of_mem _ hmem)) (.inl hconnected)
    refine ⟨after, ?_, ?_⟩
    · rw [List.map_cons, receiveEach, hnext, ok_bind, hafter]
    · rw [hevents, hapi, List.map_cons, List.append_assoc]
      rfl

end Receiving

section Whole

variable {S A B E : Type} [Service S A B E]

def pollDataTransfer (crc32 : Crc32) (reliability : ReliabilityType) (clock : Nat → Duration)
    (net : AntarcNet S) : Drive (AntarcNet S) :=
  match reliability with
  | .reliable => net.pollReliableDataTransfer crc32 clock
  | .unreliable => net.pollUnreliableDataTransfer crc32 clock

/-- The messages are scheduled, sent in one pass and received in order, and the server tells
its application of each of them, once and in order. -/
def MessagesArrive (crc32 : Crc32) (id : ConnectionId) (hash serverHash : RandomState)
    (reliability : ReliabilityType) (calls : List ScheduleCall) (sending receiving : Nat → Duration)
    (sender : AntarcNet S) (receiver : Protocol Server) : Prop :=
  ∃ scheduled sent after,
    scheduleAll hash reliability calls sender = .ok scheduled ∧
    pollDataTransfer crc32 reliability sending scheduled = .ok sent ∧
    receiveEach (receiveAtServer crc32 serverHash) receiving (arriving sender sent) receiver =
      .ok after ∧
    after.core.api = receiver.core.api ++ calls.map fun call => .dataTransfer id call.payload

variable {R : Type} [Queued R DataTransfer] [Reliability R] {own : R} {crc32 : Crc32}
  {id : ConnectionId} {peer : Peer Connected} (hash serverHash : RandomState)
  {calls : List ScheduleCall} (sending receiving : Nat → Duration) {sender : AntarcNet S}
  {receiver : Protocol Server}

/-- The entries of these calls, alone in their queue, arrive unless a checksum is zero. -/
theorem pass_arrives_iff
    {create : Protocol S → Scheduled R DataTransfer → Duration → Exec (Packet ToSend DataTransfer)}
    {message : String} (hcreate : ∀ protocol scheduled now,
      create protocol scheduled now = protocol.core.createCarried message scheduled now)
    (hone : sender.antarc.core.connected = Finmap.singleton id peer)
    (hstays : StaysPut sender.antarc.service peer.address)
    (hempty : Queued.queue sender.antarc.core.scheduler = ([] : List (Scheduled R DataTransfer)))
    (hroom : peer.sequenceTracker.get.toNat + calls.length < UInt32.size)
    (hknown : id ∈ receiver.service.connected ∨ id ∈ receiver.service.awaitingConnectionAck)
    {entries : List (Scheduled R DataTransfer)} (tracker : PacketId)
    (hmessages : entries.map Scheduled.message = calls.map (ScheduleCall.message id))
    (hentries : AllFor id peer.address entries) :
    (∃ sent after, AntarcNet.pollScheduled crc32 create sending
        (withEntries sender entries tracker) = .ok sent ∧
      receiveEach (receiveAtServer crc32 serverHash) receiving (arriving sender sent) receiver =
        .ok after ∧
      after.core.api = receiver.core.api ++
        calls.map fun call => .dataTransfer id call.payload) ↔
      ChecksumsNonzero crc32 peer (calls.map (ScheduleCall.message id)) := by
  have hqueue : Queued.queue (withEntries sender entries tracker).antarc.core.scheduler =
      entries := by
    rw [core_withEntries, queue_pushAll, hempty, List.nil_append]
  rw [pollScheduled_eq, hqueue]
  let queued := withEntries sender entries tracker
  let drained : AntarcNet S := { queued with antarc := queued.antarc.setCore { queued.antarc.core with
    scheduler := Queued.setQueue queued.antarc.core.scheduler ([] : List (Scheduled R DataTransfer)) } }
  have hconnected : drained.antarc.core.connected.lookup id = some peer := by
    simp only [drained, queued, core_setCore, core_withEntries, hone]
    exact Finmap.lookup_singleton_eq
  have hstays : StaysPut drained.antarc.service peer.address := (hstays.setCore _).setCore _
  have hlength : entries.length = calls.length := by
    have hlengths := congrArg List.length hmessages
    rwa [List.length_map, List.length_map] at hlengths
  rw [← hlength] at hroom
  have hsends := sendEach_isOk_iff crc32 (Reliability.kind R) hcreate (fun _ => rfl) sending
    hentries hconnected hstays hroom
  rw [← hmessages, ← hsends]
  constructor
  · rintro ⟨sent, _, hsent, -, -⟩
    exact ⟨sent, hsent⟩
  · rintro ⟨sent, hsent⟩
    obtain ⟨packets, hsocket, hcarried, -⟩ :=
      sendEach_sends hcreate hentries hconnected hstays hsent
    rw [hmessages] at hcarried
    have hpackets : ∀ packet ∈ packets, packet.message.metadata = ⟨dataTransfer⟩ ∧
        packet.message.connectionId = id := by
      intro packet hmem
      have hmessage := List.mem_map_of_mem (f := Packet.message) hmem
      rw [hcarried] at hmessage
      obtain ⟨call, -, heq⟩ := List.mem_map.mp hmessage
      rw [← heq]
      exact ⟨rfl, rfl⟩
    obtain ⟨after, hafter, hevents⟩ :=
      receiveEach_transfers crc32 serverHash sender.address receiving hpackets hknown
    have harriving : arriving sender sent =
        packets.map fun packet => ⟨sender.address, (packet.datagram crc32).bytes⟩ :=
      arriving_firstSendings hsocket
    refine ⟨sent, after, hsent, ?_, ?_⟩
    · rw [harriving, hafter]
    · have hpayloads := congrArg
        (List.map fun message => (.dataTransfer id message.payload : ProtocolEvent ServerEvent))
        hcarried
      rw [List.map_map, List.map_map] at hpayloads
      rw [hevents]
      exact congrArg _ hpayloads

theorem messagesArrive_iff {reliability : ReliabilityType}
    (hpush : QueuesFor reliability own (id, peer.address))
    {create : Protocol S → Scheduled R DataTransfer → Duration → Exec (Packet ToSend DataTransfer)}
    {message : String} (hcreate : ∀ protocol scheduled now,
      create protocol scheduled now = protocol.core.createCarried message scheduled now)
    (hpass : ∀ net, pollDataTransfer crc32 reliability sending net =
      AntarcNet.pollScheduled crc32 create sending net)
    (hone : sender.antarc.core.connected = Finmap.singleton id peer)
    (hstays : StaysPut sender.antarc.service peer.address)
    (hempty : Queued.queue sender.antarc.core.scheduler = ([] : List (Scheduled R DataTransfer)))
    (hcalls : ∀ call ∈ calls, call.Fits id)
    (hroom : peer.sequenceTracker.get.toNat + calls.length < UInt32.size)
    (hknown : id ∈ receiver.service.connected ∨ id ∈ receiver.service.awaitingConnectionAck) :
    MessagesArrive crc32 id hash serverHash reliability calls sending receiving sender receiver ↔
      sender.antarc.packetIdTracker.toNat + calls.length < UInt64.size ∧
        ChecksumsNonzero crc32 peer (calls.map (ScheduleCall.message id)) := by
  unfold MessagesArrive
  simp only [hpass]
  rcases scheduleAll_cases hash hpush hone hcalls with
    ⟨hcount, entries, tracker, hscheduled, hmessages, hentries⟩ | ⟨hcount, stopped, hstopped⟩
  · rw [and_iff_right hcount, ← pass_arrives_iff serverHash sending receiving hcreate hone hstays
      hempty hroom hknown tracker hmessages hentries]
    constructor
    · rintro ⟨scheduled, sent, after, hcalled, harrives⟩
      cases hcalled.symm.trans hscheduled
      exact ⟨sent, after, harrives⟩
    · rintro ⟨sent, after, harrives⟩
      exact ⟨_, sent, after, hscheduled, harrives⟩
  · refine iff_of_false ?_ fun h => hcount h.1
    rintro ⟨scheduled, sent, after, hcalled, -⟩
    cases hcalled.symm.trans hstopped

end Whole

/-- From a client with one connected peer to its server, the calls that fit one datagram each
arrive in order and once each, if and only if they can be counted and no checksum is zero. -/
theorem client_messages_arrive_iff (crc32 : Crc32) (hash serverHash : RandomState)
    (reliability : ReliabilityType) (calls : List ScheduleCall) (sending receiving : Nat → Duration)
    (id : ConnectionId) (peer : Peer Connected) (sender : AntarcNet Client)
    (receiver : Protocol Server)
    (hone : sender.antarc.core.connected = Finmap.singleton id peer)
    (hnotAwaiting : peer.address ∉ sender.antarc.service.awaitingConnectionAck)
    (hreliable : sender.antarc.core.scheduler.listScheduledReliableDataTransfer = [])
    (hunreliable : sender.antarc.core.scheduler.listScheduledUnreliableDataTransfer = [])
    (hcalls : ∀ call ∈ calls, call.Fits id)
    (hroom : peer.sequenceTracker.get.toNat + calls.length < UInt32.size)
    (hknown : id ∈ receiver.service.connected ∨ id ∈ receiver.service.awaitingConnectionAck) :
    MessagesArrive crc32 id hash serverHash reliability calls sending receiving sender receiver ↔
      sender.antarc.packetIdTracker.toNat + calls.length < UInt64.size ∧
        ChecksumsNonzero crc32 peer (calls.map (ScheduleCall.message id)) := by
  have hstays : StaysPut sender.antarc.service peer.address := staysPut_client hnotAwaiting
  cases reliability with
  | reliable =>
    have hpush : QueuesFor .reliable ({} : Reliable) (id, peer.address) := fun _ _ _ _ _ => rfl
    exact messagesArrive_iff hash serverHash sending receiving hpush (fun _ _ _ => rfl)
      (fun _ => rfl) hone hstays hreliable hcalls hroom hknown
  | unreliable =>
    have hpush : QueuesFor .unreliable ({} : Unreliable) (id, peer.address) := fun _ _ _ _ _ => rfl
    exact messagesArrive_iff hash serverHash sending receiving hpush (fun _ _ _ => rfl)
      (fun _ => rfl) hone hstays hunreliable hcalls hroom hknown

section Unlucky

def callFor (payload : Payload) : ScheduleCall :=
  ⟨payload, .single .one, .zero⟩

/-- As the second packet of the connection, this payload has the checksum zero. -/
def unluckyPayload : Payload := [69, 199, 229, 229]

theorem callFor_fits {payload : Payload} (hnonempty : payload ≠ [])
    (hshort : payload.length ≤ maxFragmentSize - Message.headerSize Fragment) :
    (callFor payload).Fits ⟨1, by decide⟩ :=
  ⟨hnonempty, hshort, .inl rfl⟩

/-- The assertion of `as_raw` stops the pass before the payload is sent. -/
theorem unluckyPayload_lost :
    (clientRuns ieeeCrc32).Reachable connectedRun ∧
      (callFor unluckyPayload).Fits ⟨1, by decide⟩ ∧
      ∀ hash serverHash : RandomState, ¬MessagesArrive ieeeCrc32 ⟨1, by decide⟩ hash serverHash
        .unreliable [callFor unluckyPayload] (fun _ => .zero) (fun _ => .zero) connectedRun.net
        connectedServer.antarc := by
  refine ⟨connectedRun_reachable, callFor_fits (by decide) (by decide), ?_⟩
  intro hash serverHash h
  have hpush : QueuesFor .unreliable ({} : Unreliable) (⟨1, by decide⟩, .v4 0 0) :=
    fun _ _ _ _ _ => rfl
  have hnonzero := ((messagesArrive_iff hash serverHash _ _ hpush (fun _ _ _ => rfl) (fun _ => rfl)
    rfl (staysPut_client Finmap.notMem_empty) rfl
    (fun call hmem => List.mem_singleton.mp hmem ▸ callFor_fits (by decide) (by decide))
    (by decide) (.inl (Finmap.mem_singleton _ _ _ |>.mpr rfl))).mp h).2
  have hzero : checksumOf ieeeCrc32 ⟨2, by decide⟩ 1
      ((callFor unluckyPayload).message ⟨1, by decide⟩) = 0 := by decide +kernel
  exact hnonzero 0 _ ⟨2, by decide⟩ rfl rfl hzero

theorem luckyPayloads_arrive :
    MessagesArrive ieeeCrc32 ⟨1, by decide⟩ (Classical.arbitrary RandomState)
      (Classical.arbitrary RandomState) .reliable [callFor [1, 2, 3], callFor [4]] (fun _ => .zero)
      (fun _ => .zero) connectedRun.net connectedServer.antarc := by
  have hfits : ∀ call ∈ [callFor [1, 2, 3], callFor [4]], call.Fits ⟨1, by decide⟩ := by
    intro call hmem
    rcases List.mem_cons.mp hmem with rfl | hmem
    · exact callFor_fits (by decide) (by decide)
    · rw [List.mem_singleton.mp hmem]
      exact callFor_fits (by decide) (by decide)
  apply (client_messages_arrive_iff ieeeCrc32 _ _ .reliable
    [callFor [1, 2, 3], callFor [4]] (fun _ => .zero) (fun _ => .zero) ⟨1, by decide⟩ _
    connectedRun.net connectedServer.antarc rfl Finmap.notMem_empty rfl rfl hfits (by decide)
    (.inl (Finmap.mem_singleton _ _ _ |>.mpr rfl))).mpr
  refine ⟨by decide, ?_⟩
  have hsecond : (⟨2, by decide⟩ : Sequence).checkedAdd 1 = some ⟨3, by decide⟩ := rfl
  have hthird : (⟨3, by decide⟩ : Sequence).checkedAdd 1 = some ⟨4, by decide⟩ := rfl
  refine (checksumsNonzero_cons hsecond).mpr ⟨by decide +kernel, ?_⟩
  refine (checksumsNonzero_cons hthird).mpr ⟨by decide +kernel, ?_⟩
  intro index message sequence hmessage
  contradiction

end Unlucky

end Antarc.Properties
