import Antarc.Properties.Appended
import Antarc.Properties.Histories

/-! The calls that put entries in the queues, and the packet ids that they put them there
under. A call reads the packet id tracker, gives what it read to all of its entries, and
moves the tracker on if there were any; the id that it returns is the next one. -/
namespace Antarc.Properties

open Library

section Calls

/-- A call that may queue something: one that both roles have, or one of the role's own. -/
inductive Call (Own : Type) where
  | schedule (reliability : ReliabilityType) (sendTo : SendTo) (payload : Payload) (now : Duration)
  | heartbeat (reliability : ReliabilityType) (sendTo : SendTo) (now : Duration)
  | own (call : Own)

inductive ClientOwn where
  | connect (address : SocketAddr) (now : Duration)
  | received (raw : RawPacket) (now : Duration)

inductive ServerOwn where
  | received (raw : RawPacket) (now : Duration)

abbrev Answer := Result (Option PacketId)

/-- The calls of one role, when they queue something, and the calls that never do. -/
class Role (S : Type) (Own : outParam Type) where
  run : Crc32 → RandomState → Protocol S → Own → Exec (Result Unit × Protocol S)
  queues : Crc32 → Protocol S → Own → Prop
  between : Protocol S → Protocol S → Prop

inductive ClientBetween (protocol : Protocol Client) : Protocol Client → Prop where
  | drain (start stop : Nat) (drained : List (Scheduled Reliable ConnectionRequest))
      (next : Protocol Client)
      (call : protocol.drainConnectionRequest start stop = .ok (drained, next)) :
      ClientBetween protocol next
  | sent (packet : Packet ToSend ConnectionRequest) (now : Duration) (next : Protocol Client)
      (call : protocol.sentConnectionRequest packet now = .ok next) : ClientBetween protocol next
  | resend (now : Duration) (packet : Option (Packet ToSend ConnectionRequest))
      (next : Protocol Client)
      (call : protocol.resendReliableConnectionRequest now = .ok (packet, next)) :
      ClientBetween protocol next
  | poll (elapsed : Duration) (events : List (ProtocolEvent ClientEvent)) (next : Protocol Client)
      (call : protocol.clientPoll elapsed = .ok (events, next)) : ClientBetween protocol next

inductive ServerBetween (protocol : Protocol Server) : Protocol Server → Prop where
  | drain (start stop : Nat) (drained : List (Scheduled Reliable ConnectionAccepted))
      (next : Protocol Server)
      (call : protocol.drainConnectionAccepted start stop = .ok (drained, next)) :
      ServerBetween protocol next
  | sent (packet : Packet ToSend ConnectionAccepted) (now : Duration) (next : Protocol Server)
      (call : protocol.sentConnectionAccepted packet now = .ok next) : ServerBetween protocol next
  | retry (now : Duration) (packet : Option (Packet ToSend ConnectionAccepted))
      (next : Protocol Server)
      (call : protocol.retryReliableConnectionAccepted now = .ok (packet, next)) :
      ServerBetween protocol next
  | poll (hash : RandomState) (peerHash : ConnectionId → RandomState) (elapsed now : Duration)
      (events : List (ProtocolEvent ServerEvent)) (next : Protocol Server)
      (call : protocol.serverPoll hash peerHash elapsed now = .ok (events, next)) :
      ServerBetween protocol next

instance : Role Client ClientOwn where
  run crc32 _ protocol call :=
    match call with
    | .connect address now => protocol.connect address now
    | .received raw now => protocol.clientReceived crc32 raw now
  queues _ protocol call :=
    match call with
    | .connect address _ => protocol.service.knownPeer address = false
    | .received _ _ => False
  between := ClientBetween

instance : Role Server ServerOwn where
  run crc32 hash protocol call :=
    match call with
    | .received raw now => protocol.serverReceived crc32 hash raw now
  queues crc32 protocol call :=
    match call with
    | .received raw now => ∃ packet,
        raw.decode crc32 DecodedForServer.tryFrom now = .ok (.ok (.connectionRequest packet)) ∧
          protocol.service.unexpectedConnection packet.delivery.metadata.address = .ok ()
  between := ServerBetween

variable {S A B E Own : Type} [Service S A B E] [Role S Own]

def Call.run (crc32 : Crc32) (hash : RandomState) (protocol : Protocol S) (call : Call Own) :
    Exec (Answer × Protocol S) :=
  match call with
  | .schedule reliability sendTo payload now => do
      let (result, next) ← protocol.schedule hash reliability sendTo payload now
      pure (some <$> result, next)
  | .heartbeat reliability sendTo now => do
      let (result, next) ← protocol.heartbeat hash reliability sendTo now
      pure (some <$> result, next)
  | .own call => do
      let (result, next) ← Role.run crc32 hash protocol call
      pure ((fun () => none) <$> result, next)

def Call.Queues (crc32 : Crc32) (protocol : Protocol S) : Call Own → Prop
  | .schedule _ sendTo payload _ => isEmpty protocol.core.connected = false ∧
      ¬NamesStranger protocol.core sendTo ∧ payload ≠ []
  | .heartbeat _ sendTo _ => isEmpty protocol.core.connected = false ∧
      ¬NamesStranger protocol.core sendTo
  | .own call => Role.queues crc32 protocol call

/-- The calls of a protocol between those that may queue something. -/
inductive Between (protocol : Protocol S) : Protocol S → Prop where
  | drain (R M : Type) [Queued R M] (start stop : Nat) (drained : List (Scheduled R M))
      (next : Protocol S) (call : protocol.drain R M start stop = .ok (drained, next)) :
      Between protocol next
  | sent (M : Type) [Carried M] (packet : Packet ToSend M) (reliability : ReliabilityType)
      (now : Duration) (next : Protocol S)
      (call : protocol.sent packet reliability now = .ok next) : Between protocol next
  | retry (M : Type) [Carried M] (now : Duration) (packet : Option (Packet ToSend M))
      (next : Protocol S) (call : protocol.retry M now = .ok (packet, next)) :
      Between protocol next
  | own {next : Protocol S} (call : Role.between protocol next) : Between protocol next

def newlyQueued [HandshakeQueue S] (before after : Protocol S) : List QueueEntry :=
  entriesOf (appended before.core.scheduler after.core.scheduler) ++
    (HandshakeQueue.greetings after.service).drop
      (HandshakeQueue.greetings before.service).length

/-- What a call does to the queues and to the packet id tracker. -/
structure Stamps [HandshakeQueue S] (before after : Protocol S) (answer : Answer)
    (queues : Prop) : Prop where
  extends_six : Extends before.core.scheduler after.core.scheduler
  extends_greetings : HandshakeQueue.greetings before.service <+:
    HandshakeQueue.greetings after.service
  ids : ∀ entry ∈ newlyQueued before after, entry.packetId = before.packetIdTracker
  queues_iff : newlyQueued before after ≠ [] ↔ queues
  grows : before.packetIdTracker.toNat ≤ after.packetIdTracker.toNat
  counts : queues → after.packetIdTracker.toNat = before.packetIdTracker.toNat + 1
  answers : ∀ id, answer = .ok (some id) → id.toNat = before.packetIdTracker.toNat + 1

end Calls

section Stamping

variable {S A B E : Type} [Service S A B E] [HandshakeQueue S] {before after : Protocol S}
  {answer : Answer} {queues : Prop}

theorem addU64_one_eq_ok {n sum : UInt64} (h : addU64 n 1 = .ok sum) :
    sum.toNat = n.toNat + 1 := by
  have hlt : n.toNat + (1 : UInt64).toNat < UInt64.size := addU64_one_lt_iff.mp ⟨sum, h⟩
  rw [addU64, if_pos hlt] at h
  cases h
  rw [UInt64.toNat_add, Nat.mod_eq_of_lt hlt]
  rfl

theorem Stamps.of_kept (hscheduler : after.core.scheduler = before.core.scheduler)
    (hgreetings : HandshakeQueue.greetings after.service = HandshakeQueue.greetings before.service)
    (htracker : before.packetIdTracker.toNat ≤ after.packetIdTracker.toNat)
    (hanswer : ∀ id, answer ≠ .ok (some id)) (hqueues : ¬queues) :
    Stamps before after answer queues := by
  have hnone : newlyQueued before after = [] := by
    simp [newlyQueued, hscheduler, hgreetings]
  refine ⟨by rw [hscheduler]; exact .refl _, by rw [hgreetings], ?_, ?_, htracker,
    fun h => absurd h hqueues, fun id h => absurd h (hanswer id)⟩
  · rw [hnone]
    simp
  · rw [hnone]
    exact iff_of_false (fun h => h rfl) hqueues

theorem Stamps.of_counted {id : PacketId} {core : ServiceCore A B E} {entries : List QueueEntry}
    (hgreetings : HandshakeQueue.greetings (before.setCore core).service =
      HandshakeQueue.greetings before.service)
    (hextends : Extends before.core.scheduler core.scheduler)
    (hentries : entriesOf (appended before.core.scheduler core.scheduler) = entries)
    (hids : ∀ entry ∈ entries, entry.packetId = before.packetIdTracker)
    (hcounted : addU64 before.packetIdTracker 1 = .ok id) (hqueues : entries ≠ [] ↔ queues) :
    Stamps before { before.setCore core with packetIdTracker := id } (.ok (some id)) queues := by
  have hcore : Protocol.core { before.setCore core with packetIdTracker := id } = core :=
    core_setCore before core
  have hnew : newlyQueued before { before.setCore core with packetIdTracker := id } = entries := by
    rw [newlyQueued, hcore, hentries, hgreetings, List.drop_length, List.append_nil]
  have hnext := addU64_one_eq_ok hcounted
  refine ⟨by rw [hcore]; exact hextends, by rw [hgreetings], by rw [hnew]; exact hids,
    by rw [hnew]; exact hqueues, ?_, fun _ => hnext, ?_⟩
  · change _ ≤ id.toNat
    omega
  · rintro _ ⟨⟩
    exact hnext

theorem Stamps.of_greeting {entry : QueueEntry}
    (hsix : ∀ service : A, { after.core.scheduler with service := service } =
      { before.core.scheduler with service := service })
    (hgreetings : HandshakeQueue.greetings after.service =
      HandshakeQueue.greetings before.service ++ [entry])
    (hid : entry.packetId = before.packetIdTracker)
    (hcounted : addU64 before.packetIdTracker 1 = .ok after.packetIdTracker)
    (hanswer : ∀ id, answer ≠ .ok (some id)) (hqueues : queues) :
    Stamps before after answer queues := by
  have hsame := hsix before.core.scheduler.service
  have hnew : newlyQueued before after = [entry] := by
    have hentries := congrArg (fun six => entriesOf (appended before.core.scheduler six)) hsame
    change entriesOf (appended before.core.scheduler after.core.scheduler) = _ at hentries
    rw [newlyQueued, hentries, hgreetings, List.drop_left, appended_self, entriesOf_new]
    rfl
  have hnext := addU64_one_eq_ok hcounted
  have hextends := Extends.refl before.core.scheduler
  refine ⟨?_, ?_, ?_, ?_, by omega, fun _ => hnext, fun id h => absurd h (hanswer id)⟩
  · have hkept : Extends before.core.scheduler
        { after.core.scheduler with service := before.core.scheduler.service } := hsame ▸ hextends
    exact ⟨hkept.1, hkept.2, hkept.3, hkept.4, hkept.5, hkept.6⟩
  · rw [hgreetings]
    exact List.prefix_append _ _
  · rw [hnew]
    simpa using hid
  · rw [hnew]
    exact iff_of_true (List.cons_ne_nil _ _) hqueues

theorem service_queued (scheduler : Scheduler A) (reliability : ReliabilityType)
    (packetId : PacketId) (time : Duration) (targets : List Target) (total : Nat)
    (chunks : List (Payload × Nat)) :
    (queued scheduler reliability packetId time targets total chunks).service =
      scheduler.service := by
  unfold queued
  split <;> cases reliability <;> rfl

theorem service_beaten (scheduler : Scheduler A) (reliability : ReliabilityType)
    (packetId : PacketId) (time : Duration) (targets : List Target) :
    (beaten scheduler reliability packetId time targets).service = scheduler.service := by
  cases reliability <;> rfl

end Stamping

class LawfulGreetings (S : Type) (A B E : outParam Type) [Service S A B E] [HandshakeQueue S] :
    Prop where
  congr : ∀ first second : S,
    (Service.core first).scheduler.service = (Service.core second).scheduler.service →
      HandshakeQueue.greetings first = HandshakeQueue.greetings second

/-- A role whose own calls stamp what they queue, and whose other calls count nothing. -/
class LawfulRole (S : Type) (A B E Own : outParam Type) [Service S A B E] [HandshakeQueue S]
    [Role S Own] : Prop where
  run_stamps : ∀ crc32 hash (protocol : Protocol S) call result next,
    Role.run crc32 hash protocol call = .ok (result, next) →
      Stamps protocol next ((fun () => none) <$> result) (Role.queues crc32 protocol call)
  between_keeps : ∀ protocol next : Protocol S, Role.between protocol next →
    next.packetIdTracker = protocol.packetIdTracker

section Stamped

variable {S A B E Own : Type} [Service S A B E] [HandshakeQueue S] [LawfulGreetings S A B E]
  [Role S Own] [LawfulRole S A B E Own]
  {crc32 : Crc32} {hash : RandomState} {protocol next : Protocol S} {answer : Answer}

theorem greetings_setCore (protocol : Protocol S) {core : ServiceCore A B E}
    (hcore : core.scheduler.service = protocol.core.scheduler.service) :
    HandshakeQueue.greetings (protocol.setCore core).service =
      HandshakeQueue.greetings protocol.service := by
  apply LawfulGreetings.congr
  rw [Protocol.setCore, Service.core_setCore]
  exact hcore

theorem namesStranger_of_error {core : ServiceCore A B E} {sendTo : SendTo} {error : ProtocolError}
    (h : core.targets hash sendTo = .error error) : NamesStranger core sendTo := by
  obtain ⟨id, hsendTo, hmem, -⟩ := targets_eq_error.mp h
  exact ⟨id, hsendTo, hmem⟩

theorem not_namesStranger_of_ok {core : ServiceCore A B E} {sendTo : SendTo}
    {targets : List Target} (h : core.targets hash sendTo = .ok targets) :
    ¬NamesStranger core sendTo := by
  rintro ⟨id, hsendTo, hmem⟩
  cases (targets_eq_error.mpr ⟨id, hsendTo, hmem, rfl⟩).symm.trans h

theorem stamps_schedule {reliability : ReliabilityType} {sendTo : SendTo} {payload : Payload}
    {now : Duration} {result : Result PacketId}
    (h : protocol.schedule hash reliability sendTo payload now = .ok (result, next)) :
    Stamps protocol next (some <$> result) (isEmpty protocol.core.connected = false ∧
      ¬NamesStranger protocol.core sendTo ∧ payload ≠ []) := by
  have hcounted : ∀ targets, isEmpty protocol.core.connected = false →
      (numberedChunks payload = [] ∨ protocol.core.targets hash sendTo = .ok targets) →
      Stamps protocol next (some <$> result) (isEmpty protocol.core.connected = false ∧
        ¬NamesStranger protocol.core sendTo ∧ payload ≠ []) := by
    intro targets hconnected htargets
    obtain ⟨id, hid, hpure⟩ := bind_eq_ok.mp ((schedule_counts hconnected htargets).symm.trans h)
    cases hpure
    refine Stamps.of_counted (greetings_setCore protocol (service_queued ..))
      (extends_queued ..) ((congrArg _ (appended_queued ..)).trans (entriesOf_queued ..)) ?_ hid ?_
    · intro entry hmem
      obtain ⟨chunk, -, hmem⟩ := List.mem_flatMap.mp hmem
      obtain ⟨target, -, rfl⟩ := List.mem_map.mp hmem
      rfl
    · rw [and_iff_right hconnected, ne_eq, ne_eq, List.flatMap_eq_nil_iff]
      constructor
      · intro hsome
        have hpayload : payload ≠ [] := by
          rintro rfl
          exact hsome fun chunk hmem => by contradiction
        have hchunks := mt numberedChunks_eq_nil.mp hpayload
        exact ⟨not_namesStranger_of_ok (htargets.resolve_left hchunks), hpayload⟩
      · rintro ⟨-, hpayload⟩ hnone
        have hchunks := mt numberedChunks_eq_nil.mp hpayload
        obtain ⟨chunk, hmem⟩ := List.exists_mem_of_ne_nil _ hchunks
        exact (targets_distinct hconnected (htargets.resolve_left hchunks)).2
          (List.map_eq_nil_iff.mp (hnone chunk hmem))
  cases hconnected : isEmpty protocol.core.connected with
  | true =>
    cases (schedule_of_nobody hconnected payload).symm.trans h
    exact .of_kept rfl rfl le_rfl (fun _ h => by contradiction) (by simp)
  | false =>
    cases htargets : protocol.core.targets hash sendTo with
    | ok targets => exact hconnected ▸ hcounted targets hconnected (.inr htargets)
    | error error =>
      by_cases hchunks : numberedChunks payload = []
      · exact hconnected ▸ hcounted [] hconnected (.inl hchunks)
      · cases (schedule_of_error hconnected htargets hchunks).symm.trans h
        exact .of_kept rfl rfl le_rfl (fun _ h => by contradiction)
          fun hqueues => hqueues.2.1 (namesStranger_of_error htargets)

theorem stamps_heartbeat {reliability : ReliabilityType} {sendTo : SendTo} {now : Duration}
    {result : Result PacketId}
    (h : protocol.heartbeat hash reliability sendTo now = .ok (result, next)) :
    Stamps protocol next (some <$> result) (isEmpty protocol.core.connected = false ∧
      ¬NamesStranger protocol.core sendTo) := by
  cases hconnected : isEmpty protocol.core.connected with
  | true =>
    cases (heartbeat_of_nobody hconnected).symm.trans h
    exact .of_kept rfl rfl le_rfl (fun _ h => by contradiction) (by simp)
  | false =>
    cases htargets : protocol.core.targets hash sendTo with
    | error error =>
      cases (heartbeat_of_error hconnected htargets).symm.trans h
      exact .of_kept rfl rfl le_rfl (fun _ h => by contradiction)
        fun hqueues => hqueues.2 (namesStranger_of_error htargets)
    | ok targets =>
      obtain ⟨id, hid, hpure⟩ :=
        bind_eq_ok.mp ((heartbeat_counts hconnected htargets).symm.trans h)
      cases hpure
      refine Stamps.of_counted (greetings_setCore protocol (service_beaten ..))
        (extends_beaten ..) ((congrArg _ (appended_beaten ..)).trans (entriesOf_beaten ..)) ?_ hid ?_
      · intro entry hmem
        obtain ⟨target, -, rfl⟩ := List.mem_map.mp hmem
        rfl
      · refine iff_of_true ?_ ⟨rfl, not_namesStranger_of_ok htargets⟩
        exact mt List.map_eq_nil_iff.mp (targets_distinct hconnected htargets).2

theorem stamps_run {call : Call Own} (h : call.run crc32 hash protocol = .ok (answer, next)) :
    Stamps protocol next answer (call.Queues crc32 protocol) := by
  cases call with
  | schedule reliability sendTo payload now =>
    obtain ⟨⟨result, after⟩, hcall, hpure⟩ := bind_eq_ok.mp h
    cases hpure
    exact stamps_schedule hcall
  | heartbeat reliability sendTo now =>
    obtain ⟨⟨result, after⟩, hcall, hpure⟩ := bind_eq_ok.mp h
    cases hpure
    exact stamps_heartbeat hcall
  | own call =>
    obtain ⟨⟨result, after⟩, hcall, hpure⟩ := bind_eq_ok.mp h
    cases hpure
    exact LawfulRole.run_stamps crc32 hash protocol call result next hcall

omit [LawfulGreetings S A B E] in
theorem between_packetIdTracker (h : Between protocol next) :
    next.packetIdTracker = protocol.packetIdTracker := by
  cases h with
  | drain R M start stop drained _ call =>
    obtain ⟨_, -, hpure⟩ := bind_eq_ok.mp call
    cases hpure
    rfl
  | sent M packet reliability now _ call =>
    obtain ⟨_, -, hpure⟩ := bind_eq_ok.mp call
    cases hpure
    rfl
  | retry M now packet _ call =>
    obtain ⟨_, -, hpure⟩ := bind_eq_ok.mp call
    cases hpure
    rfl
  | own call => exact LawfulRole.between_keeps _ _ call

end Stamped

section Roles

variable {crc32 : Crc32} {hash : RandomState}

instance : LawfulGreetings Client ClientScheduler ClientReliabilityHandler ClientEvent where
  congr _ _ h := congrArg (fun service : ClientScheduler =>
    service.listScheduledConnectionRequest.map entryOf) h

instance : LawfulGreetings Server ServerScheduler ServerReliabilityHandler ServerEvent where
  congr _ _ h := congrArg (fun service : ServerScheduler =>
    service.listScheduledConnectionAccepted.map entryOf) h

theorem no_id (result : Result Unit) (id : PacketId) :
    ((fun () => none) <$> result : Answer) ≠ .ok (some id) := by
  cases result <;> simp [Functor.map, Except.map]

theorem stamps_connect {protocol next : Protocol Client} {address : SocketAddr} {now : Duration}
    {result : Result Unit} (h : protocol.connect address now = .ok (result, next)) :
    Stamps protocol next ((fun () => none) <$> result)
      (protocol.service.knownPeer address = false) := by
  unfold Protocol.connect Client.connect at h
  cases hknown : protocol.service.knownPeer address with
  | true =>
    rw [if_pos hknown] at h
    cases h
    exact .of_kept rfl rfl le_rfl (no_id _) (by simp)
  | false =>
    rw [if_neg (by simp [hknown])] at h
    obtain ⟨tracker, htracker, h⟩ := bind_eq_ok.mp h
    cases h
    exact .of_greeting (fun _ => rfl) List.map_append rfl htracker (no_id _) rfl

theorem stamps_clientReceived {protocol next : Protocol Client} {raw : RawPacket} {now : Duration}
    {result : Result Unit} (h : protocol.clientReceived crc32 raw now = .ok (result, next)) :
    Stamps protocol next ((fun () => none) <$> result) False := by
  obtain ⟨⟨answered, client⟩, hreceived, hpure⟩ := bind_eq_ok.mp h
  cases hpure
  have hscheduler : client.scheduler = protocol.service.scheduler := by
    rcases client_onReceived_cases hreceived with rfl | ⟨_, -, -, hhears⟩
    · rfl
    · exact hhears.kept.2.1
  exact .of_kept hscheduler (LawfulGreetings.congr _ _ (congrArg Scheduler.service hscheduler))
    le_rfl (no_id result) id

instance : LawfulRole Client ClientScheduler ClientReliabilityHandler ClientEvent ClientOwn where
  run_stamps crc32 hash protocol call result next h := by
    cases call with
    | connect address now => exact stamps_connect h
    | received raw now => exact stamps_clientReceived h
  between_keeps _ _ h := by
    cases h with
    | drain start stop drained _ call | resend now packet _ call | poll elapsed events _ call =>
      obtain ⟨_, -, hpure⟩ := bind_eq_ok.mp call
      cases hpure
      rfl
    | sent packet now _ call =>
      obtain ⟨_, -, hpure⟩ := bind_eq_ok.mp call
      cases hpure
      rfl

theorem admits_greets {server next : Server} {packet : Packet Received ConnectionRequest}
    {packetId : PacketId} {time : Duration} (h : ServerAdmits server packet packetId time next) :
    (∀ service : ServerScheduler, { next.scheduler with service := service } =
      { server.scheduler with service := service }) ∧
    ∃ entry, HandshakeQueue.greetings next = HandshakeQueue.greetings server ++ [entry] ∧
      entry.packetId = packetId := by
  cases h with
  | again connectionId peer asking found =>
    simp only [Server.acceptConnection, Finmap.lookup_insert]
    exact ⟨fun _ => trivial, _, List.map_append, rfl⟩
  | registered tracker unknown counted => exact ⟨fun _ => rfl, _, List.map_append, rfl⟩

theorem ServerHears.scheduler {server next : Server} {header : Header}
    (h : ServerHears server header next) : next.scheduler = server.scheduler := by
  cases h with
  | connected peer found reassembler events delivers => rfl
  | awaiting peer unconnected found time reassembler events delivers => rfl

theorem stamps_serverReceived {protocol next : Protocol Server} {raw : RawPacket} {now : Duration}
    {result : Result Unit} (h : protocol.serverReceived crc32 hash raw now = .ok (result, next)) :
    Stamps protocol next ((fun () => none) <$> result) (∃ packet,
      raw.decode crc32 DecodedForServer.tryFrom now = .ok (.ok (.connectionRequest packet)) ∧
        protocol.service.unexpectedConnection packet.delivery.metadata.address = .ok ()) := by
  obtain ⟨⟨answered, server⟩, hreceived, h⟩ := bind_eq_ok.mp h
  -- Where nothing is queued the flag is not raised, and the tracker stays.
  have hquiet : ∀ {queues : Prop}, server.scheduler = protocol.service.scheduler →
      answered ≠ .ok true → ¬queues → Stamps protocol next ((fun () => none) <$> result) queues := by
    intro queues hscheduler hflag hqueues
    have hgreetings : HandshakeQueue.greetings server = HandshakeQueue.greetings protocol.service :=
      LawfulGreetings.congr _ _ (congrArg Scheduler.service hscheduler)
    rcases answered with error | updatePacketId
    · cases h
      exact .of_kept hscheduler hgreetings le_rfl (no_id _) hqueues
    · cases updatePacketId with
      | true => exact absurd rfl hflag
      | false =>
        cases h
        exact .of_kept hscheduler hgreetings le_rfl (no_id _) hqueues
  rcases server_onReceived_decides hreceived with
    ⟨rfl, hflag, hrefused⟩ | ⟨decoded, header, hdecode, hheader, rfl, hhears⟩ |
      ⟨packet, hdecode, hexpected, rfl, hadmits⟩
  · exact hquiet rfl hflag fun ⟨packet, hasked, hexpected⟩ => hrefused packet hasked hexpected
  · refine hquiet hhears.scheduler (by simp) ?_
    rintro ⟨packet, hasked, -⟩
    cases hdecode.symm.trans hasked
    contradiction
  · obtain ⟨tracker, htracker, h⟩ := bind_eq_ok.mp h
    cases h
    obtain ⟨hsix, entry, hgreetings, hid⟩ := admits_greets hadmits
    exact .of_greeting hsix hgreetings hid htracker (no_id _) ⟨packet, hdecode, hexpected⟩

instance : LawfulRole Server ServerScheduler ServerReliabilityHandler ServerEvent ServerOwn where
  run_stamps crc32 hash protocol call result next h := by
    cases call with
    | received raw now => exact stamps_serverReceived h
  between_keeps _ _ h := by
    cases h with
    | drain start stop drained _ call | retry now packet _ call =>
      obtain ⟨_, -, hpure⟩ := bind_eq_ok.mp call
      cases hpure
      rfl
    | sent packet now _ call =>
      obtain ⟨_, -, hpure⟩ := bind_eq_ok.mp call
      cases hpure
      rfl
    | poll hash peerHash elapsed now events _ call =>
      obtain ⟨_, -, hwalk⟩ := bind_eq_ok.mp call
      obtain ⟨_, -, hpure⟩ := bind_eq_ok.mp hwalk
      cases hpure
      rfl

end Roles

section Logs

variable {S A B E Own : Type} [Service S A B E] [HandshakeQueue S] [Role S Own]

structure CallRecord (S Own : Type) where
  before : Protocol S
  call : Call Own
  answer : Answer
  after : Protocol S

def CallRecord.queued (record : CallRecord S Own) : List QueueEntry :=
  newlyQueued record.before record.after

structure CallLog (S Own : Type) where
  protocol : Protocol S
  records : List (CallRecord S Own)

inductive CallStep (crc32 : Crc32) (log : CallLog S Own) : CallLog S Own → Prop where
  | call (hash : RandomState) (call : Call Own) (answer : Answer) (after : Protocol S)
      (returned : call.run crc32 hash log.protocol = .ok (answer, after)) :
      CallStep crc32 log ⟨after, log.records ++ [⟨log.protocol, call, answer, after⟩]⟩
  | between (after : Protocol S) (between : Between log.protocol after) :
      CallStep crc32 log ⟨after, log.records⟩

/-- Any run of calls, from any state of a protocol. -/
def callLogs (crc32 : Crc32) : Machine (CallLog S Own) where
  init log := log.records = []
  step := CallStep crc32

/-- Every record is of a call that was made, and they are in the order of their ids. -/
structure CallLog.Ordered (crc32 : Crc32) (log : CallLog S Own) : Prop where
  returned : ∀ record ∈ log.records, ∃ hash,
    record.call.run crc32 hash record.before = .ok (record.answer, record.after)
  past : ∀ record ∈ log.records,
    record.after.packetIdTracker.toNat ≤ log.protocol.packetIdTracker.toNat
  ordered : log.records.Pairwise fun earlier later =>
    earlier.after.packetIdTracker.toNat ≤ later.before.packetIdTracker.toNat

variable [LawfulGreetings S A B E] [LawfulRole S A B E Own] {crc32 : Crc32}
  {log next : CallLog S Own}

theorem CallLog.Ordered.step (h : log.Ordered crc32) (hstep : CallStep crc32 log next) :
    next.Ordered crc32 := by
  cases hstep with
  | call hash call answer after returned =>
    have hgrows := (stamps_run returned).grows
    constructor
    · intro record hmem
      rcases List.mem_append.mp hmem with hmem | hmem
      · exact h.returned record hmem
      · rw [List.mem_singleton.mp hmem]
        exact ⟨hash, returned⟩
    · intro record hmem
      rcases List.mem_append.mp hmem with hmem | hmem
      · exact (h.past record hmem).trans hgrows
      · rw [List.mem_singleton.mp hmem]
    · rw [List.pairwise_append]
      refine ⟨h.ordered, List.pairwise_singleton _ _, ?_⟩
      intro earlier hmem later hlater
      rw [List.mem_singleton.mp hlater]
      exact h.past earlier hmem
  | between after between =>
    have htracker := between_packetIdTracker between
    exact ⟨h.returned, fun record hmem => by rw [htracker]; exact h.past record hmem, h.ordered⟩

theorem ordered_of_reachable (h : (callLogs crc32).Reachable log) : log.Ordered crc32 := by
  apply h.invariant (CallLog.Ordered crc32)
  · intro start hstart
    have hnone : start.records = [] := hstart
    exact ⟨by simp [hnone], by simp [hnone], by simp [hnone]⟩
  · intro state next _ hordered hstep
    exact hordered.step hstep

theorem CallLog.Ordered.stamps (h : log.Ordered crc32) {i : Nat} {record : CallRecord S Own}
    (hrecord : log.records[i]? = some record) :
    Stamps record.before record.after record.answer (record.call.Queues crc32 record.before) := by
  obtain ⟨hash, hreturned⟩ := h.returned record (List.mem_of_getElem? hrecord)
  exact stamps_run hreturned

omit [HandshakeQueue S] [LawfulGreetings S A B E] [LawfulRole S A B E Own] in
theorem CallLog.Ordered.le (h : log.Ordered crc32) {i j : Nat} {earlier later : CallRecord S Own}
    (hearlier : log.records[i]? = some earlier) (hlater : log.records[j]? = some later)
    (hlt : i < j) :
    earlier.after.packetIdTracker.toNat ≤ later.before.packetIdTracker.toNat := by
  obtain ⟨hi, rfl⟩ := List.getElem?_eq_some_iff.mp hearlier
  obtain ⟨hj, rfl⟩ := List.getElem?_eq_some_iff.mp hlater
  exact List.pairwise_iff_getElem.mp h.ordered i j hi hj hlt

/-- Two entries have one packet id just where one call has queued them both. -/
def IdentifyCalls (records : List (CallRecord S Own)) : Prop :=
  ∀ (i j : Nat) (first second : CallRecord S Own), records[i]? = some first →
    records[j]? = some second → ∀ entry ∈ first.queued, ∀ other ∈ second.queued,
      (entry.packetId = other.packetId ↔ i = j)

theorem CallLog.Ordered.id_lt (h : log.Ordered crc32) {i j : Nat}
    {earlier later : CallRecord S Own} (hearlier : log.records[i]? = some earlier)
    (hlater : log.records[j]? = some later) (hlt : i < j) {entry other : QueueEntry}
    (hentry : entry ∈ earlier.queued) (hother : other ∈ later.queued) :
    entry.packetId.toNat < other.packetId.toNat := by
  have hstamps := h.stamps hearlier
  have hcounts := hstamps.counts (hstamps.queues_iff.mp (List.ne_nil_of_mem hentry))
  have hle := h.le hearlier hlater hlt
  rw [hstamps.ids entry hentry, (h.stamps hlater).ids other hother]
  omega

theorem CallLog.Ordered.identifyCalls (h : log.Ordered crc32) : IdentifyCalls log.records := by
  intro i j first second hfirst hsecond entry hentry other hother
  constructor
  · intro hsame
    by_contra hne
    rcases Nat.lt_or_gt_of_ne hne with hlt | hlt
    · exact absurd (congrArg UInt64.toNat hsame) (h.id_lt hfirst hsecond hlt hentry hother).ne
    · exact absurd (congrArg UInt64.toNat hsame) (h.id_lt hsecond hfirst hlt hother hentry).ne'
  · rintro rfl
    cases hfirst.symm.trans hsecond
    have hids := (h.stamps hfirst).ids
    exact (hids entry hentry).trans (hids other hother).symm

/-- The id names what the call has queued, and nothing that another call has. -/
def NamesQueued (records : List (CallRecord S Own)) (i : Nat) (id : PacketId) : Prop :=
  (∀ record, records[i]? = some record → ∀ entry ∈ record.queued, entry.packetId = id) ∧
    ∀ j other, j ≠ i → records[j]? = some other → ∀ entry ∈ other.queued, entry.packetId ≠ id

/-- The call had nothing to send, and no call that was made while the packet id tracker
stood at its id had something to queue. -/
def NothingNamed (crc32 : Crc32) (records : List (CallRecord S Own)) (i : Nat) (id : PacketId) :
    Prop :=
  (∃ record, records[i]? = some record ∧
    ∃ reliability sendTo now, record.call = .schedule reliability sendTo [] now) ∧
  ∀ j other, i < j → records[j]? = some other → other.before.packetIdTracker = id →
    ¬other.call.Queues crc32 other.before

omit [HandshakeQueue S] [LawfulGreetings S A B E] [LawfulRole S A B E Own] in
/-- A call that returns an id has queued something, unless it had nothing to send. -/
theorem queues_of_answered {call : Call Own} {hash : RandomState} {before after : Protocol S}
    {id : PacketId} (h : call.run crc32 hash before = .ok (.ok (some id), after)) :
    call.Queues crc32 before ∨
      ∃ reliability sendTo now, call = .schedule reliability sendTo [] now := by
  cases call with
  | schedule reliability sendTo payload now =>
    obtain ⟨⟨result, _⟩, hcall, hpure⟩ := bind_eq_ok.mp h
    by_cases hpayload : payload = []
    · exact .inr ⟨reliability, sendTo, now, by rw [hpayload]⟩
    · rcases schedule_cases hcall with
        ⟨error, rfl, -⟩ | ⟨targets, tracker, hconnected, htargets, -, -, -⟩
      · cases hpure
      · have hfound := htargets.resolve_left (mt numberedChunks_eq_nil.mp hpayload)
        exact .inl ⟨hconnected, not_namesStranger_of_ok hfound, hpayload⟩
  | heartbeat reliability sendTo now =>
    obtain ⟨⟨result, _⟩, hcall, hpure⟩ := bind_eq_ok.mp h
    rcases heartbeat_cases hcall with ⟨error, rfl, -⟩ | ⟨targets, tracker, hconnected, htargets, -⟩
    · cases hpure
    · exact .inl ⟨hconnected, not_namesStranger_of_ok htargets⟩
  | own call =>
    obtain ⟨⟨result, _⟩, -, hpure⟩ := bind_eq_ok.mp h
    exact absurd (congrArg Prod.fst (Except.ok.inj hpure)) (no_id result id)

omit [HandshakeQueue S] [LawfulGreetings S A B E] [LawfulRole S A B E Own] in
theorem not_queues_nil {reliability : ReliabilityType} {sendTo : SendTo} {now : Duration}
    {protocol : Protocol S} :
    ¬(Call.schedule reliability sendTo [] now : Call Own).Queues crc32 protocol :=
  fun h => h.2.2 rfl

/-- The id that a call returns is past every id that it or an earlier call has used. -/
theorem CallLog.Ordered.names_iff (h : log.Ordered crc32) {i : Nat} {record : CallRecord S Own}
    {id : PacketId} (hrecord : log.records[i]? = some record)
    (hanswer : record.answer = .ok (some id)) :
    NamesQueued log.records i id ↔ NothingNamed crc32 log.records i id := by
  have hstamps := h.stamps hrecord
  have hid := hstamps.answers id hanswer
  obtain ⟨hash, hreturned⟩ := h.returned record (List.mem_of_getElem? hrecord)
  rw [hanswer] at hreturned
  constructor
  · rintro ⟨hown, hothers⟩
    constructor
    · refine ⟨record, hrecord, (queues_of_answered hreturned).resolve_left fun hqueues => ?_⟩
      obtain ⟨entry, hentry⟩ := List.exists_mem_of_ne_nil _ (hstamps.queues_iff.mpr hqueues)
      have hsame := (hown record hrecord entry hentry).symm.trans (hstamps.ids entry hentry)
      rw [hsame] at hid
      omega
    · intro j other hlt hother htracker hqueues
      have hstamped := h.stamps hother
      obtain ⟨entry, hentry⟩ := List.exists_mem_of_ne_nil _ (hstamped.queues_iff.mpr hqueues)
      exact hothers j other hlt.ne' hother entry hentry
        ((hstamped.ids entry hentry).trans htracker)
  · rintro ⟨⟨_, hcalled, reliability, sendTo, now, hcall⟩, hlater⟩
    cases hcalled.symm.trans hrecord
    constructor
    · intro _ hagain entry hentry
      cases hagain.symm.trans hrecord
      have hqueues := hstamps.queues_iff.mp (List.ne_nil_of_mem hentry)
      rw [hcall] at hqueues
      exact absurd hqueues not_queues_nil
    · intro j other hne hother entry hentry hsame
      have hstamped := h.stamps hother
      have htracker := (hstamped.ids entry hentry).symm.trans hsame
      rcases Nat.lt_or_gt_of_ne hne with hlt | hlt
      · have hle := h.le hother hrecord hlt
        have hgrows := hstamped.grows
        rw [htracker] at hgrows
        omega
      · exact hlater j other hlt hother htracker
          (hstamped.queues_iff.mp (List.ne_nil_of_mem hentry))

end Logs

/-- Packet ids identify calls, of either role. -/
theorem packet_ids_identify_calls (crc32 : Crc32) :
    (∀ log : CallLog Server ServerOwn, (callLogs crc32).Reachable log →
      IdentifyCalls log.records) ∧
    ∀ log : CallLog Client ClientOwn, (callLogs crc32).Reachable log →
      IdentifyCalls log.records :=
  ⟨fun _ h => (ordered_of_reachable h).identifyCalls,
    fun _ h => (ordered_of_reachable h).identifyCalls⟩

/-- The returned id names what was queued exactly where there is nothing of that id. -/
theorem returned_id_names_iff (crc32 : Crc32) :
    (∀ log : CallLog Server ServerOwn, (callLogs crc32).Reachable log →
      ∀ i record id, log.records[i]? = some record → record.answer = .ok (some id) →
        (NamesQueued log.records i id ↔ NothingNamed crc32 log.records i id)) ∧
    ∀ log : CallLog Client ClientOwn, (callLogs crc32).Reachable log →
      ∀ i record id, log.records[i]? = some record → record.answer = .ok (some id) →
        (NamesQueued log.records i id ↔ NothingNamed crc32 log.records i id) :=
  ⟨fun _ h _ _ _ hrecord hanswer => (ordered_of_reachable h).names_iff hrecord hanswer,
    fun _ h _ _ _ hrecord hanswer => (ordered_of_reachable h).names_iff hrecord hanswer⟩

def beatenClient : Protocol Client :=
  beatenFor connectedRun.net.antarc .reliable [(.one, .v4 0 0)] .zero 2

def twiceBeatenClient : Protocol Client :=
  beatenFor beatenClient .reliable [(.one, .v4 0 0)] .zero 3

def beatLog : CallLog Client ClientOwn where
  protocol := twiceBeatenClient
  records := [⟨connectedRun.net.antarc, .heartbeat .reliable .broadcast .zero, .ok (some 2),
    beatenClient⟩, ⟨beatenClient, .heartbeat .reliable .broadcast .zero, .ok (some 3),
    twiceBeatenClient⟩]

theorem beatLog_reachable : (callLogs ieeeCrc32).Reachable beatLog := by
  have hbeat : ∀ protocol : Protocol Client,
      protocol.core.connected = connectedRun.net.antarc.core.connected →
      protocol.heartbeat (Classical.arbitrary RandomState) .reliable .broadcast .zero =
        (addU64 protocol.packetIdTracker 1 >>= fun packetId =>
          pure (.ok packetId, beatenFor protocol .reliable [(.one, .v4 0 0)] .zero packetId)) := by
    intro protocol hconnected
    have htargets : protocol.core.targets (Classical.arbitrary RandomState) .broadcast =
        .ok [(.one, .v4 0 0)] := targets_one hconnected (.inr rfl)
    exact heartbeat_counts (by rw [hconnected]; rfl) htargets
  have hfirst : (Call.heartbeat .reliable .broadcast .zero : Call ClientOwn).run ieeeCrc32
      (Classical.arbitrary RandomState) connectedRun.net.antarc =
        .ok (.ok (some 2), beatenClient) := by
    rw [Call.run, hbeat _ rfl]
    rfl
  have hsecond : (Call.heartbeat .reliable .broadcast .zero : Call ClientOwn).run ieeeCrc32
      (Classical.arbitrary RandomState) beatenClient = .ok (.ok (some 3), twiceBeatenClient) := by
    rw [Call.run, hbeat beatenClient rfl]
    rfl
  have hstart : (callLogs ieeeCrc32).Reachable (⟨connectedRun.net.antarc, []⟩ :
      CallLog Client ClientOwn) := .start rfl
  exact (hstart.next (.call _ _ _ _ hfirst)).next (.call _ _ _ _ hsecond)

theorem beatLog_queued : beatLog.records.map CallRecord.queued =
    [[⟨1, .v4 0 0, .heartbeat (.new .one)⟩], [⟨2, .v4 0 0, .heartbeat (.new .one)⟩]] :=
  rfl

theorem heartbeats_identified : IdentifyCalls beatLog.records :=
  (packet_ids_identify_calls ieeeCrc32).2 beatLog beatLog_reachable

/-- The id that the first heartbeat returns is on the packet of the second. -/
theorem heartbeat_id_names_next : (clientRuns ieeeCrc32).Reachable connectedRun ∧
    (callLogs ieeeCrc32).Reachable beatLog ∧
    beatLog.records[0]?.map CallRecord.answer = some (.ok (some 2)) ∧
    beatLog.records.map CallRecord.queued =
      [[⟨1, .v4 0 0, .heartbeat (.new .one)⟩], [⟨2, .v4 0 0, .heartbeat (.new .one)⟩]] ∧
    ¬NamesQueued beatLog.records 0 2 := by
  refine ⟨connectedRun_reachable, beatLog_reachable, rfl, beatLog_queued, ?_⟩
  rintro ⟨hown, -⟩
  cases hown _ rfl _ List.mem_cons_self

/-- A call with nothing to send uses an id up, and nothing is named by the next. -/
theorem empty_schedule_names_nothing : ∃ log : CallLog Client ClientOwn,
    (callLogs ieeeCrc32).Reachable log ∧
      log.records.map CallRecord.answer = [.ok (some 2)] ∧ NamesQueued log.records 0 2 := by
  have hnone : numberedChunks [] = [] ∨ connectedRun.net.antarc.core.targets
    (Classical.arbitrary RandomState) .broadcast = .ok [] := .inl rfl
  have hreturned : (Call.schedule .reliable .broadcast [] .zero : Call ClientOwn).run ieeeCrc32
      (Classical.arbitrary RandomState) connectedRun.net.antarc = .ok (.ok (some 2),
        queuedFor connectedRun.net.antarc .reliable [] [] .zero 2) := by
    rw [Call.run, schedule_counts rfl hnone]
    rfl
  have hstart : (callLogs ieeeCrc32).Reachable (⟨connectedRun.net.antarc, []⟩ :
      CallLog Client ClientOwn) := .start rfl
  have hreachable := hstart.next (.call _ _ _ _ hreturned)
  refine ⟨_, hreachable, rfl,
    ((returned_id_names_iff ieeeCrc32).2 _ hreachable 0 _ 2 rfl rfl).mpr
      ⟨⟨_, rfl, _, _, _, rfl⟩, ?_⟩⟩
  intro j other hlt hother
  have hlast := (List.getElem?_eq_some_iff.mp hother).1
  exact absurd hlast (by simp; omega)

end Antarc.Properties
