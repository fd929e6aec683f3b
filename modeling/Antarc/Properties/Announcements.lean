import Antarc.Properties.Assemblies
import Antarc.Properties.Connections

/-! Whether a connection is announced to the application. There are events that say so, of
either role, and applications wait for them; but no call pushes one, whichever way a peer
is connected or registered. -/
namespace Antarc.Properties

open Library

section Diaries

/-- What a call is where it may bring a peer in: a datagram is received, or a packet to an
address is accounted as sent. -/
inductive Act where
  | received (raw : RawPacket) (now : Duration)
  | sent (address : SocketAddr)
  | other

/-- How a role names its peers in the event of a connection, and when one is new. -/
class Announcing (S : Type) (E N : outParam Type) where
  named : E → N
  enters : S → S → N → Bool

def announcement (S : Type) {E N : Type} [Announcing S E N] : ProtocolEvent E → Option N
  | .serviceEvent event => some (Announcing.named S event)
  | _ => none

/-- A peer is connected under an id where there was none, or another. -/
instance : Announcing Client ClientEvent ConnectionId where
  named | .connectionAccepted connectionId => connectionId
  enters client next id :=
    (connectedAs next id).isSome && decide (connectedAs next id ≠ connectedAs client id)

/-- A peer is registered at an address, by the server's own search. -/
instance : Announcing Server ServerEvent SocketAddr where
  named | .connectionRequest _ remote => remote
  enters server next address :=
    next.connectionRequestAnotherState address && !server.connectionRequestAnotherState address

/-- A protocol with the calls it took and the service each found, the events that were ever
pushed, and how often a peer has entered under each name. -/
structure Diary (S E N : Type) where
  protocol : Protocol S
  acts : List (S × Act)
  pushed : List (ProtocolEvent E)
  entered : N → Nat

variable {S A B E N : Type} [Service S A B E] [Announcing S E N]

def Diary.new (protocol : Protocol S) : Diary S E N :=
  ⟨protocol, [], [], fun _ => 0⟩

def Diary.after (diary : Diary S E N) (act : Act) (next : Protocol S) : Diary S E N where
  protocol := next
  acts := diary.acts ++ [(diary.protocol.service, act)]
  pushed := diary.pushed ++ next.core.api.drop diary.protocol.core.api.length
  entered name := diary.entered name +
    (Announcing.enters diary.protocol.service next.service name).toNat

/-- There is one event for every peer that has entered. -/
def Diary.AnnouncedOnce [DecidableEq N] (diary : Diary S E N) : Prop :=
  ∀ name, (diary.pushed.filterMap (announcement S)).count name = diary.entered name

/-- No event of a connection was pushed, and no peer has entered but by one of the acts
that bring one in. -/
structure Diary.Silent (brings : S → Act → Prop) (diary : Diary S E N) : Prop where
  silent : diary.pushed.filterMap (announcement S) = []
  entered_iff : (∀ name, diary.entered name = 0) ↔ ∀ entry ∈ diary.acts, ¬brings entry.1 entry.2

structure Effect (protocol next : Protocol S) (brings : Prop) : Prop where
  quiet : (next.core.api.drop protocol.core.api.length).filterMap (announcement S) = []
  enters_iff : (∃ name, Announcing.enters protocol.service next.service name = true) ↔ brings

variable {brings : S → Act → Prop} {diary : Diary S E N} {act : Act} {next : Protocol S}

theorem silent_new (protocol : Protocol S) : (Diary.new protocol : Diary S E N).Silent brings where
  silent := rfl
  entered_iff := ⟨fun _ entry hmem => by contradiction, fun _ _ => rfl⟩

theorem Diary.Silent.after (h : diary.Silent brings)
    (heffect : Effect diary.protocol next (brings diary.protocol.service act)) :
    (diary.after act next).Silent brings where
  silent := by
    change (diary.pushed ++ _).filterMap _ = []
    rw [List.filterMap_append, h.silent, heffect.quiet]
    rfl
  entered_iff := by
    have hnone : (∀ name, (diary.after act next).entered name = 0) ↔
        (∀ name, diary.entered name = 0) ∧
          ¬∃ name, Announcing.enters diary.protocol.service next.service name = true := by
      simp [Diary.after, Nat.add_eq_zero_iff, forall_and]
    rw [hnone, h.entered_iff, heffect.enters_iff]
    simp [Diary.after, or_imp, forall_and]

theorem Diary.Silent.announcedOnce_iff [DecidableEq N] (h : diary.Silent brings) :
    diary.AnnouncedOnce ↔ ∀ entry ∈ diary.acts, ¬brings entry.1 entry.2 := by
  rw [← h.entered_iff]
  simp only [Diary.AnnouncedOnce, h.silent, List.count_nil, eq_comm]

end Diaries

section Calls

variable {S A B E N : Type} [Service S A B E] {protocol next : Protocol S} {act : Act}

structure Still (service next : S) : Prop where
  frame : ∃ core, next = Service.setCore service core
  identities : ∀ id, ((Service.core next).connected.lookup id).map identity =
    ((Service.core service).connected.lookup id).map identity
  api : (Service.core next).api = (Service.core service).api

theorem still_setCore {service : S} {core : ServiceCore A B E}
    (hidentities : ∀ id, (core.connected.lookup id).map identity =
      ((Service.core service).connected.lookup id).map identity)
    (hapi : core.api = (Service.core service).api) :
    Still service (Service.setCore service core) where
  frame := ⟨core, rfl⟩
  identities := by
    rw [Service.core_setCore]
    exact hidentities
  api := by rw [Service.core_setCore, hapi]

/-- The calls that both roles have. The packet that is accounted may be any. -/
inductive CommonAct (protocol : Protocol S) : Act → Protocol S → Prop where
  | schedule (hash : RandomState) (reliability : ReliabilityType) (sendTo : SendTo)
      (payload : Payload) (now : Duration) (result : Result PacketId) (next : Protocol S)
      (call : protocol.schedule hash reliability sendTo payload now = .ok (result, next)) :
      CommonAct protocol .other next
  | heartbeat (hash : RandomState) (reliability : ReliabilityType) (sendTo : SendTo)
      (now : Duration) (result : Result PacketId) (next : Protocol S)
      (call : protocol.heartbeat hash reliability sendTo now = .ok (result, next)) :
      CommonAct protocol .other next
  | drain (R M : Type) [Queued R M] (start stop : Nat) (drained : List (Scheduled R M))
      (next : Protocol S) (call : protocol.drain R M start stop = .ok (drained, next)) :
      CommonAct protocol .other next
  | sent (M : Type) [Carried M] (packet : Packet ToSend M) (reliability : ReliabilityType)
      (now : Duration) (next : Protocol S)
      (call : protocol.sent packet reliability now = .ok next) :
      CommonAct protocol (.sent packet.delivery.metadata.address) next
  | retry (M : Type) [Carried M] (now : Duration) (packet : Option (Packet ToSend M))
      (next : Protocol S) (call : protocol.retry M now = .ok (packet, next)) :
      CommonAct protocol .other next

theorem still_sent {M : Type} [Carried M] {packet : Packet ToSend M}
    {reliability : ReliabilityType} {now : Duration}
    (h : protocol.sent packet reliability now = .ok next) :
    Still (Service.promoteAwaiting protocol.service packet.delivery.metadata.address
      (Carried.connectionId packet.message) now) next.service := by
  obtain ⟨completes, core, -, hcore, rfl⟩ := sent_frame h
  cases completes with
  | false =>
    cases hcore
    exact still_setCore (fun _ => rfl) rfl
  | true =>
    rcases advanceConnected_cases hcore with ⟨-, rfl⟩ | ⟨peer, advanced, hfound, hadvanced, rfl⟩
    · exact still_setCore (fun _ => rfl) rfl
    · obtain ⟨sequence, -, rfl⟩ := advance_eq_ok.mp hadvanced
      exact still_setCore (fun id =>
        map_lookup_insert identity { peer with sequenceTracker := sequence } hfound rfl id) rfl

theorem CommonAct.still (h : CommonAct protocol act next) :
    (act = .other ∧ Still protocol.service next.service) ∨
      ∃ address id now, act = .sent address ∧
        Still (Service.promoteAwaiting protocol.service address id now) next.service := by
  cases h with
  | schedule hash reliability sendTo payload now result _ call =>
    rcases schedule_cases call with ⟨_, -, rfl⟩ | ⟨_, _, -, -, -, -, rfl⟩
    · exact .inl ⟨rfl, ⟨_, (Service.setCore_core _).symm⟩, fun _ => rfl, rfl⟩
    · exact .inl ⟨rfl, still_setCore (fun _ => rfl) rfl⟩
  | heartbeat hash reliability sendTo now result _ call =>
    rcases heartbeat_cases call with ⟨_, -, rfl⟩ | ⟨_, _, -, -, -, -, rfl⟩
    · exact .inl ⟨rfl, ⟨_, (Service.setCore_core _).symm⟩, fun _ => rfl, rfl⟩
    · exact .inl ⟨rfl, still_setCore (fun _ => rfl) rfl⟩
  | drain R M start stop drained _ call =>
    obtain ⟨queue, rfl⟩ := drain_frame call
    exact .inl ⟨rfl, still_setCore (fun _ => rfl) rfl⟩
  | sent M packet reliability now _ call => exact .inr ⟨_, _, now, rfl, still_sent call⟩
  | retry M now packet _ call =>
    obtain ⟨handler, -, rfl⟩ := retry_frame call
    exact .inl ⟨rfl, still_setCore (fun _ => rfl) rfl⟩

theorem delivers_silent [Announcing S E N] {header : Header} {events : List (ProtocolEvent E)}
    (h : Delivers header events) : events.filterMap (announcement S) = [] := by
  refine List.filterMap_eq_nil_iff.mpr fun event hmem => ?_
  obtain ⟨payload, rfl⟩ := h event hmem
  rfl

theorem quiet_of_api [Announcing S E N] {events : List (ProtocolEvent E)}
    (hapi : next.core.api = protocol.core.api ++ events)
    (hevents : events.filterMap (announcement S) = []) :
    (next.core.api.drop protocol.core.api.length).filterMap (announcement S) = [] := by
  rw [hapi, List.drop_left, hevents]

end Calls

section Client

variable {crc32 : Crc32} {asked pending : List SocketAddr} {client : Client}
  {protocol next : Protocol Client} {act : Act}

inductive ClientActs (crc32 : Crc32) (protocol : Protocol Client) :
    Act → Protocol Client → Prop where
  | common {act : Act} {next : Protocol Client} (call : CommonAct protocol act next) :
      ClientActs crc32 protocol act next
  | connect (address : SocketAddr) (now : Duration) (result : Result Unit) (next : Protocol Client)
      (call : protocol.connect address now = .ok (result, next)) :
      ClientActs crc32 protocol .other next
  | received (raw : RawPacket) (now : Duration) (result : Result Unit) (next : Protocol Client)
      (call : protocol.clientReceived crc32 raw now = .ok (result, next)) :
      ClientActs crc32 protocol (.received raw now) next
  | drainConnectionRequest (start stop : Nat)
      (drained : List (Scheduled Reliable ConnectionRequest)) (next : Protocol Client)
      (call : protocol.drainConnectionRequest start stop = .ok (drained, next)) :
      ClientActs crc32 protocol .other next
  | sentConnectionRequest (packet : Packet ToSend ConnectionRequest) (now : Duration)
      (next : Protocol Client) (call : protocol.sentConnectionRequest packet now = .ok next) :
      ClientActs crc32 protocol .other next
  | resendConnectionRequest (now : Duration) (packet : Option (Packet ToSend ConnectionRequest))
      (next : Protocol Client)
      (call : protocol.resendReliableConnectionRequest now = .ok (packet, next)) :
      ClientActs crc32 protocol .other next
  | poll (elapsed : Duration) (events : List (ProtocolEvent ClientEvent)) (next : Protocol Client)
      (call : protocol.clientPoll elapsed = .ok (events, next)) :
      ClientActs crc32 protocol .other next

/-- A peer that awaits the accept is connected by a packet that is taken to be from it, under
an id that is not connected yet, and by one to its address that is accounted as sent. -/
def clientBrings (crc32 : Crc32) (client : Client) : Act → Prop
  | .received raw now => ∃ decoded,
      raw.decode crc32 DecodedForClient.tryFrom now = .ok (.ok decoded) ∧
        connectedAs client (forClientHeader decoded).connectionId = none ∧
        addressee client decoded ≠ none
  | .sent address => address ∈ client.awaitingConnectionAck
  | .other => False

theorem client_enters_iff {next : Client} {id : ConnectionId} :
    Announcing.enters client next id = true ↔
      ∃ address, connectedAs next id = some address ∧ connectedAs client id ≠ some address := by
  change ((connectedAs next id).isSome && decide (connectedAs next id ≠ connectedAs client id)) =
    true ↔ _
  rw [Bool.and_eq_true, decide_eq_true_eq, Option.isSome_iff_exists]
  constructor
  · rintro ⟨⟨address, haddress⟩, hne⟩
    exact ⟨address, haddress, fun hsame => hne (haddress.trans hsame.symm)⟩
  · rintro ⟨address, haddress, hne⟩
    exact ⟨⟨address, haddress⟩, fun hsame => hne (hsame.symm.trans haddress)⟩

theorem nobody_enters_client {next : Client}
    (h : ∀ id, connectedAs next id = connectedAs client id) :
    ¬∃ id, Announcing.enters client next id = true := by
  rintro ⟨id, hid⟩
  obtain ⟨address, haddress, hne⟩ := client_enters_iff.mp hid
  exact hne ((h id).symm.trans haddress)

theorem ClientTable.of_lost (table : ClientTable asked pending client) (id : ConnectionId) :
    ∃ asked, ClientTable asked pending { client with connected := client.connected.erase id } := by
  have hat : ∀ other address,
      ConnectedAt { client with connected := client.connected.erase id } other address ↔
        other ≠ id ∧ ConnectedAt client other address := by
    intro other address
    rw [connectedAt_iff, connectedAt_iff]
    change ((client.connected.erase id).lookup other).map Peer.address = some address ↔ _
    rw [lookup_erase_eq]
    split
    · next hsame => simp [hsame]
    · next hne => simp [hne, Service.core]
  refine ⟨asked.filter fun address => connectedAs client id ≠ some address,
    table.ownRequesting, table.ownAwaiting, ?_, table.disjoint, ?_, ?_, ?_, table.pending_nodup,
    table.pending_iff⟩
  · intro other peer hfound
    rw [lookup_erase_eq] at hfound
    split at hfound
    · contradiction
    · exact table.ownId other peer hfound
  · exact fun other address h => table.apart other address ((hat other address).mp h).2
  · exact fun first second address h h' =>
      table.single first second address ((hat first address).mp h).2 ((hat second address).mp h').2
  · intro address
    rw [List.mem_filter, table.asked_iff, decide_eq_true_eq]
    have hlost : connectedAs client id = some address ↔ ConnectedAt client id address :=
      (connectedAt_iff client id address).symm
    rw [ne_eq, hlost]
    simp only [hat]
    constructor
    · rintro ⟨hrequesting | hawaiting | ⟨other, hother⟩, hnot⟩
      · exact .inl hrequesting
      · exact .inr (.inl hawaiting)
      · refine .inr (.inr ⟨other, ?_, hother⟩)
        rintro rfl
        exact hnot hother
    · rintro (hrequesting | hawaiting | ⟨other, hne, hother⟩)
      · exact ⟨.inl hrequesting, fun h => (table.apart id address h).1 hrequesting⟩
      · exact ⟨.inr (.inl hawaiting), fun h => (table.apart id address h).2 hawaiting⟩
      · exact ⟨.inr (.inr ⟨other, hother⟩), fun h => hne (table.single other id address hother h)⟩

theorem ClientTable.of_promoted (table : ClientTable asked pending client) (address : SocketAddr)
    (id : ConnectionId) (time : Duration) :
    ∃ asked, ClientTable asked pending (client.promoteAwaiting address id time) := by
  unfold Client.promoteAwaiting
  split
  · next peer hfound =>
    obtain ⟨left, hleft⟩ := table.of_lost id
    have hinsert : (client.connected.erase id).insert id (peer.connected time id) =
        client.connected.insert id (peer.connected time id) := by
      refine Finmap.ext_lookup fun other => ?_
      simp only [lookup_insert_eq, lookup_erase_eq]
      split <;> rfl
    refine ⟨left, hleft.of_accepted hfound (Finmap.lookup_erase ..)
      (table.ownAwaiting address peer hfound) rfl rfl rfl hinsert.symm⟩
  · exact ⟨asked, table⟩

theorem promoted_enters (table : ClientTable asked pending client) (address : SocketAddr)
    (id : ConnectionId) (time : Duration) :
    (∃ name, Announcing.enters client (client.promoteAwaiting address id time) name = true) ↔
      address ∈ client.awaitingConnectionAck := by
  unfold Client.promoteAwaiting
  split
  · next peer hfound =>
    have hwaiting := Finmap.mem_of_lookup_eq_some hfound
    refine iff_of_true ⟨id, client_enters_iff.mpr ⟨address, ?_, ?_⟩⟩ hwaiting
    · rw [connectedAs, Finmap.lookup_insert]
      exact congrArg some (table.ownAwaiting address peer hfound)
    · intro hsame
      exact (table.apart id address ((connectedAt_iff ..).mpr hsame)).2 hwaiting
  · next hnone =>
    exact iff_of_false (nobody_enters_client fun _ => rfl) (Finmap.lookup_eq_none.mp hnone)

theorem Still.connectedAs {client next : Client} (h : Still client next) (id : ConnectionId) :
    connectedAs next id = connectedAs client id := by
  have haddress := congrArg (Option.map Prod.fst) (h.identities id)
  simp only [Option.map_map] at haddress
  exact haddress

theorem ClientHears.enters {next : Client} {header : Header} (h : ClientHears client header next) :
    (∃ name, Announcing.enters client next name = true) ↔
      Properties.connectedAs client header.connectionId = none := by
  cases h with
  | connected peer found reassembler events delivers =>
    refine iff_of_false (nobody_enters_client fun id => ?_) ?_
    · exact map_lookup_insert Peer.address (hearing peer header reassembler) found rfl id
    · rw [Properties.connectedAs, found]
      exact Option.some_ne_none _
  | awaiting peer unconnected found time events delivers =>
    have hnone : Properties.connectedAs client header.connectionId = none := by
      rw [Properties.connectedAs, unconnected]
      rfl
    refine iff_of_true ⟨header.connectionId, client_enters_iff.mpr ⟨peer.address, ?_, ?_⟩⟩ hnone
    · rw [Properties.connectedAs, Finmap.lookup_insert]
      rfl
    · rw [hnone]
      exact (Option.some_ne_none _).symm

theorem effect_of_still (h : Still protocol.service next.service) {brings : Prop}
    (hbrings : ¬brings) : Effect protocol next brings where
  quiet := quiet_of_api (h.api.trans (List.append_nil _).symm) rfl
  enters_iff := iff_of_false (nobody_enters_client h.connectedAs) hbrings

theorem ClientTable.of_still (table : ClientTable asked pending client) {next : Client}
    (h : Still client next) : ClientTable asked pending next := by
  obtain ⟨core, rfl⟩ := h.frame
  exact table.congr rfl rfl h.identities

theorem effect_of_kept (hapi : next.service.api = protocol.service.api)
    (hconnected : next.service.connected = protocol.service.connected) :
    Effect protocol next False where
  quiet := quiet_of_api (hapi.trans (List.append_nil _).symm) rfl
  enters_iff := by
    refine iff_of_false (nobody_enters_client fun name => ?_) id
    rw [connectedAs, hconnected]
    rfl

/-- What any call does to a client: its table stays in order, nothing is announced, and a peer
enters by the two kinds of act alone. -/
theorem ClientTable.acts (table : ClientTable asked pending protocol.service)
    (h : ClientActs crc32 protocol act next) :
    (∃ asked pending, ClientTable asked pending next.service) ∧
      Effect protocol next (clientBrings crc32 protocol.service act) := by
  cases h with
  | common call =>
    rcases call.still with ⟨rfl, hstill⟩ | ⟨address, id, now, rfl, hstill⟩
    · exact ⟨⟨_, _, table.of_still hstill⟩, effect_of_still hstill id⟩
    · obtain ⟨promoted, hpromoted⟩ := table.of_promoted address id now
      refine ⟨⟨_, _, hpromoted.of_still hstill⟩, ?_, ?_⟩
      · have hapi : (protocol.service.promoteAwaiting address id now).api =
            protocol.service.api := by
          unfold Client.promoteAwaiting
          split <;> rfl
        exact quiet_of_api ((hstill.api.trans hapi).trans (List.append_nil _).symm) rfl
      · rw [clientBrings, ← promoted_enters table address id now]
        simp only [client_enters_iff, hstill.connectedAs]
        rfl
  | connect address now result _ call =>
    rcases connect_cases call with ⟨_, -, rfl⟩ | ⟨tracker, hunknown, -, -, rfl⟩
    · exact ⟨⟨_, _, table⟩, effect_of_kept rfl rfl⟩
    · exact ⟨⟨_, _, table.of_connecting hunknown protocol.packetIdTracker now⟩,
        effect_of_kept rfl rfl⟩
  | received raw now result _ call =>
    obtain ⟨hreceived, hprotocol⟩ := clientReceived_onReceived call
    rcases client_onReceived_decides hreceived with
      ⟨hsame, hnone⟩ | ⟨decoded, address, hdecode, haddressee, -, hhears⟩
    · rw [hprotocol, hsame]
      refine ⟨⟨_, _, table⟩, effect_of_still ⟨⟨_, rfl⟩, fun _ => rfl, rfl⟩ ?_⟩
      rintro ⟨decoded, hdecode, -, hsome⟩
      exact hsome (hnone decoded hdecode)
    · refine ⟨⟨_, _, table.of_hears hhears⟩, ?_, ?_⟩
      · obtain ⟨events, hdelivers, hapi⟩ := hhears.api
        exact quiet_of_api hapi (delivers_silent hdelivers)
      · rw [hhears.enters]
        constructor
        · intro hfree
          exact ⟨decoded, hdecode, hfree, by simp [haddressee]⟩
        · rintro ⟨other, hother, hfree, -⟩
          cases hdecode.symm.trans hother
          exact hfree
  | drainConnectionRequest start stop drained _ call =>
    obtain ⟨_, -, rfl⟩ := drainConnectionRequest_frame call
    exact ⟨⟨_, _, table.congr rfl rfl fun _ => rfl⟩, effect_of_kept rfl rfl⟩
  | sentConnectionRequest packet now _ call =>
    have htable := table.of_sent call
    obtain ⟨peer, advanced, -, -, rfl⟩ := sentConnectionRequest_frame call
    exact ⟨⟨_, _, htable⟩, effect_of_kept rfl rfl⟩
  | resendConnectionRequest now packet _ call =>
    obtain ⟨_, -, rfl⟩ := resend_frame call
    exact ⟨⟨_, _, table.congr rfl rfl fun _ => rfl⟩, effect_of_kept rfl rfl⟩
  | poll elapsed events _ call =>
    obtain ⟨_, -, -, rfl⟩ := clientPoll_frame call
    refine ⟨⟨_, _, table.congr rfl rfl fun _ => rfl⟩, ?_, ?_⟩
    · exact congrArg (List.filterMap _) List.drop_nil
    · exact iff_of_false (nobody_enters_client fun _ => rfl) id

end Client

section Server

variable {crc32 : Crc32} {registry : Registry SocketAddr} {server : Server}
  {protocol next : Protocol Server} {act : Act}

inductive ServerActs (crc32 : Crc32) (protocol : Protocol Server) :
    Act → Protocol Server → Prop where
  | common {act : Act} {next : Protocol Server} (call : CommonAct protocol act next) :
      ServerActs crc32 protocol act next
  | received (hash : RandomState) (raw : RawPacket) (now : Duration) (result : Result Unit)
      (next : Protocol Server)
      (call : protocol.serverReceived crc32 hash raw now = .ok (result, next)) :
      ServerActs crc32 protocol (.received raw now) next
  | drainConnectionAccepted (start stop : Nat)
      (drained : List (Scheduled Reliable ConnectionAccepted)) (next : Protocol Server)
      (call : protocol.drainConnectionAccepted start stop = .ok (drained, next)) :
      ServerActs crc32 protocol .other next
  | sentConnectionAccepted (packet : Packet ToSend ConnectionAccepted) (now : Duration)
      (next : Protocol Server) (call : protocol.sentConnectionAccepted packet now = .ok next) :
      ServerActs crc32 protocol .other next
  | retryConnectionAccepted (now : Duration) (packet : Option (Packet ToSend ConnectionAccepted))
      (next : Protocol Server)
      (call : protocol.retryReliableConnectionAccepted now = .ok (packet, next)) :
      ServerActs crc32 protocol .other next
  | poll (hash : RandomState) (peerHash : ConnectionId → RandomState) (elapsed now : Duration)
      (events : List (ProtocolEvent ServerEvent)) (next : Protocol Server)
      (call : protocol.serverPoll hash peerHash elapsed now = .ok (events, next)) :
      ServerActs crc32 protocol .other next

/-- A new peer is registered by a request from an address that the server neither knows nor
has banned. -/
def serverBrings (crc32 : Crc32) (server : Server) : Act → Prop
  | .received raw now => ∃ packet,
      raw.decode crc32 DecodedForServer.tryFrom now = .ok (.ok (.connectionRequest packet)) ∧
        server.unexpectedConnection packet.delivery.metadata.address = .ok ()
  | .sent _ => False
  | .other => False

theorem server_enters_iff {next : Server} {address : SocketAddr} :
    Announcing.enters server next address = true ↔
      next.connectionRequestAnotherState address = true ∧
        server.connectionRequestAnotherState address = false := by
  change (next.connectionRequestAnotherState address &&
    !server.connectionRequestAnotherState address) = true ↔ _
  rw [Bool.and_eq_true, Bool.not_eq_true']

theorem ServerTable.anotherState_iff (table : ServerTable registry server) (address : SocketAddr) :
    server.connectionRequestAnotherState address = true ↔
      ∃ id : ConnectionId, registry.holder id.get.toNat = some address := by
  simp only [table.holder]
  constructor
  · intro h
    rw [Server.connectionRequestAnotherState, Bool.or_eq_true, anyValue_iff, anyValue_iff] at h
    rcases h with ⟨id, peer, hfound, haddress⟩ | ⟨id, peer, hfound, haddress⟩
    · exact ⟨id, by rw [table.addressOf_awaiting hfound, of_decide_eq_true haddress]⟩
    · exact ⟨id, by rw [ServerTable.addressOf_connected hfound, of_decide_eq_true haddress]⟩
  · rintro ⟨id, hat⟩
    exact known_of_addressOf hat

theorem nobody_enters_server {next : Server} (table : ServerTable registry server)
    (later : ServerTable registry next) :
    ¬∃ address, Announcing.enters server next address = true := by
  rintro ⟨address, haddress⟩
  obtain ⟨hknown, hunknown⟩ := server_enters_iff.mp haddress
  rw [(table.anotherState_iff address).mpr ((later.anotherState_iff address).mp hknown)] at hunknown
  contradiction

theorem Still.samePeers {server next : Server} (h : Still server next) : SamePeers server next := by
  obtain ⟨core, rfl⟩ := h.frame
  exact ⟨rfl, rfl, fun _ => rfl, h.identities⟩

theorem admitting_enters (table : ServerTable registry server)
    {packet : Packet Received ConnectionRequest} {packetId : PacketId} {time : Duration}
    {tracker : ConnectionId}
    (hunknown : server.connectionRequestAnotherState packet.delivery.metadata.address = false) :
    Announcing.enters server (admitting server packet packetId time tracker)
      packet.delivery.metadata.address = true := by
  obtain ⟨-, hunused⟩ := table.next_unused
  have hat : addressOf (admitting server packet packetId time tracker)
      server.connectionIdTracker = some packet.delivery.metadata.address := by
    rw [addressOf, show (admitting server packet packetId time tracker).connected =
      server.connected from rfl, hunused]
    change ((server.awaitingConnectionAck.insert server.connectionIdTracker _).lookup
      server.connectionIdTracker).map Peer.address = _
    rw [Finmap.lookup_insert]
    rfl
  exact server_enters_iff.mpr ⟨known_of_addressOf hat, hunknown⟩

theorem ServerTable.acts (table : ServerTable registry protocol.service)
    (h : ServerActs crc32 protocol act next) :
    (∃ registry, ServerTable registry next.service) ∧
      Effect protocol next (serverBrings crc32 protocol.service act) := by
  have hsame : SamePeers protocol.service next.service →
      (next.core.api.drop protocol.core.api.length).filterMap (announcement Server) = [] →
      (∃ registry, ServerTable registry next.service) ∧ Effect protocol next False :=
    fun hpeers hquiet => ⟨⟨registry, table.of_samePeers hpeers⟩, hquiet,
      iff_of_false (nobody_enters_server table (table.of_samePeers hpeers)) id⟩
  have hkept : next.service.api = protocol.service.api →
      (next.core.api.drop protocol.core.api.length).filterMap (announcement Server) = [] :=
    fun hapi => quiet_of_api (hapi.trans (List.append_nil _).symm) rfl
  cases h with
  | common call =>
    rcases call.still with ⟨rfl, hstill⟩ | ⟨address, id, now, rfl, hstill⟩
    · exact hsame hstill.samePeers (hkept hstill.api)
    · exact hsame hstill.samePeers (hkept hstill.api)
  | received hash raw now result _ call =>
    obtain ⟨answered, hreceived, -⟩ := serverReceived_onReceived call
    rcases server_onReceived_decides hreceived with ⟨hservice, -, hrefused⟩ |
      ⟨decoded, header, hdecode, hheader, -, hhears⟩ | ⟨packet, hdecode, hexpected, -, hadmits⟩
    · obtain ⟨htable, hquiet, henters⟩ := hsame (hservice ▸ .refl _) (hkept (by rw [hservice]))
      refine ⟨htable, hquiet, henters.trans (iff_of_false id ?_)⟩
      rintro ⟨packet, hasked, hexpected⟩
      exact hrefused packet hasked hexpected
    · have hlater := table.of_hears hhears
      obtain ⟨events, hdelivers, hapi⟩ := hhears.api
      refine ⟨⟨registry, hlater⟩, quiet_of_api hapi (delivers_silent hdelivers), ?_⟩
      refine iff_of_false (nobody_enters_server table hlater) ?_
      rintro ⟨packet, hasked, -⟩
      cases hdecode.symm.trans hasked
      contradiction
    · obtain ⟨later, -, hlater⟩ := table.of_admits hadmits
      generalize hnext : next.service = service at hadmits hlater
      cases hadmits with
      | again id peer asking found =>
        rw [table.requesting, Finmap.lookup_empty] at found
        contradiction
      | registered tracker unknown counted =>
        refine ⟨⟨later, hnext ▸ hlater⟩, hkept (by rw [hnext]; rfl), ?_⟩
        rw [hnext]
        exact iff_of_true ⟨_, admitting_enters table unknown⟩ ⟨packet, hdecode, hexpected⟩
  | drainConnectionAccepted start stop drained _ call =>
    refine hsame (samePeers_drainConnectionAccepted call) (hkept ?_)
    obtain ⟨_, -, rfl⟩ := drainConnectionAccepted_frame call
    rfl
  | sentConnectionAccepted packet now _ call =>
    refine hsame (samePeers_sentConnectionAccepted call) (hkept ?_)
    obtain ⟨_, -, rfl⟩ := sentConnectionAccepted_frame call
    rfl
  | retryConnectionAccepted now packet _ call =>
    refine hsame (samePeers_retryConnectionAccepted call) (hkept ?_)
    obtain ⟨_, -, rfl⟩ := retryConnectionAccepted_frame call
    rfl
  | poll hash peerHash elapsed now events _ call =>
    refine hsame (samePeers_poll call) ?_
    obtain ⟨_, _, -, -, -, rfl⟩ := serverPoll_frame call
    exact congrArg (List.filterMap _) List.drop_nil

end Server

section Runs

def clientDiaries (crc32 : Crc32) : Machine (Diary Client ClientEvent ConnectionId) where
  init diary := diary = .new .newClient
  step diary next := ∃ act protocol, ClientActs crc32 diary.protocol act protocol ∧
    next = diary.after act protocol

def serverDiaries (crc32 : Crc32) : Machine (Diary Server ServerEvent SocketAddr) where
  init diary := ∃ reliableTtl, diary = .new (.newServer reliableTtl)
  step diary next := ∃ act protocol, ServerActs crc32 diary.protocol act protocol ∧
    next = diary.after act protocol

theorem clientDiaries_silent {crc32 : Crc32} {diary : Diary Client ClientEvent ConnectionId}
    (h : (clientDiaries crc32).Reachable diary) :
    (∃ asked pending, ClientTable asked pending diary.protocol.service) ∧
      diary.Silent (clientBrings crc32) := by
  refine h.invariant (fun diary =>
    (∃ asked pending, ClientTable asked pending diary.protocol.service) ∧
      diary.Silent (clientBrings crc32)) ?_ ?_
  · rintro _ rfl
    exact ⟨⟨[], [], clientTable_new⟩, silent_new _⟩
  · rintro diary _ - ⟨⟨asked, pending, table⟩, hsilent⟩ ⟨act, protocol, hact, rfl⟩
    obtain ⟨htable, heffect⟩ := table.acts hact
    exact ⟨htable, hsilent.after heffect⟩

theorem serverDiaries_silent {crc32 : Crc32} {diary : Diary Server ServerEvent SocketAddr}
    (h : (serverDiaries crc32).Reachable diary) :
    (∃ registry, ServerTable registry diary.protocol.service) ∧
      diary.Silent (serverBrings crc32) := by
  refine h.invariant (fun diary => (∃ registry, ServerTable registry diary.protocol.service) ∧
    diary.Silent (serverBrings crc32)) ?_ ?_
  · rintro _ ⟨reliableTtl, rfl⟩
    exact ⟨⟨.empty, serverTable_new reliableTtl⟩, silent_new _⟩
  · rintro diary _ - ⟨⟨registry, table⟩, hsilent⟩ ⟨act, protocol, hact, rfl⟩
    obtain ⟨htable, heffect⟩ := table.acts hact
    exact ⟨htable, hsilent.after heffect⟩

/-- Every connection is announced once, in either role, in the runs in which none is made. -/
theorem announced_once_iff_nobody_enters (crc32 : Crc32) :
    (∀ diary, (clientDiaries crc32).Reachable diary →
      (diary.AnnouncedOnce ↔ ∀ entry ∈ diary.acts, ¬clientBrings crc32 entry.1 entry.2)) ∧
    ∀ diary, (serverDiaries crc32).Reachable diary →
      (diary.AnnouncedOnce ↔ ∀ entry ∈ diary.acts, ¬serverBrings crc32 entry.1 entry.2) :=
  ⟨fun _ h => (clientDiaries_silent h).2.announcedOnce_iff,
    fun _ h => (serverDiaries_silent h).2.announcedOnce_iff⟩

def requestedDiary : Diary Server ServerEvent SocketAddr :=
  (Diary.new (.newServer .zero)).after (.received (requestFrom (.v4 0 0)) .zero) requestedServer

theorem requestedDiary_reachable : (serverDiaries ieeeCrc32).Reachable requestedDiary :=
  .next (.start ⟨.zero, rfl⟩) ⟨_, _, .received (Classical.arbitrary RandomState) _ .zero (.ok ())
    requestedServer (newServer_requested _), rfl⟩

def awaitingDiary : Diary Client ClientEvent ConnectionId :=
  let asked := (Diary.new .newClient).after .other askedRun.net.antarc
  let scheduler := { askedRun.net.antarc.service.scheduler with service := ⟨[]⟩ }
  let drained := asked.after .other { askedRun.net.antarc with
    service := { askedRun.net.antarc.service with scheduler := scheduler } }
  drained.after .other awaitingClient

def acceptedDiary : Diary Client ClientEvent ConnectionId :=
  awaitingDiary.after (.received (fromServer answeringAccept) .zero) connectedRun.net.antarc

theorem awaitingDiary_reachable : (clientDiaries ieeeCrc32).Reachable awaitingDiary := by
  have hnew : (clientDiaries ieeeCrc32).Reachable (.new .newClient) := .start rfl
  have hasked := hnew.next ⟨_, _, .connect (.v4 0 0) .zero _ _ rfl, rfl⟩
  have hdrained := hasked.next ⟨_, _, .drainConnectionRequest 0 1 _ _ rfl, rfl⟩
  exact hdrained.next ⟨_, _, .sentConnectionRequest askedRequest .zero _ rfl, rfl⟩

theorem acceptedDiary_reachable : (clientDiaries ieeeCrc32).Reachable acceptedDiary :=
  awaitingDiary_reachable.next ⟨_, _, .received _ _ _ _ awaitingClient_connected, rfl⟩

/-- Neither the accept nor the request is announced. -/
theorem connections_not_announced :
    ((clientDiaries ieeeCrc32).Reachable acceptedDiary ∧ acceptedDiary.pushed = [] ∧
      acceptedDiary.entered ⟨1, by decide⟩ = 1 ∧ ¬acceptedDiary.AnnouncedOnce) ∧
    (serverDiaries ieeeCrc32).Reachable requestedDiary ∧ requestedDiary.pushed = [] ∧
      requestedDiary.entered (.v4 0 0) = 1 ∧ ¬requestedDiary.AnnouncedOnce := by
  refine ⟨⟨acceptedDiary_reachable, rfl, rfl, fun h => ?_⟩, requestedDiary_reachable, rfl, rfl,
    fun h => ?_⟩
  · exact absurd (h ⟨1, by decide⟩) (by decide)
  · exact absurd (h (.v4 0 0)) (by decide)

/-- Up to the accept, and up to the request, there was nobody to announce. -/
theorem nobody_to_announce :
    awaitingDiary.AnnouncedOnce ∧
      (Diary.new (.newServer .zero) : Diary Server ServerEvent SocketAddr).AnnouncedOnce := by
  have hiff := announced_once_iff_nobody_enters ieeeCrc32
  refine ⟨(hiff.1 awaitingDiary awaitingDiary_reachable).mpr ?_,
    (hiff.2 _ (.start ⟨.zero, rfl⟩)).mpr fun entry hmem => by contradiction⟩
  simp [awaitingDiary, Diary.after, Diary.new, clientBrings]

end Runs

end Antarc.Properties
