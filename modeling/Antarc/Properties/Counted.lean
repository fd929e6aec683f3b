import Antarc.Properties.Calls
import Antarc.Properties.Counting
import Antarc.Properties.Overflow
import Antarc.Properties.Retransmission

/-! The tally of a driver, through its queues and its packet id tracker: what each call and
each pass does to them. -/
namespace Antarc.Properties

open Library

section Queues

theorem flatten_perm (before after : List (List α)) (entries : List α) :
    (before ++ entries :: after).flatten.Perm (entries ++ (before ++ [] :: after).flatten) := by
  simp only [List.flatten_append, List.flatten_cons, List.nil_append]
  exact List.perm_append_comm_assoc _ _ _

/-- A queue goes apart from the other five, and holds fragments alone or none at all. -/
class QueueApart (R M : Type) [Queued R M] [Sendable M] [Bodied M] : Prop where
  apart : ∀ {A : Type} (scheduler : Scheduler A) (entries : List (Scheduled R M)),
    (entriesOf (Queued.setQueue scheduler entries)).Perm
      (entries.map entryOf ++ entriesOf (Queued.setQueue scheduler ([] : List (Scheduled R M))))
  kind : (∀ message : M, (Bodied.body message).isFragment = true) ∨
    ∀ message : M, (Bodied.body message).isFragment = false

instance : QueueApart Reliable DataTransfer where
  apart _ _ := flatten_perm [] [_, _, _, _, _] _
  kind := .inr fun _ => rfl

instance : QueueApart Unreliable DataTransfer where
  apart _ _ := flatten_perm [_] [_, _, _, _] _
  kind := .inr fun _ => rfl

instance : QueueApart Reliable Fragment where
  apart _ _ := flatten_perm [_, _] [_, _, _] _
  kind := .inl fun _ => rfl

instance : QueueApart Unreliable Fragment where
  apart _ _ := flatten_perm [_, _, _] [_, _] _
  kind := .inl fun _ => rfl

instance : QueueApart Reliable Heartbeat where
  apart _ _ := flatten_perm [_, _, _, _] [_] _
  kind := .inr fun _ => rfl

instance : QueueApart Unreliable Heartbeat where
  apart _ _ := flatten_perm [_, _, _, _, _] [] _
  kind := .inr fun _ => rfl

section Pushes

variable {R M A : Type} [Queued R M] [Sendable M] [Bodied M] [QueueApart R M]

theorem entriesOf_perm (scheduler : Scheduler A) : (entriesOf scheduler).Perm
    ((Queued.queue scheduler : List (Scheduled R M)).map entryOf ++
      entriesOf (Queued.setQueue scheduler ([] : List (Scheduled R M)))) := by
  have happart := QueueApart.apart scheduler (Queued.queue scheduler : List (Scheduled R M))
  rwa [Queued.setQueue_queue] at happart

theorem entriesOf_pushAll (scheduler : Scheduler A) (entries : List (Scheduled R M)) :
    (entriesOf (pushAll scheduler entries)).Perm (entries.map entryOf ++ entriesOf scheduler) := by
  refine (QueueApart.apart scheduler _).trans ?_
  rw [List.map_append, List.append_assoc]
  refine (List.perm_append_comm_assoc _ _ _).trans (.append_left _ ?_)
  exact (entriesOf_perm scheduler).symm

end Pushes

def chunkEntries (packetId : PacketId) (targets : List Target) (total : Nat)
    (chunks : List (Payload × Nat)) : List QueueEntry :=
  chunks.flatMap fun chunk => targets.map fun target =>
    ⟨packetId, target.2, chunkBody total target.1 chunk⟩

theorem entriesOf_queued_perm (scheduler : Scheduler A) (reliability : ReliabilityType)
    (packetId : PacketId) (time : Duration) (targets : List Target) (total : Nat)
    (chunks : List (Payload × Nat)) :
    (entriesOf (queued scheduler reliability packetId time targets total chunks)).Perm
      (chunkEntries packetId targets total chunks ++ entriesOf scheduler) := by
  unfold queued chunkEntries chunkBody
  split <;> cases reliability <;> dsimp only
  all_goals
    refine (entriesOf_pushAll scheduler _).trans ?_
    rw [map_entryOf_entriesFor]
    exact .refl _

theorem entriesOf_beaten_perm (scheduler : Scheduler A) (reliability : ReliabilityType)
    (packetId : PacketId) (time : Duration) (targets : List Target) :
    (entriesOf (beaten scheduler reliability packetId time targets)).Perm
      ((targets.map fun target => ⟨packetId, target.2, .heartbeat (.new target.1)⟩) ++
        entriesOf scheduler) := by
  cases reliability
  all_goals
    refine (entriesOf_pushAll scheduler _).trans ?_
    rw [map_entryOf_entriesFor, List.flatMap_singleton]
    exact .refl _

/-- Where the count is a byte's value, the last fragment is the one that ends the packet. -/
theorem ends_fragmentMessage {total : Nat} (hfew : total ≤ 255) {chunk : Payload × Nat}
    (hnumber : chunk.2 < total) (id : ConnectionId) :
    (Body.fragment (fragmentMessage total id chunk)).ends = decide (chunk.2 = total - 1) := by
  have htotal : total % 256 = total := Nat.mod_eq_of_lt (by omega)
  have hchunk : chunk.2 % 256 = chunk.2 := Nat.mod_eq_of_lt (by omega)
  have hnonzero : total % 256 ≠ 0 := by omega
  have hcompletes := completes_fragmentMessage hnonzero id chunk
  rw [htotal, hchunk] at hcompletes
  exact Travels.ends_body _ _ hcompletes

theorem nodup_lastFragments {payload : Payload} {targets : List Target}
    (hfew : (numberedChunks payload).length ≤ 255) (hdistinct : (targets.map Prod.snd).Nodup)
    (packetId : PacketId) :
    (lastFragments (chunkEntries packetId targets (numberedChunks payload).length
      (numberedChunks payload))).Nodup := by
  let total := (numberedChunks payload).length
  let part (chunk : Payload × Nat) (target : Target) : QueueEntry :=
    ⟨packetId, target.2, chunkBody total target.1 chunk⟩
  have hnumbers : ((numberedChunks payload).map Prod.snd).Nodup := by
    unfold numberedChunks
    rw [List.zipIdx_map_snd]
    exact List.nodup_range'
  -- What ends a packet of fragments has the last number.
  have hlast : ∀ chunk ∈ numberedChunks payload, ∀ key ∈ lastFragments (targets.map (part chunk)),
      chunk.2 = total - 1 := by
    intro chunk hchunk key hkey
    obtain ⟨entry, hentry, hfragment, hends, -⟩ := mem_lastFragments.mp hkey
    obtain ⟨target, -, rfl⟩ := List.mem_map.mp hentry
    have hlt : chunk.2 < total := by
      have hlt := List.snd_lt_of_mem_zipIdx hchunk
      rwa [← List.length_zipIdx (i := 0)] at hlt
    by_cases hmany : total > 1
    · rw [show (part chunk target).body = _ from if_pos hmany,
        ends_fragmentMessage hfew hlt] at hends
      exact of_decide_eq_true hends
    · rw [show (part chunk target).body = _ from if_neg hmany] at hfragment
      contradiction
  unfold lastFragments chunkEntries
  rw [List.filter_flatMap, List.map_flatMap, List.nodup_flatMap]
  refine ⟨fun chunk _ => ?_, ?_⟩
  · have hkeys : ((targets.map (part chunk)).map fun entry => (entry.address, entry.packetId)) =
        (targets.map Prod.snd).map fun address => (address, packetId) := by
      rw [List.map_map, List.map_map]
      rfl
    refine List.Nodup.sublist (List.filter_sublist.map _) ?_
    rw [hkeys]
    exact hdistinct.map fun _ _ h => (Prod.mk.inj h).1
  · refine (List.pairwise_map.mp hnumbers).imp_of_mem ?_
    intro first second hfirst hsecond hne key hkey hother
    exact hne ((hlast first hfirst key hkey).trans (hlast second hsecond key hother).symm)

end Queues

section Loads

variable {S A B E : Type} [Service S A B E] {crc32 : Crc32} {net after : AntarcNet S}

class PromotesQuietly (S : Type) {A B E : outParam Type} [Service S A B E] : Prop where
  scheduler : ∀ (service : S) address id time,
    (Service.core (Service.promoteAwaiting service address id time)).scheduler =
      (Service.core service).scheduler

instance : PromotesQuietly Server where
  scheduler _ _ _ _ := rfl

instance : PromotesQuietly Client where
  scheduler client address id time := by
    change (client.promoteAwaiting address id time).scheduler = client.scheduler
    unfold Client.promoteAwaiting
    split <;> rfl

def loadOf (protocol : Protocol S) : List QueueEntry × PacketId :=
  (entriesOf protocol.core.scheduler, protocol.packetIdTracker)

theorem load_setCore (protocol : Protocol S) (core : ServiceCore A B E) :
    loadOf (protocol.setCore core) = (entriesOf core.scheduler, protocol.packetIdTracker) := by
  unfold loadOf
  rw [core_setCore]
  rfl

theorem load_sent [PromotesQuietly S] {M : Type} [Carried M] {protocol next : Protocol S}
    {packet : Packet ToSend M} {reliability : ReliabilityType} {now : Duration}
    (h : protocol.sent packet reliability now = .ok next) : loadOf next = loadOf protocol := by
  obtain ⟨completes, core, -, hcore, rfl⟩ := sent_frame h
  obtain ⟨connected, rfl⟩ := advanced_frame hcore
  simp only [loadOf, Protocol.core, Service.core_setCore, PromotesQuietly.scheduler]

theorem load_retry {M : Type} [Carried M] {protocol next : Protocol S} {now : Duration}
    {packet : Option (Packet ToSend M)} (h : protocol.retry M now = .ok (packet, next)) :
    loadOf next = loadOf protocol := by
  obtain ⟨handler, -, rfl⟩ := retry_frame h
  exact load_setCore protocol _

theorem load_pollScheduled [PromotesQuietly S] {R M : Type} [Queued R M] [Reliability R]
    [Carried M] [Sendable M]
    {create : Protocol S → Scheduled R M → Duration → Exec (Packet ToSend M)}
    {clock : Nat → Duration} (h : AntarcNet.pollScheduled crc32 create clock net = .ok after) :
    loadOf after.antarc =
      (entriesOf (Queued.setQueue net.antarc.core.scheduler ([] : List (Scheduled R M))),
        net.antarc.packetIdTracker) := by
  rw [pollScheduled_eq] at h
  refine sendEach_keeps (fun protocol => loadOf protocol = _) ?_ (load_setCore _ _) h
  exact fun _ _ _ _ hload hsent => (load_sent hsent).trans hload

theorem load_pollRetry [PromotesQuietly S] {M : Type} [Carried M] [Sendable M]
    {clock : Nat → Duration} (h : AntarcNet.pollRetry M crc32 clock net = .ok after) :
    loadOf after.antarc = loadOf net.antarc :=
  pollStored_view loadOf (fun _ _ _ _ hsent => load_sent hsent)
    (fun _ _ _ _ hretry => load_retry hretry) h

theorem load_report (outcome : Result Unit) (net : AntarcNet S) :
    loadOf (AntarcNet.report outcome net).antarc = loadOf net.antarc := by
  cases outcome with
  | ok _ => rfl
  | error fail => exact load_setCore net.antarc _

end Loads

section Handshakes

variable {crc32 : Crc32} {clock : Nat → Duration}

theorem load_pollConnectionRequest {net after : AntarcNet Client}
    (h : net.pollConnectionRequest crc32 clock = .ok after) :
    loadOf after.antarc = loadOf net.antarc := by
  refine pollQueue_view loadOf (fun _ _ _ _ hsent => ?_) (fun _ _ _ hdrain => ?_) h
  · obtain ⟨_, _, -, -, rfl⟩ := sentConnectionRequest_frame hsent
    rfl
  · obtain ⟨_, -, rfl⟩ := drainConnectionRequest_frame hdrain
    rfl

theorem load_pollRetryConnectionRequest {net after : AntarcNet Client}
    (h : net.pollRetryConnectionRequest crc32 clock = .ok after) :
    loadOf after.antarc = loadOf net.antarc := by
  refine pollStored_view loadOf (fun _ _ _ _ hsent => ?_) (fun _ _ _ _ hretry => ?_) h
  · obtain ⟨_, _, -, -, rfl⟩ := sentConnectionRequest_frame hsent
    rfl
  · obtain ⟨_, -, rfl⟩ := resend_frame hretry
    rfl

theorem load_pollConnectionAccepted {net after : AntarcNet Server}
    (h : net.pollConnectionAccepted crc32 clock = .ok after) :
    loadOf after.antarc = loadOf net.antarc := by
  refine pollQueue_view loadOf (fun _ _ _ _ hsent => ?_) (fun _ _ _ hdrain => ?_) h
  · obtain ⟨_, -, rfl⟩ := sentConnectionAccepted_frame hsent
    rfl
  · obtain ⟨_, -, rfl⟩ := drainConnectionAccepted_frame hdrain
    rfl

theorem load_pollRetryConnectionAccepted {net after : AntarcNet Server}
    (h : net.pollRetryConnectionAccepted crc32 clock = .ok after) :
    loadOf after.antarc = loadOf net.antarc := by
  refine pollStored_view loadOf (fun _ _ _ _ hsent => ?_) (fun _ _ _ _ hretry => ?_) h
  · obtain ⟨_, -, rfl⟩ := sentConnectionAccepted_frame hsent
    rfl
  · obtain ⟨_, -, rfl⟩ := retryConnectionAccepted_frame hretry
    rfl

variable {received elapsed now : Duration} {datagram : Option RawPacket}

theorem load_clientReceive {net : AntarcNet Client}
    {result : List (ProtocolEvent ClientEvent) × AntarcNet Client}
    (h : net.clientReceive crc32 received elapsed datagram = .ok result) :
    loadOf result.2.antarc = loadOf net.antarc := by
  cases datagram with
  | none => contradiction
  | some raw =>
    obtain ⟨⟨outcome, antarc⟩, hreceived, h⟩ := bind_eq_ok.mp h
    obtain ⟨⟨events, polled⟩, hpolled, h⟩ := bind_eq_ok.mp h
    cases h
    obtain ⟨_, -, -, rfl⟩ := clientPoll_frame (attempt_eq_ok.mp hpolled)
    refine (load_report outcome { net with antarc := antarc }).trans ?_
    obtain ⟨hheard, hantarc⟩ := clientReceived_onReceived (attempt_eq_ok.mp hreceived)
    rw [hantarc]
    rcases client_onReceived_cases hheard with hsame | ⟨_, -, -, hhears⟩
    · rw [hsame]
    · exact congrArg (fun scheduler => (entriesOf scheduler, _)) hhears.kept.2.1

theorem load_serverReceive {net : AntarcNet Server} {hash : RandomState}
    {peerHash : ConnectionId → RandomState}
    {result : List (ProtocolEvent ServerEvent) × AntarcNet Server}
    (h : net.serverReceive crc32 hash peerHash received elapsed now datagram = .ok result) :
    (loadOf result.2.antarc).1 = (loadOf net.antarc).1 ∧
      (loadOf net.antarc).2.toNat ≤ (loadOf result.2.antarc).2.toNat := by
  cases datagram with
  | none => contradiction
  | some raw =>
    obtain ⟨⟨outcome, antarc⟩, hreceived, h⟩ := bind_eq_ok.mp h
    obtain ⟨⟨events, polled⟩, hpolled, h⟩ := bind_eq_ok.mp h
    cases h
    obtain ⟨_, _, -, -, -, rfl⟩ := serverPoll_frame (attempt_eq_ok.mp hpolled)
    replace hreceived := attempt_eq_ok.mp hreceived
    have hreported := load_report outcome { net with antarc := antarc }
    refine ⟨(congrArg Prod.fst hreported).trans ?_, ?_⟩
    · obtain ⟨_, hheard, -⟩ := serverReceived_onReceived hreceived
      change entriesOf antarc.service.scheduler = entriesOf net.antarc.service.scheduler
      rcases server_onReceived_cases hheard with
        hsame | ⟨_, _, -, -, -, hhears⟩ | ⟨_, -, -, hadmits⟩
      · rw [hsame]
      · rw [hhears.scheduler]
      · have hsix := (admits_greets hadmits).1 net.antarc.service.scheduler.service
        have hentries := congrArg entriesOf hsix
        exact hentries
    · exact (stamps_serverReceived hreceived).grows.trans_eq
        (congrArg (fun load => load.2.toNat) hreported).symm

end Handshakes

end Antarc.Properties
