import Antarc.Net.Drivers
import Antarc.Properties.Polling

/-! One view of everything that is sent. Queue entries, packets kept for a retry and
packets on the wire are typed by message and reliability; seen through their body they
can be compared, and said things of all at once. -/
namespace Antarc.Properties

open Library

inductive Body where
  | connectionRequest (message : ConnectionRequest)
  | connectionAccepted (message : ConnectionAccepted)
  | dataTransfer (message : DataTransfer)
  | fragment (message : Fragment)
  | heartbeat (message : Heartbeat)
  deriving DecidableEq

namespace Body

/-- The connection that a message travels on. The two of the handshake travel on none. -/
def connection : Body → Option ConnectionId
  | connectionRequest _ => none
  | connectionAccepted _ => none
  | dataTransfer message => some message.connectionId
  | fragment message => some message.connectionId
  | heartbeat message => some message.connectionId

def ends : Body → Bool
  | fragment message => decide (message.index = message.total - 1)
  | _ => true

def maxPayload : Nat := maxFragmentSize - Message.headerSize Fragment

/-- The type byte is the one of the kind, and a payload fits a datagram. -/
def WellFormed : Body → Prop
  | connectionRequest message => message.metadata = ⟨Antarc.connectionRequest⟩
  | connectionAccepted message => message.metadata = ⟨Antarc.connectionAccepted⟩
  | dataTransfer message =>
      message.metadata = ⟨Antarc.dataTransfer⟩ ∧ message.payload.length ≤ maxPayload
  | fragment message =>
      message.metadata = ⟨Antarc.fragment⟩ ∧ message.payload.length ≤ maxPayload
  | heartbeat message => message.metadata = ⟨Antarc.heartbeat⟩

end Body

/-- A packet less its times. -/
structure Line where
  address : SocketAddr
  packetId : PacketId
  sequence : Sequence
  ack : Ack
  body : Body
  deriving DecidableEq

def lineToSend (body : M → Body) (packet : Packet ToSend M) : Line :=
  ⟨packet.delivery.metadata.address, packet.delivery.id, packet.sequence, packet.ack,
    body packet.message⟩

def lineSent (body : M → Body) (packet : Packet Sent M) : Line :=
  ⟨packet.delivery.metadata.address, packet.delivery.id, packet.sequence, packet.ack,
    body packet.message⟩

def lineOf : Outgoing → Line
  | .connectionRequest packet => lineToSend .connectionRequest packet
  | .connectionAccepted packet => lineToSend .connectionAccepted packet
  | .dataTransfer packet => lineToSend .dataTransfer packet
  | .fragment packet => lineToSend .fragment packet
  | .heartbeat packet => lineToSend .heartbeat packet

def datagramOf (crc32 : Crc32) : Outgoing → RawPacket
  | .connectionRequest packet => packet.datagram crc32
  | .connectionAccepted packet => packet.datagram crc32
  | .dataTransfer packet => packet.datagram crc32
  | .fragment packet => packet.datagram crc32
  | .heartbeat packet => packet.datagram crc32

class Bodied (M : Type) [Sendable M] where
  body : M → Body
  line_outgoing : ∀ packet : Packet ToSend M,
    lineOf (Sendable.outgoing packet) = lineToSend body packet
  datagram_outgoing : ∀ (crc32 : Crc32) (packet : Packet ToSend M),
    datagramOf crc32 (Sendable.outgoing packet) = packet.datagram crc32

instance : Bodied ConnectionRequest := ⟨.connectionRequest, fun _ => rfl, fun _ _ => rfl⟩
instance : Bodied ConnectionAccepted := ⟨.connectionAccepted, fun _ => rfl, fun _ _ => rfl⟩
instance : Bodied DataTransfer := ⟨.dataTransfer, fun _ => rfl, fun _ _ => rfl⟩
instance : Bodied Fragment := ⟨.fragment, fun _ => rfl, fun _ _ => rfl⟩
instance : Bodied Heartbeat := ⟨.heartbeat, fun _ => rfl, fun _ _ => rfl⟩

/-- A queue entry less its time and reliability. -/
structure QueueEntry where
  packetId : PacketId
  address : SocketAddr
  body : Body
  deriving DecidableEq

def entryOf [Sendable M] [Bodied M] (scheduled : Scheduled R M) : QueueEntry :=
  ⟨scheduled.packetId, scheduled.address, Bodied.body scheduled.message⟩

def queues (scheduler : Scheduler S) : List (List QueueEntry) :=
  [scheduler.listScheduledReliableDataTransfer.map entryOf,
    scheduler.listScheduledUnreliableDataTransfer.map entryOf,
    scheduler.listScheduledReliableFragment.map entryOf,
    scheduler.listScheduledUnreliableFragment.map entryOf,
    scheduler.listScheduledReliableHeartbeat.map entryOf,
    scheduler.listScheduledUnreliableHeartbeat.map entryOf]

def storedLines (handler : ReliabilityHandler S) : List Line :=
  handler.listSentReliableDataTransfer.map (lineSent .dataTransfer) ++
    handler.listSentReliableHeartbeat.map (lineSent .heartbeat) ++
    handler.listSentReliableFragment.map (lineSent .fragment)

/-- A queue is one of the six, and setting it leaves the others. -/
class QueueView (R M : Type) [Queued R M] [Sendable M] [Bodied M] : Prop where
  queue_mem : ∀ {S : Type} (scheduler : Scheduler S),
    (Queued.queue scheduler : List (Scheduled R M)).map entryOf ∈ queues scheduler
  of_setQueue : ∀ {S : Type} (scheduler : Scheduler S) (entries : List (Scheduled R M)),
    ∀ queue ∈ queues (Queued.setQueue scheduler entries),
      queue = entries.map entryOf ∨ queue ∈ queues scheduler
  service_setQueue : ∀ {S : Type} (scheduler : Scheduler S) (entries : List (Scheduled R M)),
    (Queued.setQueue scheduler entries).service = scheduler.service

instance : QueueView Reliable DataTransfer where
  queue_mem _ := by simp [queues, Queued.queue]
  of_setQueue _ _ := by simp +contextual [queues, Queued.setQueue, or_imp]
  service_setQueue _ _ := rfl

instance : QueueView Unreliable DataTransfer where
  queue_mem _ := by simp [queues, Queued.queue]
  of_setQueue _ _ := by simp +contextual [queues, Queued.setQueue, or_imp]
  service_setQueue _ _ := rfl

instance : QueueView Reliable Fragment where
  queue_mem _ := by simp [queues, Queued.queue]
  of_setQueue _ _ := by simp +contextual [queues, Queued.setQueue, or_imp]
  service_setQueue _ _ := rfl

instance : QueueView Unreliable Fragment where
  queue_mem _ := by simp [queues, Queued.queue]
  of_setQueue _ _ := by simp +contextual [queues, Queued.setQueue, or_imp]
  service_setQueue _ _ := rfl

instance : QueueView Reliable Heartbeat where
  queue_mem _ := by simp [queues, Queued.queue]
  of_setQueue _ _ := by simp +contextual [queues, Queued.setQueue, or_imp]
  service_setQueue _ _ := rfl

instance : QueueView Unreliable Heartbeat where
  queue_mem _ := by simp [queues, Queued.queue]
  of_setQueue _ _ := by simp +contextual [queues, Queued.setQueue, or_imp]
  service_setQueue _ _ := rfl

class Travels (M : Type) [Carried M] [Sendable M] [Bodied M] : Prop where
  connection_body : ∀ message : M,
    (Bodied.body message).connection = some (Carried.connectionId message)
  ends_body : ∀ (message : M) (completes : Bool),
    Carried.completes message = .ok completes → (Bodied.body message).ends = completes
  stored_mem : ∀ {S : Type} (handler : ReliabilityHandler S), ∀ packet ∈ Carried.listSent handler,
    lineSent (Bodied.body : M → Body) packet ∈ storedLines handler
  of_setListSent : ∀ {S : Type} (handler : ReliabilityHandler S) (packets : List (Packet Sent M)),
    ∀ line ∈ storedLines (Carried.setListSent handler packets),
      line ∈ packets.map (lineSent Bodied.body) ∨ line ∈ storedLines handler
  service_setListSent : ∀ {S : Type} (handler : ReliabilityHandler S)
    (packets : List (Packet Sent M)), (Carried.setListSent handler packets).service = handler.service

theorem mem_three {first second third replaced : List α} {item : α} :
    (item ∈ replaced ++ second ++ third → item ∈ replaced ∨ item ∈ first ++ second ++ third) ∧
      (item ∈ first ++ replaced ++ third → item ∈ replaced ∨ item ∈ first ++ second ++ third) ∧
      (item ∈ first ++ second ++ replaced → item ∈ replaced ∨ item ∈ first ++ second ++ third) := by
  simp only [List.mem_append]
  tauto

instance : Travels DataTransfer where
  connection_body _ := rfl
  ends_body _ _ h := Except.ok.inj h
  stored_mem _ _ h := List.mem_append_left _ (List.mem_append_left _ (List.mem_map_of_mem h))
  of_setListSent _ _ _ h := mem_three.1 h
  service_setListSent _ _ := rfl

instance : Travels Heartbeat where
  connection_body _ := rfl
  ends_body _ _ h := Except.ok.inj h
  stored_mem _ _ h := List.mem_append_left _ (List.mem_append_right _ (List.mem_map_of_mem h))
  of_setListSent _ _ _ h := mem_three.2.1 h
  service_setListSent _ _ := rfl

instance : Travels Fragment where
  connection_body _ := rfl
  ends_body message completes h := by
    obtain ⟨last, hlast, h⟩ := bind_eq_ok.mp h
    unfold subU8 at hlast
    split at hlast
    · cases hlast
      exact Except.ok.inj h
    · contradiction
  stored_mem _ _ h := List.mem_append_right _ (List.mem_map_of_mem h)
  of_setListSent _ _ _ h := mem_three.2.2 h
  service_setListSent _ _ := rfl

section Stored

variable {M : Type} [Carried M] [Sendable M] [Bodied M] [Travels M] {S : Type}

theorem stored_keep (handler : ReliabilityHandler S) (reliability : ReliabilityType)
    (sent : Packet Sent M) : ∀ line ∈ storedLines (handler.keep reliability sent),
      line = lineSent Bodied.body sent ∨ line ∈ storedLines handler := by
  intro line hline
  cases reliability with
  | unreliable => exact .inr hline
  | reliable =>
    rcases Travels.of_setListSent handler _ line hline with hline | hline
    · rw [List.map_append, List.mem_append] at hline
      rcases hline with hline | hline
      · obtain ⟨packet, hpacket, rfl⟩ := List.mem_map.mp hline
        exact .inr (Travels.stored_mem handler packet hpacket)
      · exact .inl (List.mem_singleton.mp hline)
    · exact .inr hline

theorem service_keep (handler : ReliabilityHandler S) (reliability : ReliabilityType)
    (sent : Packet Sent M) : (handler.keep reliability sent).service = handler.service := by
  cases reliability with
  | unreliable => rfl
  | reliable => exact Travels.service_setListSent handler _

theorem retryLast_cases {M : Type} {now : Duration} {list after : List (Packet Sent M)}
    {result : Option (Packet ToSend M)} (h : retryLast now list = .ok (result, after)) :
    (∀ packet ∈ after, packet ∈ list) ∧ ∀ packet, result = some packet →
      ∃ sent ∈ list, packet = ⟨⟨sent.delivery.id, ⟨now, sent.delivery.metadata.address⟩⟩,
        sent.sequence, sent.ack, sent.message⟩ := by
  unfold retryLast at h
  split at h
  · next sent hlast =>
    obtain ⟨sum, -, h⟩ := bind_eq_ok.mp h
    have hmem := List.mem_of_getLast? hlast
    split at h
    · cases h
      refine ⟨fun packet => List.mem_of_mem_dropLast, ?_⟩
      rintro packet hpacket
      cases hpacket
      exact ⟨sent, hmem, rfl⟩
    · cases h
      exact ⟨fun packet => List.mem_of_mem_dropLast, fun packet hpacket => by contradiction⟩
  · cases h
    exact ⟨fun packet hpacket => hpacket, fun packet hpacket => by contradiction⟩

theorem stored_retry {handler after : ReliabilityHandler S} {now : Duration}
    {result : Option (Packet ToSend M)} (h : handler.retry now = .ok (result, after)) :
    (∀ line ∈ storedLines after, line ∈ storedLines handler) ∧
      (∀ packet, result = some packet → lineToSend Bodied.body packet ∈ storedLines handler) ∧
      after.service = handler.service := by
  obtain ⟨⟨packet, list⟩, hlast, h⟩ := bind_eq_ok.mp h
  cases h
  obtain ⟨hlist, hresult⟩ := retryLast_cases hlast
  refine ⟨?_, ?_, Travels.service_setListSent handler list⟩
  · intro line hline
    rcases Travels.of_setListSent handler list line hline with hline | hline
    · obtain ⟨sent, hsent, rfl⟩ := List.mem_map.mp hline
      exact Travels.stored_mem handler sent (hlist sent hsent)
    · exact hline
  · rintro packet rfl
    obtain ⟨sent, hsent, rfl⟩ := hresult packet rfl
    exact Travels.stored_mem handler sent hsent

theorem stored_poll {S : Type} [ServiceReliability S] {handler after : ReliabilityHandler S}
    {now : Duration} (h : handler.poll now = .ok after) :
    (∀ line ∈ storedLines after, line ∈ storedLines handler) ∧
      ServiceReliability.poll handler.service now = .ok after.service := by
  obtain ⟨dropped, hdropped, h⟩ := bind_eq_ok.mp h
  obtain ⟨service, hservice, h⟩ := bind_eq_ok.mp h
  cases h
  obtain ⟨-, rfl⟩ := dropExpired_eq_ok.mp hdropped
  rw [dropListHeads_service] at hservice
  exact ⟨fun line hline => dropListHeads_subset _ _ _ hline, hservice⟩

end Stored

end Antarc.Properties
