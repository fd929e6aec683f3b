import Antarc.Protocol.Packets

/-! What a service has queued to send: six queues, one for each reliability of each of
the three messages that travel on a connection, and the queue of its handshake. -/
namespace Antarc

structure Scheduler (S : Type) where
  listScheduledReliableDataTransfer : List (Scheduled Reliable DataTransfer)
  listScheduledUnreliableDataTransfer : List (Scheduled Unreliable DataTransfer)
  listScheduledReliableFragment : List (Scheduled Reliable Fragment)
  listScheduledUnreliableFragment : List (Scheduled Unreliable Fragment)
  listScheduledReliableHeartbeat : List (Scheduled Reliable Heartbeat)
  listScheduledUnreliableHeartbeat : List (Scheduled Unreliable Heartbeat)
  service : S

def Scheduler.new (service : S) : Scheduler S :=
  ⟨[], [], [], [], [], [], service⟩

/-- The queue that holds messages `M` scheduled with reliability `R`. -/
class Queued (R M : Type) where
  queue : {S : Type} → Scheduler S → List (Scheduled R M)
  setQueue : {S : Type} → Scheduler S → List (Scheduled R M) → Scheduler S
  queue_setQueue : ∀ {S : Type} (scheduler : Scheduler S) entries,
    queue (setQueue scheduler entries) = entries
  setQueue_queue : ∀ {S : Type} (scheduler : Scheduler S),
    setQueue scheduler (queue scheduler) = scheduler
  setQueue_setQueue : ∀ {S : Type} (scheduler : Scheduler S) first second,
    setQueue (setQueue scheduler first) second = setQueue scheduler second

attribute [simp] Queued.queue_setQueue Queued.setQueue_queue Queued.setQueue_setQueue

instance : Queued Reliable DataTransfer where
  queue := Scheduler.listScheduledReliableDataTransfer
  setQueue scheduler queue := { scheduler with listScheduledReliableDataTransfer := queue }
  queue_setQueue _ _ := rfl
  setQueue_queue _ := rfl
  setQueue_setQueue _ _ _ := rfl

instance : Queued Unreliable DataTransfer where
  queue := Scheduler.listScheduledUnreliableDataTransfer
  setQueue scheduler queue := { scheduler with listScheduledUnreliableDataTransfer := queue }
  queue_setQueue _ _ := rfl
  setQueue_queue _ := rfl
  setQueue_setQueue _ _ _ := rfl

instance : Queued Reliable Fragment where
  queue := Scheduler.listScheduledReliableFragment
  setQueue scheduler queue := { scheduler with listScheduledReliableFragment := queue }
  queue_setQueue _ _ := rfl
  setQueue_queue _ := rfl
  setQueue_setQueue _ _ _ := rfl

instance : Queued Unreliable Fragment where
  queue := Scheduler.listScheduledUnreliableFragment
  setQueue scheduler queue := { scheduler with listScheduledUnreliableFragment := queue }
  queue_setQueue _ _ := rfl
  setQueue_queue _ := rfl
  setQueue_setQueue _ _ _ := rfl

instance : Queued Reliable Heartbeat where
  queue := Scheduler.listScheduledReliableHeartbeat
  setQueue scheduler queue := { scheduler with listScheduledReliableHeartbeat := queue }
  queue_setQueue _ _ := rfl
  setQueue_queue _ := rfl
  setQueue_setQueue _ _ _ := rfl

instance : Queued Unreliable Heartbeat where
  queue := Scheduler.listScheduledUnreliableHeartbeat
  setQueue scheduler queue := { scheduler with listScheduledUnreliableHeartbeat := queue }
  queue_setQueue _ _ := rfl
  setQueue_queue _ := rfl
  setQueue_setQueue _ _ _ := rfl

namespace Scheduler

/-- The push that `reliable_fragment` and its five siblings make. -/
def push [Queued R M] (scheduler : Scheduler S) (scheduled : Scheduled R M) : Scheduler S :=
  Queued.setQueue scheduler (Queued.queue scheduler ++ [scheduled])

def scheduleFragment (scheduler : Scheduler S) (reliability : ReliabilityType)
    (packetId : PacketId) (connectionId : ConnectionId) (payload : Payload)
    (fragmentIndex fragmentTotal : Nat) (time : Duration) (address : SocketAddr) : Scheduler S :=
  let message := Fragment.new connectionId payload fragmentIndex fragmentTotal
  match reliability with
  | .reliable => scheduler.push (⟨packetId, address, time, {}, message⟩ : Scheduled Reliable _)
  | .unreliable => scheduler.push (⟨packetId, address, time, {}, message⟩ : Scheduled Unreliable _)

def scheduleDataTransfer (scheduler : Scheduler S) (reliability : ReliabilityType)
    (packetId : PacketId) (connectionId : ConnectionId) (payload : Payload)
    (time : Duration) (address : SocketAddr) : Scheduler S :=
  let message := DataTransfer.new connectionId payload
  match reliability with
  | .reliable => scheduler.push (⟨packetId, address, time, {}, message⟩ : Scheduled Reliable _)
  | .unreliable => scheduler.push (⟨packetId, address, time, {}, message⟩ : Scheduled Unreliable _)

def scheduleHeartbeat (scheduler : Scheduler S) (reliability : ReliabilityType)
    (packetId : PacketId) (connectionId : ConnectionId) (time : Duration)
    (address : SocketAddr) : Scheduler S :=
  let message := Heartbeat.new connectionId
  match reliability with
  | .reliable => scheduler.push (⟨packetId, address, time, {}, message⟩ : Scheduled Reliable _)
  | .unreliable => scheduler.push (⟨packetId, address, time, {}, message⟩ : Scheduled Unreliable _)

def scheduleForConnectedPeer (scheduler : Scheduler S) (address : SocketAddr) (payload : Payload)
    (reliability : ReliabilityType) (connectionId : ConnectionId) (packetId : PacketId)
    (time : Duration) (fragmentIndex fragmentTotal : Nat) : Scheduler S :=
  if fragmentTotal > 1 then
    scheduler.scheduleFragment reliability packetId connectionId payload fragmentIndex
      fragmentTotal time address
  else
    scheduler.scheduleDataTransfer reliability packetId connectionId payload time address

def heartbeatForConnectedPeer (scheduler : Scheduler S) (address : SocketAddr)
    (reliability : ReliabilityType) (connectionId : ConnectionId) (packetId : PacketId)
    (time : Duration) : Scheduler S :=
  scheduler.scheduleHeartbeat reliability packetId connectionId time address

end Scheduler

end Antarc
