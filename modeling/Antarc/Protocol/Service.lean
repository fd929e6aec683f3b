import Antarc.Protocol.Peers
import Antarc.Protocol.Reliability
import Antarc.Protocol.Scheduler

/-! What the client and the server have in common. `ServiceCore` holds the fields
behind the accessors of the `Service` trait; the generic operations work on it. -/
namespace Antarc

open Library

inductive ProtocolEvent (S : Type) where
  | fail (error : ProtocolError)
  | dataTransfer (connectionId : ConnectionId) (payload : Payload)
  | serviceEvent (event : S)
  deriving DecidableEq

structure ServiceCore (SchedulerType ReliabilityHandlerType Event : Type) where
  api : List (ProtocolEvent Event)
  connected : HashMap ConnectionId (Peer Connected)
  scheduler : Scheduler SchedulerType
  reliabilityHandler : ReliabilityHandler ReliabilityHandlerType

/-- A service is its core and whatever else it keeps. A packet about to be accounted as
sent may first move a peer that still awaits its ack (`promoteAwaiting`). -/
class Service (S : Type) (SchedulerType ReliabilityHandlerType Event : outParam Type) where
  core : S → ServiceCore SchedulerType ReliabilityHandlerType Event
  setCore : S → ServiceCore SchedulerType ReliabilityHandlerType Event → S
  promoteAwaiting : S → SocketAddr → ConnectionId → Duration → S
  core_setCore : ∀ service core', core (setCore service core') = core'
  setCore_core : ∀ service, setCore service (core service) = service
  setCore_setCore : ∀ service first second,
    setCore (setCore service first) second = setCore service second

attribute [simp] Service.core_setCore Service.setCore_core Service.setCore_setCore

namespace ServiceCore

/-- `if let Some(connected) = self.connected.get_mut(&connection_id)`, then the tracker. -/
def advanceConnected (core : ServiceCore A B E) (connectionId : ConnectionId) :
    Exec (ServiceCore A B E) :=
  match core.connected.lookup connectionId with
  | some peer => do
      let peer ← peer.advance
      pure { core with connected := core.connected.insert connectionId peer }
  | none => pure core

def pushApi (core : ServiceCore A B E) (event : ProtocolEvent E) : ServiceCore A B E :=
  { core with api := core.api ++ [event] }

/-- Queue one chunk for one connected peer. -/
def scheduleChunk (core : ServiceCore A B E) (reliability : ReliabilityType)
    (connectionId : ConnectionId) (address : SocketAddr) (payload : Payload)
    (packetId : PacketId) (time : Duration) (fragmentIndex fragmentTotal : Nat) :
    ServiceCore A B E :=
  let scheduler := core.scheduler.scheduleForConnectedPeer address payload reliability
    connectionId packetId time fragmentIndex fragmentTotal
  { core with scheduler := scheduler }

end ServiceCore

/-- The body of `sent_data_transfer`, `sent_fragment` and `sent_heartbeat`, once the
service has moved its peers: the tracker, then the list of packets kept for a retry. -/
def sentCarried [Carried M] [Service S A B E] (service : S) (packet : Packet ToSend M)
    (time : Duration) (reliability : ReliabilityType) (ttl : Duration) : Exec S := do
  let sent := packet.sent time ttl
  let address := sent.delivery.metadata.address
  let connectionId := Carried.connectionId sent.message
  let service := Service.promoteAwaiting service address connectionId time
  let completes ← Carried.completes sent.message
  let core ←
    if completes then (Service.core service).advanceConnected connectionId
    else pure (Service.core service)
  pure (Service.setCore service
    { core with reliabilityHandler := core.reliabilityHandler.keep reliability sent })

end Antarc
