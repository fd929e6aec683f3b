import Antarc.Library.Chunks
import Antarc.Protocol.Client
import Antarc.Protocol.Server

/-! The operations of `Protocol<S>`. Each reading of the protocol's timer is an argument
of the operation that makes it. -/
namespace Antarc

open Library

structure Protocol (S : Type) where
  packetIdTracker : PacketId
  service : S
  reliableTtl : Duration

namespace ServiceCore

/-- The peers an operation is for, in the order in which it reaches them. -/
def targets (hash : RandomState) (core : ServiceCore A B E) (sendTo : SendTo) :
    Result (List (ConnectionId × SocketAddr)) :=
  match sendTo with
  | .single connectionId =>
      match core.connected.lookup connectionId with
      | some peer => .ok [(connectionId, peer.address)]
      | none => .error (.scheduledNotConnected connectionId)
  | .broadcast =>
      .ok ((hash.iterate core.connected).entries.map fun entry => (entry.1, entry.2.address))

/-- The loop of `schedule_helper`. The target is looked up again for every chunk, and
an error leaves the chunks before it queued. -/
def scheduleChunks (hash : RandomState) (reliability : ReliabilityType) (sendTo : SendTo)
    (packetId : PacketId) (time : Duration) (fragmentTotal : Nat) :
    List (Payload × Nat) → ServiceCore A B E → Result Unit × ServiceCore A B E
  | [], core => (.ok (), core)
  | (payload, fragmentIndex) :: rest, core =>
      match core.targets hash sendTo with
      | .error error => (.error error, core)
      | .ok targets =>
          let core := targets.foldl (fun core target => core.scheduleChunk reliability target.1
            target.2 payload packetId time fragmentIndex fragmentTotal) core
          core.scheduleChunks hash reliability sendTo packetId time fragmentTotal rest

/-- Queue one heartbeat for one connected peer. -/
def scheduleBeat (core : ServiceCore A B E) (reliability : ReliabilityType)
    (connectionId : ConnectionId) (address : SocketAddr) (packetId : PacketId)
    (time : Duration) : ServiceCore A B E :=
  let scheduler := core.scheduler.heartbeatForConnectedPeer address reliability connectionId
    packetId time
  { core with scheduler := scheduler }

/-- The six `create_` functions for a connection: the packet takes its sequence and ack
from the trackers of its peer. -/
def createCarried [Carried M] (message : String) (core : ServiceCore A B E)
    (scheduled : Scheduled R M) (now : Duration) : Exec (Packet ToSend M) := do
  let peer ← expect message (core.connected.lookup (Carried.connectionId scheduled.message))
  pure (scheduled.intoPacket peer.sequenceTracker peer.remoteAckTracker now)

end ServiceCore

namespace Protocol

variable [Service S A B E]

def core (protocol : Protocol S) : ServiceCore A B E :=
  Service.core protocol.service

def setCore (protocol : Protocol S) (core : ServiceCore A B E) : Protocol S :=
  { protocol with service := Service.setCore protocol.service core }

def scheduleHelper (hash : RandomState) (protocol : Protocol S) (reliability : ReliabilityType)
    (sendTo : SendTo) (payload : Payload) (packetId : PacketId) (time : Duration) :
    Exec (Result PacketId × Protocol S) :=
  if isEmpty protocol.core.connected then pure (.error .noPeersConnected, protocol)
  else
    let fragments := (chunks (maxFragmentSize - Message.headerSize Fragment) payload).zipIdx
    let fragmentTotal := fragments.length
    match protocol.core.scheduleChunks hash reliability sendTo packetId time fragmentTotal
        fragments with
    | (.error error, core) => pure (.error error, protocol.setCore core)
    | (.ok (), core) => do
        let next ← addU64 packetId 1
        pure (.ok next, protocol.setCore core)

def heartbeatHelper (hash : RandomState) (protocol : Protocol S) (reliability : ReliabilityType)
    (sendTo : SendTo) (packetId : PacketId) (time : Duration) :
    Exec (Result PacketId × Protocol S) :=
  if isEmpty protocol.core.connected then pure (.error .noPeersConnected, protocol)
  else
    match protocol.core.targets hash sendTo with
    | .error error => pure (.error error, protocol)
    | .ok targets => do
        let core := targets.foldl (fun core target =>
          core.scheduleBeat reliability target.1 target.2 packetId time) protocol.core
        let next ← addU64 packetId 1
        pure (.ok next, protocol.setCore core)

/-- What `schedule` and `heartbeat` do with the result of their helper: the packet id
tracker moves on when the helper succeeded. -/
def countPacket (outcome : Result PacketId × Protocol S) :
    Exec (Result PacketId × Protocol S) :=
  match outcome with
  | (.error error, protocol) => pure (.error error, protocol)
  | (.ok packetId, protocol) => do
      let tracker ← addU64 protocol.packetIdTracker 1
      pure (.ok packetId, { protocol with packetIdTracker := tracker })

def schedule (hash : RandomState) (protocol : Protocol S) (reliability : ReliabilityType)
    (sendTo : SendTo) (payload : Payload) (now : Duration) :
    Exec (Result PacketId × Protocol S) := do
  let outcome ← protocol.scheduleHelper hash reliability sendTo payload protocol.packetIdTracker now
  countPacket outcome

def heartbeat (hash : RandomState) (protocol : Protocol S) (reliability : ReliabilityType)
    (sendTo : SendTo) (now : Duration) : Exec (Result PacketId × Protocol S) := do
  let outcome ← protocol.heartbeatHelper hash reliability sendTo protocol.packetIdTracker now
  countPacket outcome

/-- The six `drain_` functions for a connection, on the queue of one reliability and message. -/
def drain (R M : Type) [Queued R M] (protocol : Protocol S) (start stop : Nat) :
    Exec (List (Scheduled R M) × Protocol S) := do
  let core := protocol.core
  let (drained, queue) ← drainRange (Queued.queue core.scheduler) start stop
  pure (drained, protocol.setCore { core with scheduler := Queued.setQueue core.scheduler queue })

def drainUnreliableDataTransfer (protocol : Protocol S) (start stop : Nat) :
    Exec (List (Scheduled Unreliable DataTransfer) × Protocol S) :=
  protocol.drain Unreliable DataTransfer start stop

def drainUnreliableFragment (protocol : Protocol S) (start stop : Nat) :
    Exec (List (Scheduled Unreliable Fragment) × Protocol S) :=
  protocol.drain Unreliable Fragment start stop

def drainUnreliableHeartbeat (protocol : Protocol S) (start stop : Nat) :
    Exec (List (Scheduled Unreliable Heartbeat) × Protocol S) :=
  protocol.drain Unreliable Heartbeat start stop

def drainReliableDataTransfer (protocol : Protocol S) (start stop : Nat) :
    Exec (List (Scheduled Reliable DataTransfer) × Protocol S) :=
  protocol.drain Reliable DataTransfer start stop

def drainReliableFragment (protocol : Protocol S) (start stop : Nat) :
    Exec (List (Scheduled Reliable Fragment) × Protocol S) :=
  protocol.drain Reliable Fragment start stop

def drainReliableHeartbeat (protocol : Protocol S) (start stop : Nat) :
    Exec (List (Scheduled Reliable Heartbeat) × Protocol S) :=
  protocol.drain Reliable Heartbeat start stop

def createUnreliableDataTransfer (protocol : Protocol S)
    (scheduled : Scheduled Unreliable DataTransfer) (now : Duration) :
    Exec (Packet ToSend DataTransfer) :=
  protocol.core.createCarried "Creating a packet (unreliable data transfer) should never fail!"
    scheduled now

def createReliableDataTransfer (protocol : Protocol S)
    (scheduled : Scheduled Reliable DataTransfer) (now : Duration) :
    Exec (Packet ToSend DataTransfer) :=
  protocol.core.createCarried "Creating a packet (unreliable data transfer) should never fail!"
    scheduled now

def createUnreliableFragment (protocol : Protocol S) (scheduled : Scheduled Unreliable Fragment)
    (now : Duration) : Exec (Packet ToSend Fragment) :=
  protocol.core.createCarried "Creating a packet (unreliable data transfer) should never fail!"
    scheduled now

def createReliableFragment (protocol : Protocol S) (scheduled : Scheduled Reliable Fragment)
    (now : Duration) : Exec (Packet ToSend Fragment) :=
  protocol.core.createCarried "Creating a packet (unreliable data transfer) should never fail!"
    scheduled now

def createUnreliableHeartbeat (protocol : Protocol S) (scheduled : Scheduled Unreliable Heartbeat)
    (now : Duration) : Exec (Packet ToSend Heartbeat) :=
  protocol.core.createCarried "Creating a packet (heartbeat) should never fail!" scheduled now

def createReliableHeartbeat (protocol : Protocol S) (scheduled : Scheduled Reliable Heartbeat)
    (now : Duration) : Exec (Packet ToSend Heartbeat) :=
  protocol.core.createCarried "Creating a packet (heartbeat) should never fail!" scheduled now

/-- `sent_data_transfer`, `sent_fragment` and `sent_heartbeat` of the protocol. -/
def sent [Carried M] (protocol : Protocol S) (packet : Packet ToSend M)
    (reliability : ReliabilityType) (now : Duration) : Exec (Protocol S) := do
  let service ← sentCarried protocol.service packet now reliability protocol.reliableTtl
  pure { protocol with service := service }

def sentDataTransfer (protocol : Protocol S) (packet : Packet ToSend DataTransfer)
    (reliability : ReliabilityType) (now : Duration) : Exec (Protocol S) :=
  protocol.sent packet reliability now

def sentFragment (protocol : Protocol S) (packet : Packet ToSend Fragment)
    (reliability : ReliabilityType) (now : Duration) : Exec (Protocol S) :=
  protocol.sent packet reliability now

def sentHeartbeat (protocol : Protocol S) (packet : Packet ToSend Heartbeat)
    (reliability : ReliabilityType) (now : Duration) : Exec (Protocol S) :=
  protocol.sent packet reliability now

/-- `retry_reliable_data_transfer`, `retry_reliable_fragment` and `retry_reliable_heartbeat`. -/
def retry (M : Type) [Carried M] (protocol : Protocol S) (now : Duration) :
    Exec (Option (Packet ToSend M) × Protocol S) := do
  let core := protocol.core
  let (packet, handler) ← core.reliabilityHandler.retry now
  pure (packet, protocol.setCore { core with reliabilityHandler := handler })

def retryReliableDataTransfer (protocol : Protocol S) (now : Duration) :
    Exec (Option (Packet ToSend DataTransfer) × Protocol S) :=
  protocol.retry DataTransfer now

def retryReliableFragment (protocol : Protocol S) (now : Duration) :
    Exec (Option (Packet ToSend Fragment) × Protocol S) :=
  protocol.retry Fragment now

def retryReliableHeartbeat (protocol : Protocol S) (now : Duration) :
    Exec (Option (Packet ToSend Heartbeat) × Protocol S) :=
  protocol.retry Heartbeat now

end Protocol

namespace Protocol

def newServer (reliableTtl : Duration) : Protocol Server :=
  ⟨0, .new, reliableTtl⟩

def newClient : Protocol Client :=
  ⟨0, .new, .fromSecs 2⟩

/-- Accounting for a packet is left to the `sent_` functions of the service. -/
theorem sent_server (protocol : Protocol Server) (reliability : ReliabilityType) (now : Duration) :
    (∀ packet, protocol.sentDataTransfer packet reliability now = do
        let service ← protocol.service.sentDataTransfer packet now reliability protocol.reliableTtl
        pure { protocol with service := service }) ∧
      (∀ packet, protocol.sentFragment packet reliability now = do
        let service ← protocol.service.sentFragment packet now reliability protocol.reliableTtl
        pure { protocol with service := service }) ∧
      (∀ packet, protocol.sentHeartbeat packet reliability now = do
        let service ← protocol.service.sentHeartbeat packet now reliability protocol.reliableTtl
        pure { protocol with service := service }) :=
  ⟨fun _ => rfl, fun _ => rfl, fun _ => rfl⟩

theorem sent_client (protocol : Protocol Client) (reliability : ReliabilityType) (now : Duration) :
    (∀ packet, protocol.sentDataTransfer packet reliability now = do
        let service ← protocol.service.sentDataTransfer packet now reliability protocol.reliableTtl
        pure { protocol with service := service }) ∧
      (∀ packet, protocol.sentFragment packet reliability now = do
        let service ← protocol.service.sentFragment packet now reliability protocol.reliableTtl
        pure { protocol with service := service }) ∧
      (∀ packet, protocol.sentHeartbeat packet reliability now = do
        let service ← protocol.service.sentHeartbeat packet now reliability protocol.reliableTtl
        pure { protocol with service := service }) :=
  ⟨fun _ => rfl, fun _ => rfl, fun _ => rfl⟩

/-- `Protocol<Server>::on_received`. -/
def serverReceived (crc32 : Crc32) (hash : RandomState) (protocol : Protocol Server)
    (raw : RawPacket) (now : Duration) : Exec (Result Unit × Protocol Server) := do
  let (result, service) ←
    protocol.service.onReceived crc32 hash raw protocol.packetIdTracker now
  let protocol := { protocol with service := service }
  match result with
  | .error error => pure (.error error, protocol)
  | .ok updatePacketId =>
      if updatePacketId then do
        let tracker ← addU64 protocol.packetIdTracker 1
        pure (.ok (), { protocol with packetIdTracker := tracker })
      else pure (.ok (), protocol)

/-- `Protocol<Client>::on_received`. -/
def clientReceived (crc32 : Crc32) (protocol : Protocol Client) (raw : RawPacket)
    (now : Duration) : Exec (Result Unit × Protocol Client) := do
  let (result, service) ← protocol.service.onReceived crc32 raw now
  pure (result, { protocol with service := service })

def createConnectionAccepted (protocol : Protocol Server)
    (scheduled : Scheduled Reliable ConnectionAccepted) (now : Duration) :
    Exec (Packet ToSend ConnectionAccepted) :=
  protocol.service.createConnectionAccepted scheduled now

def sentConnectionAccepted (protocol : Protocol Server) (packet : Packet ToSend ConnectionAccepted)
    (now : Duration) : Exec (Protocol Server) := do
  let service ← protocol.service.sentConnectionAccepted packet now protocol.reliableTtl
  pure { protocol with service := service }

def retryReliableConnectionAccepted (protocol : Protocol Server) (now : Duration) :
    Exec (Option (Packet ToSend ConnectionAccepted) × Protocol Server) := do
  let (packet, service) ← protocol.service.retryReliableConnectionAccepted now
  pure (packet, { protocol with service := service })

/-- `service.drain_connection_accepted`, called through the protocol's field. -/
def drainConnectionAccepted (protocol : Protocol Server) (start stop : Nat) :
    Exec (List (Scheduled Reliable ConnectionAccepted) × Protocol Server) := do
  let (drained, service) ← protocol.service.drainConnectionAccepted start stop
  pure (drained, { protocol with service := service })

def createConnectionRequest (protocol : Protocol Client)
    (scheduled : Scheduled Reliable ConnectionRequest) (now : Duration) :
    Exec (Packet ToSend ConnectionRequest) :=
  protocol.service.createConnectionRequest scheduled now

def sentConnectionRequest (protocol : Protocol Client) (packet : Packet ToSend ConnectionRequest)
    (now : Duration) : Exec (Protocol Client) := do
  let service ← protocol.service.sentConnectionRequest packet now protocol.reliableTtl
  pure { protocol with service := service }

def resendReliableConnectionRequest (protocol : Protocol Client) (now : Duration) :
    Exec (Option (Packet ToSend ConnectionRequest) × Protocol Client) := do
  let (packet, service) ← protocol.service.resendReliableConnectionRequest now
  pure (packet, { protocol with service := service })

/-- `service.drain_connection_request`, called through the protocol's field. -/
def drainConnectionRequest (protocol : Protocol Client) (start stop : Nat) :
    Exec (List (Scheduled Reliable ConnectionRequest) × Protocol Client) := do
  let (drained, service) ← protocol.service.drainConnectionRequest start stop
  pure (drained, { protocol with service := service })

def connect (protocol : Protocol Client) (remoteAddress : SocketAddr) (now : Duration) :
    Exec (Result Unit × Protocol Client) :=
  match protocol.service.connect remoteAddress protocol.packetIdTracker now with
  | (.error error, service) => pure (.error error, { protocol with service := service })
  | (.ok (), service) => do
      let tracker ← addU64 protocol.packetIdTracker 1
      pure (.ok (), { protocol with service := service, packetIdTracker := tracker })

/-- `Protocol<Server>::poll`: two readings of the timer, and a walk over the peers. -/
def serverPoll (hash : RandomState) (peerHash : ConnectionId → RandomState)
    (protocol : Protocol Server) (elapsed now : Duration) :
    Exec (List (ProtocolEvent ServerEvent) × Protocol Server) := do
  let server := protocol.service
  let handler ← server.reliabilityHandler.poll elapsed
  let connected ← updateEach (fun connectionId peer => peer.poll (peerHash connectionId) now)
    (hash.iterate server.connected).entries server.connected
  let polled := { server with reliabilityHandler := handler, connected := connected, api := [] }
  pure (server.api, { protocol with service := polled })

/-- `Protocol<Client>::poll` leaves the reassemblers alone. -/
def clientPoll (protocol : Protocol Client) (elapsed : Duration) :
    Exec (List (ProtocolEvent ClientEvent) × Protocol Client) := do
  let client := protocol.service
  let handler ← client.reliabilityHandler.poll elapsed
  pure (client.api, { protocol with service :=
    { client with reliabilityHandler := handler, api := [] } })

end Protocol

end Antarc
