import Antarc.Protocol.Decode
import Antarc.Protocol.Service

/-! The client's service. A server is known by its address until it has accepted the
connection, and by the connection id that it chose from then on. -/
namespace Antarc

open Library

structure ClientScheduler where
  listScheduledConnectionRequest : List (Scheduled Reliable ConnectionRequest)

structure ClientReliabilityHandler where
  listSentConnectionRequest : List (Packet Sent ConnectionRequest)

inductive ClientEvent where
  | connectionAccepted (connectionId : ConnectionId)
  deriving DecidableEq

instance : ServiceReliability ClientReliabilityHandler where
  poll handler now := do
    if ← firstExpires now handler.listSentConnectionRequest then
      pure { handler with listSentConnectionRequest := handler.listSentConnectionRequest.tail }
    else pure handler

def ClientReliabilityHandler.resendReliableConnectionRequest (handler : ClientReliabilityHandler)
    (now : Duration) :
    Exec (Option (Packet ToSend ConnectionRequest) × ClientReliabilityHandler) := do
  let (packet, list) ← retryLast now handler.listSentConnectionRequest
  pure (packet, { handler with listSentConnectionRequest := list })

structure Client extends ServiceCore ClientScheduler ClientReliabilityHandler ClientEvent where
  requestingConnection : HashMap SocketAddr (Peer RequestingConnection)
  awaitingConnectionAck : HashMap SocketAddr (Peer AwaitingConnectionAck)

namespace Client

def new : Client where
  api := []
  connected := ∅
  scheduler := .new ⟨[]⟩
  reliabilityHandler := .new ⟨[]⟩
  requestingConnection := ∅
  awaitingConnectionAck := ∅

/-- `if let Some(peer) = self.awaiting_connection_ack.remove(&address)`: the peer is
connected under the id of the packet that is being sent to it. -/
def promoteAwaiting (client : Client) (address : SocketAddr) (connectionId : ConnectionId)
    (time : Duration) : Client :=
  match client.awaitingConnectionAck.lookup address with
  | some peer => { client with
      awaitingConnectionAck := client.awaitingConnectionAck.erase address
      connected := client.connected.insert connectionId (peer.connected time connectionId) }
  | none => client

end Client

instance : Service Client ClientScheduler ClientReliabilityHandler ClientEvent where
  core := Client.toServiceCore
  setCore client core := { client with toServiceCore := core }
  promoteAwaiting := Client.promoteAwaiting
  core_setCore _ _ := rfl
  setCore_core _ := rfl
  setCore_setCore _ _ _ := rfl

namespace Client

def sentDataTransfer (client : Client) (packet : Packet ToSend DataTransfer) (time : Duration)
    (reliability : ReliabilityType) (ttl : Duration) : Exec Client :=
  sentCarried client packet time reliability ttl

def sentFragment (client : Client) (packet : Packet ToSend Fragment) (time : Duration)
    (reliability : ReliabilityType) (ttl : Duration) : Exec Client :=
  sentCarried client packet time reliability ttl

def sentHeartbeat (client : Client) (packet : Packet ToSend Heartbeat) (time : Duration)
    (reliability : ReliabilityType) (ttl : Duration) : Exec Client :=
  sentCarried client packet time reliability ttl

def createConnectionRequest (client : Client) (scheduled : Scheduled Reliable ConnectionRequest)
    (time : Duration) : Exec (Packet ToSend ConnectionRequest) := do
  let peer ← expect "Creating a packet (connection request) should never fail!"
    (client.requestingConnection.lookup scheduled.address)
  pure (scheduled.intoPacket peer.sequenceTracker peer.remoteAckTracker time)

def sentConnectionRequest (client : Client) (packet : Packet ToSend ConnectionRequest)
    (time ttl : Duration) : Exec Client := do
  let sent := packet.sent time ttl
  let address := sent.delivery.metadata.address
  let peer ← unwrap (client.requestingConnection.lookup address)
  let peer ← peer.advance
  let list := client.reliabilityHandler.service.listSentConnectionRequest ++ [sent]
  pure { client with
    requestingConnection := client.requestingConnection.erase address
    reliabilityHandler := { client.reliabilityHandler with service := ⟨list⟩ }
    awaitingConnectionAck :=
      client.awaitingConnectionAck.insert address (peer.awaitConnectionAck time) }

def drainConnectionRequest (client : Client) (start stop : Nat) :
    Exec (List (Scheduled Reliable ConnectionRequest) × Client) := do
  let (drained, queue) ←
    drainRange client.scheduler.service.listScheduledConnectionRequest start stop
  pure (drained, { client with scheduler := { client.scheduler with service := ⟨queue⟩ } })

def resendReliableConnectionRequest (client : Client) (now : Duration) :
    Exec (Option (Packet ToSend ConnectionRequest) × Client) := do
  let (packet, handler) ←
    client.reliabilityHandler.service.resendReliableConnectionRequest now
  pure (packet, { client with
    reliabilityHandler := { client.reliabilityHandler with service := handler } })

def onConnectionAccepted (client : Client) (packet : Packet Received ConnectionAccepted)
    (time : Duration) : Result Unit × Client :=
  let address := packet.delivery.metadata.address
  let connectionId := packet.message.connectionId
  if address ∈ client.requestingConnection ∨ connectionId ∈ client.connected then
    (.error (.peerInAnotherState address), client)
  else
    match client.awaitingConnectionAck.lookup address with
    | some peer =>
        let connected := (peer.connected time connectionId).acknowledge packet.sequence packet.ack
        (.ok (), { client with
          awaitingConnectionAck := client.awaitingConnectionAck.erase address
          connected := client.connected.insert connectionId connected })
    | none => (.ok (), client)

/-- Only a data transfer that also completes the handshake is handed to the application. -/
def onDataTransfer (client : Client) (packet : Packet Received DataTransfer) (time : Duration) :
    Result Unit × Client :=
  let address := packet.delivery.metadata.address
  let connectionId := packet.message.connectionId
  match client.connected.lookup connectionId with
  | some peer =>
      let peer := peer.acknowledge packet.sequence packet.ack
      (.ok (), { client with connected := client.connected.insert connectionId peer })
  | none =>
      match client.awaitingConnectionAck.lookup address with
      | some peer =>
          let connected := (peer.acknowledge packet.sequence packet.ack).connected time connectionId
          let event := .dataTransfer connectionId packet.message.payload
          (.ok (), { client with
            awaitingConnectionAck := client.awaitingConnectionAck.erase address
            connected := client.connected.insert connectionId connected
            api := client.api ++ [event] })
      | none => (.ok (), client)

def onFragment (client : Client) (packet : Packet Received Fragment) :
    Exec (Result Unit × Client) :=
  let connectionId := packet.message.connectionId
  match client.connected.lookup connectionId with
  | some peer => do
      let peer := peer.acknowledge packet.sequence packet.ack
      let next := { client with connected := client.connected.insert connectionId peer }
      let peer ← expect "Peer must be connected!" (next.connected.lookup connectionId)
      let (peer, payload) ← peer.reassemble packet
      let next := { next with connected := next.connected.insert connectionId peer }
      match payload with
      | some payload =>
          let event := .dataTransfer connectionId payload
          pure (.ok (), { next with api := next.api ++ [event] })
      | none => pure (.ok (), next)
  | none => pure (.error .noPeersConnected, client)

def onHeartbeat (client : Client) (packet : Packet Received Heartbeat) (time : Duration) :
    Result Unit × Client :=
  let address := packet.delivery.metadata.address
  let connectionId := packet.message.connectionId
  match client.connected.lookup connectionId with
  | some peer =>
      let peer := peer.acknowledge packet.sequence packet.ack
      (.ok (), { client with connected := client.connected.insert connectionId peer })
  | none =>
      match client.awaitingConnectionAck.lookup address with
      | some peer =>
          let connected := (peer.acknowledge packet.sequence packet.ack).connected time connectionId
          (.ok (), { client with
            awaitingConnectionAck := client.awaitingConnectionAck.erase address
            connected := client.connected.insert connectionId connected })
      | none => (.ok (), client)

def onReceived (crc32 : Crc32) (client : Client) (raw : RawPacket) (time : Duration) :
    Exec (Result Unit × Client) := do
  match ← raw.decode crc32 DecodedForClient.tryFrom time with
  | .error error => pure (.error error, client)
  | .ok (.connectionAccepted packet) => pure (client.onConnectionAccepted packet time)
  | .ok (.dataTransfer packet) => pure (client.onDataTransfer packet time)
  | .ok (.fragment packet) => client.onFragment packet
  | .ok (.heartbeat packet) => pure (client.onHeartbeat packet time)

def knownPeer (client : Client) (remoteAddress : SocketAddr) : Bool :=
  decide (remoteAddress ∈ client.requestingConnection) ||
    decide (remoteAddress ∈ client.awaitingConnectionAck) ||
    anyValue client.connected (fun peer => peer.address = remoteAddress)

def connect (client : Client) (remoteAddress : SocketAddr) (packetId : PacketId)
    (time : Duration) : Result Unit × Client :=
  if client.knownPeer remoteAddress then
    (.error (.alreadyConnectingToPeer remoteAddress), client)
  else
    let scheduled := Scheduled.connectionRequest packetId remoteAddress time
    let queue := client.scheduler.service.listScheduledConnectionRequest ++ [scheduled]
    (.ok (), { client with
      scheduler := { client.scheduler with service := ⟨queue⟩ }
      requestingConnection :=
        client.requestingConnection.insert remoteAddress (.new time remoteAddress 0) })

end Client

end Antarc
