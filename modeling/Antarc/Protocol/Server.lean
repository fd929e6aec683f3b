import Antarc.Protocol.Decode
import Antarc.Protocol.Service

/-! The server's service. A peer is requesting, then awaiting the ack of the accept it
is sent, then connected; all three maps are keyed by the connection id it was given. -/
namespace Antarc

open Library

structure ServerScheduler where
  listScheduledConnectionAccepted : List (Scheduled Reliable ConnectionAccepted)

structure ServerReliabilityHandler where
  listSentConnectionAccepted : List (Packet Sent ConnectionAccepted)

inductive ServerEvent where
  | connectionRequest (connectionId : ConnectionId) (remote : SocketAddr)
  deriving DecidableEq

instance : ServiceReliability ServerReliabilityHandler where
  poll handler now := do
    if ← firstExpires now handler.listSentConnectionAccepted then
      pure { handler with listSentConnectionAccepted := handler.listSentConnectionAccepted.tail }
    else pure handler

def ServerReliabilityHandler.retryReliableConnectionAccepted (handler : ServerReliabilityHandler)
    (now : Duration) :
    Exec (Option (Packet ToSend ConnectionAccepted) × ServerReliabilityHandler) := do
  let (packet, list) ← retryLast now handler.listSentConnectionAccepted
  pure (packet, { handler with listSentConnectionAccepted := list })

structure Server extends ServiceCore ServerScheduler ServerReliabilityHandler ServerEvent where
  connectionIdTracker : ConnectionId
  requestingConnection : HashMap ConnectionId (Peer RequestingConnection)
  awaitingConnectionAck : HashMap ConnectionId (Peer AwaitingConnectionAck)
  banList : List SocketAddr

instance : Service Server ServerScheduler ServerReliabilityHandler ServerEvent where
  core := Server.toServiceCore
  setCore server core := { server with toServiceCore := core }
  promoteAwaiting server _ _ _ := server
  core_setCore _ _ := rfl
  setCore_core _ := rfl
  setCore_setCore _ _ _ := rfl

namespace Server

def new : Server where
  api := []
  connected := ∅
  scheduler := .new ⟨[]⟩
  reliabilityHandler := .new ⟨[]⟩
  connectionIdTracker := .one
  requestingConnection := ∅
  awaitingConnectionAck := ∅
  banList := []

def sentDataTransfer (server : Server) (packet : Packet ToSend DataTransfer) (time : Duration)
    (reliability : ReliabilityType) (ttl : Duration) : Exec Server :=
  sentCarried server packet time reliability ttl

def sentFragment (server : Server) (packet : Packet ToSend Fragment) (time : Duration)
    (reliability : ReliabilityType) (ttl : Duration) : Exec Server :=
  sentCarried server packet time reliability ttl

def sentHeartbeat (server : Server) (packet : Packet ToSend Heartbeat) (time : Duration)
    (reliability : ReliabilityType) (ttl : Duration) : Exec Server :=
  sentCarried server packet time reliability ttl

def connectionRequestAnotherState (server : Server) (address : SocketAddr) : Bool :=
  anyValue server.awaitingConnectionAck (fun peer => peer.address = address) ||
    anyValue server.connected (fun peer => peer.address = address)

def unexpectedConnection (server : Server) (address : SocketAddr) : Result Unit :=
  if server.connectionRequestAnotherState address then .error (.peerInAnotherState address)
  else if address ∈ server.banList then .error (.banned address)
  else .ok ()

/-- Moves the peer on to await the ack of the accept that is queued for it here. -/
def acceptConnection (server : Server) (connectionId : ConnectionId) (packetId : PacketId)
    (time : Duration) : Server :=
  match server.requestingConnection.lookup connectionId with
  | some peer =>
      let scheduled : Scheduled Reliable ConnectionAccepted :=
        ⟨packetId, peer.address, time, {}, ⟨⟨connectionAccepted⟩, connectionId⟩⟩
      let queue := server.scheduler.service.listScheduledConnectionAccepted ++ [scheduled]
      { server with
        requestingConnection := server.requestingConnection.erase connectionId
        scheduler := { server.scheduler with service := ⟨queue⟩ }
        awaitingConnectionAck :=
          server.awaitingConnectionAck.insert connectionId (peer.awaitConnectionAck time) }
  | none => { server with api := server.api ++ [.fail (.notFound connectionId)] }

def createConnectionAccepted (server : Server) (scheduled : Scheduled Reliable ConnectionAccepted)
    (time : Duration) : Exec (Packet ToSend ConnectionAccepted) := do
  let peer ← expect "Creating a packet (connection accepted) should never fail!"
    (server.awaitingConnectionAck.lookup scheduled.message.connectionId)
  pure (scheduled.intoPacket peer.sequenceTracker peer.remoteAckTracker time)

def sentConnectionAccepted (server : Server) (packet : Packet ToSend ConnectionAccepted)
    (time ttl : Duration) : Exec Server := do
  let sent := packet.sent time ttl
  let connectionId := sent.message.connectionId
  let awaiting ←
    match server.awaitingConnectionAck.lookup connectionId with
    | some peer => do
        let peer ← peer.advance
        pure (server.awaitingConnectionAck.insert connectionId peer)
    | none => pure server.awaitingConnectionAck
  let list := server.reliabilityHandler.service.listSentConnectionAccepted ++ [sent]
  pure { server with
    awaitingConnectionAck := awaiting
    reliabilityHandler := { server.reliabilityHandler with service := ⟨list⟩ } }

def drainConnectionAccepted (server : Server) (start stop : Nat) :
    Exec (List (Scheduled Reliable ConnectionAccepted) × Server) := do
  let (drained, queue) ←
    drainRange server.scheduler.service.listScheduledConnectionAccepted start stop
  pure (drained, { server with scheduler := { server.scheduler with service := ⟨queue⟩ } })

def retryReliableConnectionAccepted (server : Server) (now : Duration) :
    Exec (Option (Packet ToSend ConnectionAccepted) × Server) := do
  let (packet, handler) ←
    server.reliabilityHandler.service.retryReliableConnectionAccepted now
  pure (packet, { server with
    reliabilityHandler := { server.reliabilityHandler with service := handler } })

/-- The tracker update that the data transfer, fragment and heartbeat arms begin with: on
the connected peer of the id, or on the awaiting one, which becomes connected. -/
def acknowledge (server : Server) (connectionId : ConnectionId) (sequence : Sequence) (ack : Ack)
    (time : Duration) : Option Server :=
  match server.connected.lookup connectionId with
  | some peer => some { server with
      connected := server.connected.insert connectionId (peer.acknowledge sequence ack) }
  | none =>
      match server.awaitingConnectionAck.lookup connectionId with
      | some peer =>
          let connected := (peer.acknowledge sequence ack).connected time connectionId
          some { server with
            awaitingConnectionAck := server.awaitingConnectionAck.erase connectionId
            connected := server.connected.insert connectionId connected }
      | none => none

def onConnectionRequest (hash : RandomState) (server : Server)
    (packet : Packet Received ConnectionRequest) (packetId : PacketId) (time : Duration) :
    Exec (Result Bool × Server) :=
  let address := packet.delivery.metadata.address
  match server.unexpectedConnection address with
  | .error error => pure (.error error, server)
  | .ok () =>
      let requesting := (hash.iterate server.requestingConnection).entries
      match requesting.find? (fun entry => entry.2.address = address) with
      | some ⟨connectionId, peer⟩ => do
          let attempts ← addU32 peer.connection.attempts 1
          let peer := { peer with connection := { peer.connection with attempts := attempts } }
          let server := { server with
            requestingConnection := server.requestingConnection.insert connectionId peer }
          pure (.ok true, server.acceptConnection connectionId packetId time)
      | none => do
          let newPeer := Peer.new time address packet.sequence.get
          let connectionId := server.connectionIdTracker
          let next ← addU16 connectionId.get 1
          let tracker ← unwrap (NonZeroU16.new next)
          let server := { server with
            requestingConnection := server.requestingConnection.insert connectionId newPeer
            connectionIdTracker := tracker }
          pure (.ok true, server.acceptConnection connectionId packetId time)

def onDataTransfer (server : Server) (packet : Packet Received DataTransfer) (time : Duration) :
    Exec (Result Bool × Server) :=
  let connectionId := packet.message.connectionId
  match server.acknowledge connectionId packet.sequence packet.ack time with
  | some next =>
      let event := .dataTransfer connectionId packet.message.payload
      pure (.ok false, { next with api := next.api ++ [event] })
  | none => pure (.error .noPeersConnected, server)

def onFragment (server : Server) (packet : Packet Received Fragment) (time : Duration) :
    Exec (Result Bool × Server) :=
  let connectionId := packet.message.connectionId
  match server.acknowledge connectionId packet.sequence packet.ack time with
  | some next => do
      let peer ← expect "Peer must be connected!" (next.connected.lookup connectionId)
      let (peer, payload) ← peer.reassemble packet
      let next := { next with connected := next.connected.insert connectionId peer }
      match payload with
      | some payload =>
          let event := .dataTransfer connectionId payload
          pure (.ok false, { next with api := next.api ++ [event] })
      | none => pure (.ok false, next)
  | none => pure (.error .noPeersConnected, server)

def onHeartbeat (server : Server) (packet : Packet Received Heartbeat) (time : Duration) :
    Exec (Result Bool × Server) :=
  let connectionId := packet.message.connectionId
  match server.acknowledge connectionId packet.sequence packet.ack time with
  | some next => pure (.ok false, next)
  | none => pure (.ok false, server)

/-- `on_received`. The flag says whether the packet used up a packet id. -/
def onReceived (crc32 : Crc32) (hash : RandomState) (server : Server) (raw : RawPacket)
    (packetId : PacketId) (time : Duration) : Exec (Result Bool × Server) := do
  match ← raw.decode crc32 DecodedForServer.tryFrom time with
  | .error error => pure (.error error, server)
  | .ok (.connectionRequest packet) => server.onConnectionRequest hash packet packetId time
  | .ok (.dataTransfer packet) => server.onDataTransfer packet time
  | .ok (.fragment packet) => server.onFragment packet time
  | .ok (.heartbeat packet) => server.onHeartbeat packet time

end Server

end Antarc
