import Antarc.Properties.Queueing
import Antarc.Properties.Receiving

/-! A protocol together with its past: the entries that were ever in its queues, the
packets it built, and those it accounted as sent. A packet is built only from an entry
that was queued, and accounted only if it was built; what is called in between is free. -/
namespace Antarc.Properties

open Library

class HandshakeQueue (S : Type) where
  greetings : S → List QueueEntry

instance : HandshakeQueue Server where
  greetings server := server.scheduler.service.listScheduledConnectionAccepted.map entryOf

instance : HandshakeQueue Client where
  greetings client := client.scheduler.service.listScheduledConnectionRequest.map entryOf

structure History (S : Type) where
  protocol : Protocol S
  placed : List QueueEntry
  greeted : List QueueEntry
  built : List Line
  accounted : List Line

section Moves

variable {S A B E : Type} [Service S A B E]

def queuedEntries (protocol : Protocol S) : List QueueEntry :=
  (queues protocol.core.scheduler).flatten

variable [HandshakeQueue S]

def History.new (protocol : Protocol S) : History S where
  protocol := protocol
  placed := queuedEntries protocol
  greeted := HandshakeQueue.greetings protocol.service
  built := []
  accounted := []

/-- The protocol goes on, and what it has queued is written down. -/
def History.after (history : History S) (protocol : Protocol S) : History S :=
  { history with
    protocol := protocol
    placed := history.placed ++ queuedEntries protocol
    greeted := history.greeted ++ HandshakeQueue.greetings protocol.service }

def History.building (history : History S) (line : Line) : History S :=
  { history with built := history.built ++ [line] }

def History.accounting (history : History S) (line : Line) (protocol : Protocol S) : History S :=
  { history.after protocol with accounted := history.accounted ++ [line] }

inductive CommonMove (history : History S) : History S → Prop where
  | schedule (hash : RandomState) (reliability : ReliabilityType) (sendTo : SendTo)
      (payload : Payload) (now : Duration) (result : Result PacketId) (protocol : Protocol S)
      (call : history.protocol.schedule hash reliability sendTo payload now =
        .ok (result, protocol)) : CommonMove history (history.after protocol)
  | heartbeat (hash : RandomState) (reliability : ReliabilityType) (sendTo : SendTo)
      (now : Duration) (result : Result PacketId) (protocol : Protocol S)
      (call : history.protocol.heartbeat hash reliability sendTo now = .ok (result, protocol)) :
      CommonMove history (history.after protocol)
  | drain (R M : Type) [Queued R M] [Sendable M] [Bodied M] [QueueView R M] (start stop : Nat)
      (drained : List (Scheduled R M)) (protocol : Protocol S)
      (call : history.protocol.drain R M start stop = .ok (drained, protocol)) :
      CommonMove history (history.after protocol)
  | create (R M : Type) [Carried M] [Sendable M] [Bodied M] [Travels M] (message : String)
      (scheduled : Scheduled R M) (now : Duration) (packet : Packet ToSend M)
      (placed : entryOf scheduled ∈ history.placed)
      (call : history.protocol.core.createCarried message scheduled now = .ok packet) :
      CommonMove history (history.building (lineToSend Bodied.body packet))
  | sent (M : Type) [Carried M] [Sendable M] [Bodied M] [Travels M] (packet : Packet ToSend M)
      (reliability : ReliabilityType) (now : Duration) (protocol : Protocol S)
      (built : lineToSend Bodied.body packet ∈ history.built)
      (call : history.protocol.sent packet reliability now = .ok protocol) :
      CommonMove history (history.accounting (lineToSend Bodied.body packet) protocol)
  | retry (M : Type) [Carried M] [Sendable M] [Bodied M] [Travels M] (now : Duration)
      (packet : Option (Packet ToSend M)) (protocol : Protocol S)
      (call : history.protocol.retry M now = .ok (packet, protocol)) :
      CommonMove history (history.after protocol)

end Moves

section Roles

/-- The header of the packet that the server makes of a datagram. -/
def headerRead (crc32 : Crc32) (raw : RawPacket) (now : Duration) : Option Header :=
  match raw.decode crc32 DecodedForServer.tryFrom now with
  | .ok (.ok decoded) => forServerHeader decoded
  | _ => none

inductive ServerMove (crc32 : Crc32) (history : History Server) :
    Option Header → History Server → Prop where
  | common {next : History Server} (move : CommonMove history next) :
      ServerMove crc32 history none next
  | received (hash : RandomState) (raw : RawPacket) (now : Duration) (result : Result Unit)
      (protocol : Protocol Server)
      (call : history.protocol.serverReceived crc32 hash raw now = .ok (result, protocol)) :
      ServerMove crc32 history (headerRead crc32 raw now) (history.after protocol)
  | create (scheduled : Scheduled Reliable ConnectionAccepted) (now : Duration)
      (packet : Packet ToSend ConnectionAccepted) (greeted : entryOf scheduled ∈ history.greeted)
      (call : history.protocol.createConnectionAccepted scheduled now = .ok packet) :
      ServerMove crc32 history none (history.building (lineToSend Bodied.body packet))
  | sent (packet : Packet ToSend ConnectionAccepted) (now : Duration) (protocol : Protocol Server)
      (built : lineToSend Bodied.body packet ∈ history.built)
      (call : history.protocol.sentConnectionAccepted packet now = .ok protocol) :
      ServerMove crc32 history none
        (history.accounting (lineToSend Bodied.body packet) protocol)
  | drain (start stop : Nat) (drained : List (Scheduled Reliable ConnectionAccepted))
      (protocol : Protocol Server)
      (call : history.protocol.drainConnectionAccepted start stop = .ok (drained, protocol)) :
      ServerMove crc32 history none (history.after protocol)
  | retry (now : Duration) (packet : Option (Packet ToSend ConnectionAccepted))
      (protocol : Protocol Server)
      (call : history.protocol.retryReliableConnectionAccepted now = .ok (packet, protocol)) :
      ServerMove crc32 history none (history.after protocol)
  | poll (hash : RandomState) (peerHash : ConnectionId → RandomState) (elapsed now : Duration)
      (events : List (ProtocolEvent ServerEvent)) (protocol : Protocol Server)
      (call : history.protocol.serverPoll hash peerHash elapsed now = .ok (events, protocol)) :
      ServerMove crc32 history none (history.after protocol)

inductive ClientMove (crc32 : Crc32) (history : History Client) : History Client → Prop where
  | common {next : History Client} (move : CommonMove history next) : ClientMove crc32 history next
  | connect (address : SocketAddr) (now : Duration) (result : Result Unit)
      (protocol : Protocol Client)
      (call : history.protocol.connect address now = .ok (result, protocol)) :
      ClientMove crc32 history (history.after protocol)
  | received (raw : RawPacket) (now : Duration) (result : Result Unit) (protocol : Protocol Client)
      (call : history.protocol.clientReceived crc32 raw now = .ok (result, protocol)) :
      ClientMove crc32 history (history.after protocol)
  | create (scheduled : Scheduled Reliable ConnectionRequest) (now : Duration)
      (packet : Packet ToSend ConnectionRequest) (greeted : entryOf scheduled ∈ history.greeted)
      (call : history.protocol.createConnectionRequest scheduled now = .ok packet) :
      ClientMove crc32 history (history.building (lineToSend Bodied.body packet))
  | sent (packet : Packet ToSend ConnectionRequest) (now : Duration) (protocol : Protocol Client)
      (built : lineToSend Bodied.body packet ∈ history.built)
      (call : history.protocol.sentConnectionRequest packet now = .ok protocol) :
      ClientMove crc32 history (history.accounting (lineToSend Bodied.body packet) protocol)
  | drain (start stop : Nat) (drained : List (Scheduled Reliable ConnectionRequest))
      (protocol : Protocol Client)
      (call : history.protocol.drainConnectionRequest start stop = .ok (drained, protocol)) :
      ClientMove crc32 history (history.after protocol)
  | resend (now : Duration) (packet : Option (Packet ToSend ConnectionRequest))
      (protocol : Protocol Client)
      (call : history.protocol.resendReliableConnectionRequest now = .ok (packet, protocol)) :
      ClientMove crc32 history (history.after protocol)
  | poll (elapsed : Duration) (events : List (ProtocolEvent ClientEvent))
      (protocol : Protocol Client)
      (call : history.protocol.clientPoll elapsed = .ok (events, protocol)) :
      ClientMove crc32 history (history.after protocol)

def serverHistories (crc32 : Crc32) : Machine (History Server) where
  init history := ∃ reliableTtl, history = .new (.newServer reliableTtl)
  step history next := ∃ heard, ServerMove crc32 history heard next

def clientHistories (crc32 : Crc32) : Machine (History Client) where
  init history := history = .new .newClient
  step := ClientMove crc32

end Roles

end Antarc.Properties
