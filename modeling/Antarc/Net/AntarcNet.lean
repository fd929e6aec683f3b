import Antarc.Protocol.Operations

/-! The UDP driver. A pass drains one queue, and creates, encodes, sends and accounts its
entries one by one; a retry pass does so for one stored packet. `poll` runs the passes,
then takes one received datagram, then polls the protocol. The socket is the list of
the transmissions it was handed. -/
namespace Antarc

open Library

/-- A packet that was encoded for the socket. -/
inductive Outgoing where
  | connectionRequest (packet : Packet ToSend ConnectionRequest)
  | connectionAccepted (packet : Packet ToSend ConnectionAccepted)
  | dataTransfer (packet : Packet ToSend DataTransfer)
  | fragment (packet : Packet ToSend Fragment)
  | heartbeat (packet : Packet ToSend Heartbeat)
  deriving DecidableEq

class Sendable (M : Type) extends Message M where
  outgoing : Packet ToSend M → Outgoing

instance : Sendable ConnectionRequest := ⟨.connectionRequest⟩
instance : Sendable ConnectionAccepted := ⟨.connectionAccepted⟩
instance : Sendable DataTransfer := ⟨.dataTransfer⟩
instance : Sendable Fragment := ⟨.fragment⟩
instance : Sendable Heartbeat := ⟨.heartbeat⟩

/-- One datagram on the wire, the packet it encodes, and whether that packet came from a
queue (`first`) or from the packets kept for a retry. -/
structure Transmission where
  raw : RawPacket
  packet : Outgoing
  first : Bool
  deriving DecidableEq

structure AntarcNet (S : Type) where
  antarc : Protocol S
  address : SocketAddr
  socket : List Transmission

/-- A panic ends the run of a driver; what the socket was handed before stays sent. -/
structure Stopped where
  panic : Panic
  socket : List Transmission

abbrev Drive := Except Stopped

/-- The readings of the timer during a poll: `clock pass reading`. -/
abbrev Clock := Nat → Nat → Duration

class Reliability (R : Type) where
  kind : ReliabilityType

instance : Reliability Reliable := ⟨.reliable⟩
instance : Reliability Unreliable := ⟨.unreliable⟩

/-- `recv_buffer` holds this many bytes, and `recv_from` no more of a datagram. -/
def recvBufferSize : Nat := 1500 * 5

namespace AntarcNet

def attempt (net : AntarcNet S) (call : Exec α) : Drive α :=
  match call with
  | .ok value => .ok value
  | .error panic => .error ⟨panic, net.socket⟩

/-- `as_raw`, then `send_to` on the socket. -/
def transmit [Sendable M] (crc32 : Crc32) (net : AntarcNet S) (packet : Packet ToSend M)
    (first : Bool) : Drive (AntarcNet S) := do
  let raw ← net.attempt (packet.asRaw crc32)
  pure { net with socket := net.socket ++ [⟨raw, Sendable.outgoing packet, first⟩] }

section Passes

def sendScheduled [Sendable M] (crc32 : Crc32)
    (create : Protocol S → Scheduled R M → Duration → Exec (Packet ToSend M))
    (account : Protocol S → Packet ToSend M → Duration → Exec (Protocol S))
    (net : AntarcNet S) (scheduled : Scheduled R M) (created accounted : Duration) :
    Drive (AntarcNet S) := do
  let packet ← net.attempt (create net.antarc scheduled created)
  let net ← net.transmit crc32 packet true
  let antarc ← net.attempt (account net.antarc packet accounted)
  pure { net with antarc := antarc }

/-- The loop of a pass; each turn reads the timer twice. -/
def sendEach [Sendable M] (crc32 : Crc32)
    (create : Protocol S → Scheduled R M → Duration → Exec (Packet ToSend M))
    (account : Protocol S → Packet ToSend M → Duration → Exec (Protocol S))
    (clock : Nat → Duration) : List (Scheduled R M) → AntarcNet S → Drive (AntarcNet S)
  | [], net => pure net
  | scheduled :: rest, net => do
      let net ← net.sendScheduled crc32 create account scheduled (clock 0) (clock 1)
      sendEach crc32 create account (fun reading => clock (reading + 2)) rest net

/-- A pass: the queue is drained, then its entries are sent. -/
def pollQueue [Sendable M] (crc32 : Crc32)
    (drain : Protocol S → Exec (List (Scheduled R M) × Protocol S))
    (create : Protocol S → Scheduled R M → Duration → Exec (Packet ToSend M))
    (account : Protocol S → Packet ToSend M → Duration → Exec (Protocol S))
    (clock : Nat → Duration) (net : AntarcNet S) : Drive (AntarcNet S) := do
  let (drained, antarc) ← net.attempt (drain net.antarc)
  sendEach crc32 create account clock drained { net with antarc := antarc }

/-- A retry pass: at most one stored packet is sent again. -/
def pollStored [Sendable M] (crc32 : Crc32)
    (retry : Protocol S → Duration → Exec (Option (Packet ToSend M) × Protocol S))
    (account : Protocol S → Packet ToSend M → Duration → Exec (Protocol S))
    (clock : Nat → Duration) (net : AntarcNet S) : Drive (AntarcNet S) := do
  let (packet, antarc) ← net.attempt (retry net.antarc (clock 0))
  let net := { net with antarc := antarc }
  match packet with
  | some packet => do
      let net ← net.transmit crc32 packet false
      let antarc ← net.attempt (account net.antarc packet (clock 1))
      pure { net with antarc := antarc }
  | none => pure net

end Passes

def forward (net : AntarcNet S) (call : Exec (α × Protocol S)) : Drive (α × AntarcNet S) := do
  let (result, antarc) ← net.attempt call
  pure (result, { net with antarc := antarc })

section Carriage

variable [Service S A B E]

def schedule (hash : RandomState) (net : AntarcNet S) (reliability : ReliabilityType)
    (sendTo : SendTo) (payload : Payload) (now : Duration) :
    Drive (Result PacketId × AntarcNet S) :=
  net.forward (net.antarc.schedule hash reliability sendTo payload now)

def heartbeat (hash : RandomState) (net : AntarcNet S) (reliability : ReliabilityType)
    (sendTo : SendTo) (now : Duration) : Drive (Result PacketId × AntarcNet S) :=
  net.forward (net.antarc.heartbeat hash reliability sendTo now)

/-- `drain(..)` on the queue of one reliability and message. -/
def drainAll (R M : Type) [Queued R M] (protocol : Protocol S) :
    Exec (List (Scheduled R M) × Protocol S) :=
  let queue : List (Scheduled R M) := Queued.queue protocol.core.scheduler
  protocol.drain R M 0 queue.length

def pollScheduled [Queued R M] [Reliability R] [Carried M] [Sendable M] (crc32 : Crc32)
    (create : Protocol S → Scheduled R M → Duration → Exec (Packet ToSend M)) :
    (Nat → Duration) → AntarcNet S → Drive (AntarcNet S) :=
  pollQueue crc32 (drainAll R M) create fun protocol packet now =>
    protocol.sent packet (Reliability.kind R) now

def pollReliableFragment (crc32 : Crc32) : (Nat → Duration) → AntarcNet S → Drive (AntarcNet S) :=
  pollQueue crc32 (fun protocol => protocol.drainReliableFragment 0
      protocol.core.scheduler.listScheduledReliableFragment.length)
    Protocol.createReliableFragment fun protocol packet now =>
      protocol.sentFragment packet .reliable now

def pollReliableDataTransfer (crc32 : Crc32) :
    (Nat → Duration) → AntarcNet S → Drive (AntarcNet S) :=
  pollQueue crc32 (fun protocol => protocol.drainReliableDataTransfer 0
      protocol.core.scheduler.listScheduledReliableDataTransfer.length)
    Protocol.createReliableDataTransfer fun protocol packet now =>
      protocol.sentDataTransfer packet .reliable now

def pollUnreliableFragment (crc32 : Crc32) :
    (Nat → Duration) → AntarcNet S → Drive (AntarcNet S) :=
  pollQueue crc32 (fun protocol => protocol.drainUnreliableFragment 0
      protocol.core.scheduler.listScheduledUnreliableFragment.length)
    Protocol.createUnreliableFragment fun protocol packet now =>
      protocol.sentFragment packet .unreliable now

def pollUnreliableDataTransfer (crc32 : Crc32) :
    (Nat → Duration) → AntarcNet S → Drive (AntarcNet S) :=
  pollQueue crc32 (fun protocol => protocol.drainUnreliableDataTransfer 0
      protocol.core.scheduler.listScheduledUnreliableDataTransfer.length)
    Protocol.createUnreliableDataTransfer fun protocol packet now =>
      protocol.sentDataTransfer packet .unreliable now

def pollUnreliableHeartbeat (crc32 : Crc32) :
    (Nat → Duration) → AntarcNet S → Drive (AntarcNet S) :=
  pollQueue crc32 (fun protocol => protocol.drainUnreliableHeartbeat 0
      protocol.core.scheduler.listScheduledUnreliableHeartbeat.length)
    Protocol.createUnreliableHeartbeat fun protocol packet now =>
      protocol.sentHeartbeat packet .unreliable now

def pollReliableHeartbeat (crc32 : Crc32) :
    (Nat → Duration) → AntarcNet S → Drive (AntarcNet S) :=
  pollQueue crc32 (fun protocol => protocol.drainReliableHeartbeat 0
      protocol.core.scheduler.listScheduledReliableHeartbeat.length)
    Protocol.createReliableHeartbeat fun protocol packet now =>
      protocol.sentHeartbeat packet .reliable now

/-- The retry pass of one message: what is sent again is accounted as reliable. -/
def pollRetry (M : Type) [Carried M] [Sendable M] (crc32 : Crc32) :
    (Nat → Duration) → AntarcNet S → Drive (AntarcNet S) :=
  pollStored crc32 (Protocol.retry M) fun protocol packet now =>
    protocol.sent packet .reliable now

def pollRetryDataTransfer (crc32 : Crc32) :
    (Nat → Duration) → AntarcNet S → Drive (AntarcNet S) :=
  pollStored crc32 Protocol.retryReliableDataTransfer fun protocol packet now =>
    protocol.sentDataTransfer packet .reliable now

def pollRetryFragment (crc32 : Crc32) : (Nat → Duration) → AntarcNet S → Drive (AntarcNet S) :=
  pollStored crc32 Protocol.retryReliableFragment fun protocol packet now =>
    protocol.sentFragment packet .reliable now

/-- The six passes that both drivers run last, in their order. -/
def pollCarried (crc32 : Crc32) (clock : Clock) (pass : Nat) (net : AntarcNet S) :
    Drive (AntarcNet S) := do
  let net ← net.pollUnreliableDataTransfer crc32 (clock pass)
  let net ← net.pollReliableDataTransfer crc32 (clock (pass + 1))
  let net ← net.pollUnreliableFragment crc32 (clock (pass + 2))
  let net ← net.pollReliableFragment crc32 (clock (pass + 3))
  let net ← net.pollUnreliableHeartbeat crc32 (clock (pass + 4))
  net.pollReliableHeartbeat crc32 (clock (pass + 5))

def report (outcome : Result Unit) (net : AntarcNet S) : AntarcNet S :=
  match outcome with
  | .ok () => net
  | .error fail => { net with antarc := net.antarc.setCore (net.antarc.core.pushApi (.fail fail)) }

end Carriage

end AntarcNet

section Calls

variable {S A B E : Type} [Service S A B E]

/-- The calls that both drivers offer between two polls, and what comes of them. -/
inductive CarriedDrive (net : AntarcNet S) : Drive (AntarcNet S) → Prop where
  | schedule (hash : RandomState) (reliability : ReliabilityType) (sendTo : SendTo)
      (payload : Payload) (now : Duration) :
      CarriedDrive net (Prod.snd <$> net.schedule hash reliability sendTo payload now)
  | heartbeat (hash : RandomState) (reliability : ReliabilityType) (sendTo : SendTo)
      (now : Duration) :
      CarriedDrive net (Prod.snd <$> net.heartbeat hash reliability sendTo now)

end Calls

end Antarc
