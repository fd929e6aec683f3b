import Antarc.Net.World

/-! One client and one server, polled over a network that may lose what they send. A datagram
is in flight until it is lost or received. A poll is two steps, its send passes and then,
when a datagram has arrived, the rest: in between the party waits in `recv_from`, and no
other call is made on it. -/
namespace Antarc

open Library

/-- A transmission on its way, and the address it was sent from. -/
structure Datagram where
  source : SocketAddr
  transmission : Transmission
  deriving DecidableEq

namespace Datagram

def raw (datagram : Datagram) : RawPacket :=
  World.receivedFrom datagram.source datagram.transmission

/-- The client at this address asks the server at `host` for a connection. -/
def asks (address host : SocketAddr) (datagram : Datagram) : Bool :=
  match datagram.transmission.packet with
  | .connectionRequest _ =>
      decide (datagram.source = address ∧ datagram.transmission.raw.address = host)
  | _ => false

def accepts (address host : SocketAddr) (datagram : Datagram) : Bool :=
  match datagram.transmission.packet with
  | .connectionAccepted _ =>
      decide (datagram.source = host ∧ datagram.transmission.raw.address = address)
  | _ => false

end Datagram

/-- When a packet was sent, by its sender's note of it, and the sender's `reliable_ttl`. -/
structure Noted where
  time : Nat
  ttl : Duration

/-- What is noted of the newest packet that is kept for a peer. The timer reads the
nanoseconds since `started`. -/
def noted (started : Nat) (peer : SocketAddr) (kept : List (Packet Sent M)) : Option Noted :=
  (kept.filter fun packet => packet.delivery.metadata.address = peer).getLast?.map fun packet =>
    ⟨started + packet.delivery.metadata.time.nanos, packet.delivery.ttl⟩

def newlySent (source : SocketAddr) (before after : AntarcNet S) : List Datagram :=
  (after.socket.drop before.socket.length).map fun transmission => ⟨source, transmission⟩

/-- Both parties, what is in flight between them, and what was noted of the last packet of
their handshake. The times are nanoseconds of one clock, which both timers follow. -/
structure Pair where
  client : AntarcNet Client
  server : AntarcNet Server
  clientStarted : Nat
  serverStarted : Nat
  clientWaits : Bool
  serverWaits : Bool
  inFlight : List Datagram
  lastHandshake : Option Noted
  now : Nat

namespace Pair

def ClientReads (pair : Pair) (later : Nat) (reading : Duration) : Prop :=
  pair.now ≤ pair.clientStarted + reading.nanos ∧ pair.clientStarted + reading.nanos ≤ later

def ServerReads (pair : Pair) (later : Nat) (reading : Duration) : Prop :=
  pair.now ≤ pair.serverStarted + reading.nanos ∧ pair.serverStarted + reading.nanos ≤ later

/-- The client's send passes have run, and it waits for a datagram. -/
def clientSent (address host : SocketAddr) (pair : Pair) (net : AntarcNet Client)
    (later : Nat) : Pair :=
  let sent := newlySent address pair.client net
  let kept := net.antarc.service.reliabilityHandler.service.listSentConnectionRequest
  { pair with
    client := net
    clientWaits := true
    inFlight := pair.inFlight ++ sent
    lastHandshake :=
      if sent.any (Datagram.asks address host) then noted pair.clientStarted host kept
      else pair.lastHandshake
    now := later }

def serverSent (address host : SocketAddr) (pair : Pair) (net : AntarcNet Server)
    (later : Nat) : Pair :=
  let sent := newlySent host pair.server net
  let kept := net.antarc.service.reliabilityHandler.service.listSentConnectionAccepted
  { pair with
    server := net
    serverWaits := true
    inFlight := pair.inFlight ++ sent
    lastHandshake :=
      if sent.any (Datagram.accepts address host) then noted pair.serverStarted address kept
      else pair.lastHandshake
    now := later }

def clientReceived (pair : Pair) (datagram : Datagram) (net : AntarcNet Client) (later : Nat) :
    Pair :=
  { pair with
    client := net
    clientWaits := false
    inFlight := pair.inFlight.erase datagram
    now := later }

def serverReceived (pair : Pair) (datagram : Datagram) (net : AntarcNet Server) (later : Nat) :
    Pair :=
  { pair with
    server := net
    serverWaits := false
    inFlight := pair.inFlight.erase datagram
    now := later }

inductive Act where
  | elapse
  | connect (remoteAddress : SocketAddr) (now : Duration)
  | clientCall
  | clientSend (clock : Clock)
  | clientReceive (datagram : Datagram) (received elapsed : Duration)
  | serverCall
  | serverSend (clock : Clock)
  | serverReceive (datagram : Datagram) (received elapsed now : Duration)
  | lose (datagram : Datagram)

/-- One act, if the call that it makes returns. -/
inductive Step (crc32 : Crc32) (address host : SocketAddr) (pair : Pair) : Act → Pair → Prop where
  | elapse (later : Nat) (passes : pair.now ≤ later) :
      Step crc32 address host pair .elapse { pair with now := later }
  | connect (remoteAddress : SocketAddr) (now : Duration) (later : Nat)
      (reads : pair.ClientReads later now) (idle : pair.clientWaits = false)
      (result : Result Unit) (net : AntarcNet Client)
      (call : pair.client.connect remoteAddress now = .ok (result, net)) :
      Step crc32 address host pair (.connect remoteAddress now)
        { pair with client := net, now := later }
  | clientCall (later : Nat) (passes : pair.now ≤ later) (idle : pair.clientWaits = false)
      (outcome : Drive (AntarcNet Client)) (call : CarriedDrive pair.client outcome)
      (net : AntarcNet Client) (returned : outcome = .ok net) :
      Step crc32 address host pair .clientCall { pair with client := net, now := later }
  | clientSend (clock : Clock) (later : Nat) (passes : pair.now ≤ later)
      (reads : ∀ pass reading, pair.ClientReads later (clock pass reading))
      (idle : pair.clientWaits = false) (net : AntarcNet Client)
      (call : pair.client.clientSend crc32 clock = .ok net) :
      Step crc32 address host pair (.clientSend clock) (pair.clientSent address host net later)
  | clientReceive (datagram : Datagram) (received elapsed : Duration) (later : Nat)
      (readsReceived : pair.ClientReads later received)
      (readsElapsed : pair.ClientReads later elapsed) (waits : pair.clientWaits = true)
      (arrives : datagram ∈ pair.inFlight)
      (addressed : datagram.transmission.raw.address = address)
      (events : List (ProtocolEvent ClientEvent)) (net : AntarcNet Client)
      (call : pair.client.clientReceive crc32 received elapsed (some datagram.raw) =
        .ok (events, net)) :
      Step crc32 address host pair (.clientReceive datagram received elapsed)
        (pair.clientReceived datagram net later)
  | serverCall (later : Nat) (passes : pair.now ≤ later) (idle : pair.serverWaits = false)
      (outcome : Drive (AntarcNet Server)) (call : CarriedDrive pair.server outcome)
      (net : AntarcNet Server) (returned : outcome = .ok net) :
      Step crc32 address host pair .serverCall { pair with server := net, now := later }
  | serverSend (clock : Clock) (later : Nat) (passes : pair.now ≤ later)
      (reads : ∀ pass reading, pair.ServerReads later (clock pass reading))
      (idle : pair.serverWaits = false) (net : AntarcNet Server)
      (call : pair.server.serverSend crc32 clock = .ok net) :
      Step crc32 address host pair (.serverSend clock) (pair.serverSent address host net later)
  | serverReceive (datagram : Datagram) (hash : RandomState)
      (peerHash : ConnectionId → RandomState) (received elapsed now : Duration) (later : Nat)
      (readsReceived : pair.ServerReads later received)
      (readsElapsed : pair.ServerReads later elapsed) (readsNow : pair.ServerReads later now)
      (waits : pair.serverWaits = true) (arrives : datagram ∈ pair.inFlight)
      (addressed : datagram.transmission.raw.address = host)
      (events : List (ProtocolEvent ServerEvent)) (net : AntarcNet Server)
      (call : pair.server.serverReceive crc32 hash peerHash received elapsed now
        (some datagram.raw) = .ok (events, net)) :
      Step crc32 address host pair (.serverReceive datagram received elapsed now)
        (pair.serverReceived datagram net later)
  | lose (datagram : Datagram) :
      Step crc32 address host pair (.lose datagram)
        { pair with inFlight := pair.inFlight.erase datagram }

def new (address host : SocketAddr) (reliableTtl : Duration)
    (clientStarted serverStarted now : Nat) : Pair where
  client := .newClient address
  server := .newServer host reliableTtl
  clientStarted := clientStarted
  serverStarted := serverStarted
  clientWaits := false
  serverWaits := false
  inFlight := []
  lastHandshake := none
  now := now

end Pair

def pairs (crc32 : Crc32) (address host : SocketAddr) (condition : Pair → Pair.Act → Prop) :
    Machine Pair where
  init pair := address ≠ host ∧ ∃ reliableTtl clientStarted serverStarted now,
    clientStarted ≤ now ∧ serverStarted ≤ now ∧
      pair = .new address host reliableTtl clientStarted serverStarted now
  step pair next := ∃ act, condition pair act ∧ Pair.Step crc32 address host pair act next

end Antarc
