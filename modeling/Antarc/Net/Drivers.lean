import Antarc.Net.AntarcNet

/-! The two drivers' own passes, and their polls. -/
namespace Antarc

open Library

namespace AntarcNet

section ClientDriver

def newClient (address : SocketAddr) : AntarcNet Client :=
  ⟨.newClient, address, []⟩

def connect (net : AntarcNet Client) (remoteAddress : SocketAddr) (now : Duration) :
    Drive (Result Unit × AntarcNet Client) :=
  net.forward (net.antarc.connect remoteAddress now)

def pollConnectionRequest (crc32 : Crc32) :
    (Nat → Duration) → AntarcNet Client → Drive (AntarcNet Client) :=
  pollQueue crc32 (fun protocol => protocol.drainConnectionRequest 0
      protocol.service.scheduler.service.listScheduledConnectionRequest.length)
    Protocol.createConnectionRequest Protocol.sentConnectionRequest

def pollRetryConnectionRequest (crc32 : Crc32) :
    (Nat → Duration) → AntarcNet Client → Drive (AntarcNet Client) :=
  pollStored crc32 Protocol.resendReliableConnectionRequest Protocol.sentConnectionRequest

/-- The send passes of the client's `poll`. Stored fragments are never sent again. -/
def clientSend (crc32 : Crc32) (clock : Clock) (net : AntarcNet Client) :
    Drive (AntarcNet Client) := do
  let net ← net.pollRetryConnectionRequest crc32 (clock 0)
  let net ← net.pollRetryDataTransfer crc32 (clock 1)
  let net ← net.pollConnectionRequest crc32 (clock 2)
  net.pollCarried crc32 clock 3

/-- The rest of the client's `poll`, from the received datagram on. -/
def clientReceive (crc32 : Crc32) (received elapsed : Duration) (datagram : Option RawPacket)
    (net : AntarcNet Client) : Drive (List (ProtocolEvent ClientEvent) × AntarcNet Client) := do
  match datagram with
  | some raw => do
      let (outcome, antarc) ← net.attempt (net.antarc.clientReceived crc32 raw received)
      let net := report outcome { net with antarc := antarc }
      let (events, antarc) ← net.attempt (net.antarc.clientPoll elapsed)
      pure (events, { net with antarc := antarc })
  | none => net.attempt (.error .todo)

def clientPoll (crc32 : Crc32) (clock : Clock) (datagram : Option RawPacket)
    (net : AntarcNet Client) : Drive (List (ProtocolEvent ClientEvent) × AntarcNet Client) := do
  let net ← net.clientSend crc32 clock
  net.clientReceive crc32 (clock 9 0) (clock 9 1) datagram

end ClientDriver

section ServerDriver

def newServer (address : SocketAddr) (reliableTtl : Duration) : AntarcNet Server :=
  ⟨.newServer reliableTtl, address, []⟩

def pollConnectionAccepted (crc32 : Crc32) :
    (Nat → Duration) → AntarcNet Server → Drive (AntarcNet Server) :=
  pollQueue crc32 (fun protocol => protocol.drainConnectionAccepted 0
      protocol.service.scheduler.service.listScheduledConnectionAccepted.length)
    Protocol.createConnectionAccepted Protocol.sentConnectionAccepted

def pollRetryConnectionAccepted (crc32 : Crc32) :
    (Nat → Duration) → AntarcNet Server → Drive (AntarcNet Server) :=
  pollStored crc32 Protocol.retryReliableConnectionAccepted Protocol.sentConnectionAccepted

def serverSend (crc32 : Crc32) (clock : Clock) (net : AntarcNet Server) :
    Drive (AntarcNet Server) := do
  let net ← net.pollRetryConnectionAccepted crc32 (clock 0)
  let net ← net.pollRetryDataTransfer crc32 (clock 1)
  let net ← net.pollRetryFragment crc32 (clock 2)
  let net ← net.pollConnectionAccepted crc32 (clock 3)
  net.pollCarried crc32 clock 4

def serverReceive (crc32 : Crc32) (hash : RandomState) (peerHash : ConnectionId → RandomState)
    (received elapsed now : Duration) (datagram : Option RawPacket) (net : AntarcNet Server) :
    Drive (List (ProtocolEvent ServerEvent) × AntarcNet Server) := do
  match datagram with
  | some raw => do
      let (outcome, antarc) ← net.attempt (net.antarc.serverReceived crc32 hash raw received)
      let net := report outcome { net with antarc := antarc }
      let (events, antarc) ← net.attempt (net.antarc.serverPoll hash peerHash elapsed now)
      pure (events, { net with antarc := antarc })
  | none => net.attempt (.error .todo)

def serverPoll (crc32 : Crc32) (hash : RandomState) (peerHash : ConnectionId → RandomState)
    (clock : Clock) (datagram : Option RawPacket) (net : AntarcNet Server) :
    Drive (List (ProtocolEvent ServerEvent) × AntarcNet Server) := do
  let net ← net.serverSend crc32 clock
  net.serverReceive crc32 hash peerHash (clock 10 0) (clock 10 1) (clock 10 2) datagram

end ServerDriver

end AntarcNet

end Antarc
