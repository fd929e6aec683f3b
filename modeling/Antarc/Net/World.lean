import Mathlib.Logic.Function.Basic
import Antarc.Net.Drivers

/-! One server, its clients, and the network between them. The network forges nothing: a
datagram that arrives was sent to where it arrives. It may come late, out of order, more
than once or never, because what was sent stays in flight for good. -/
namespace Antarc

open Library

/-- A client at every address; one that does nothing is as good as none. -/
structure World where
  server : AntarcNet Server
  clients : SocketAddr → AntarcNet Client

namespace World

def setClient (world : World) (address : SocketAddr) (client : AntarcNet Client) : World :=
  { world with clients := Function.update world.clients address client }

/-- What `recv_from` returns of a transmission: its source, and what fits the buffer. -/
def receivedFrom (source : SocketAddr) (transmission : Transmission) : RawPacket :=
  ⟨source, transmission.raw.bytes.take recvBufferSize⟩

/-- A datagram that some party has sent to an address. -/
inductive InFlight (host : SocketAddr) (world : World) (destination : SocketAddr) :
    RawPacket → Prop where
  | fromServer (transmission : Transmission) (sent : transmission ∈ world.server.socket)
      (addressed : transmission.raw.address = destination) :
      InFlight host world destination (receivedFrom host transmission)
  | fromClient (address : SocketAddr) (client : address ≠ host) (transmission : Transmission)
      (sent : transmission ∈ (world.clients address).socket)
      (addressed : transmission.raw.address = destination) :
      InFlight host world destination (receivedFrom address transmission)

/-- One party acts, and the call returns. A poll is two steps, its send passes and the
rest, so that others may act while it waits for a datagram. -/
inductive Step (crc32 : Crc32) (host : SocketAddr) (world : World) : World → Prop where
  | connect (address : SocketAddr) (client : address ≠ host) (now : Duration)
      (result : Result Unit) (net : AntarcNet Client)
      (call : (world.clients address).connect host now = .ok (result, net)) :
      Step crc32 host world (world.setClient address net)
  | clientCalled (address : SocketAddr) (client : address ≠ host)
      (outcome : Drive (AntarcNet Client)) (call : CarriedDrive (world.clients address) outcome)
      (net : AntarcNet Client) (returned : outcome = .ok net) :
      Step crc32 host world (world.setClient address net)
  | clientSent (address : SocketAddr) (client : address ≠ host) (clock : Clock)
      (net : AntarcNet Client) (call : (world.clients address).clientSend crc32 clock = .ok net) :
      Step crc32 host world (world.setClient address net)
  | clientReceived (address : SocketAddr) (client : address ≠ host) (raw : RawPacket)
      (arrives : InFlight host world address raw) (received elapsed : Duration)
      (events : List (ProtocolEvent ClientEvent)) (net : AntarcNet Client)
      (call : (world.clients address).clientReceive crc32 received elapsed (some raw) =
        .ok (events, net)) :
      Step crc32 host world (world.setClient address net)
  | serverCalled (outcome : Drive (AntarcNet Server)) (call : CarriedDrive world.server outcome)
      (net : AntarcNet Server) (returned : outcome = .ok net) :
      Step crc32 host world { world with server := net }
  | serverSent (clock : Clock) (net : AntarcNet Server)
      (call : world.server.serverSend crc32 clock = .ok net) :
      Step crc32 host world { world with server := net }
  | serverReceived (raw : RawPacket) (arrives : InFlight host world host raw)
      (hash : RandomState) (peerHash : ConnectionId → RandomState)
      (received elapsed now : Duration) (events : List (ProtocolEvent ServerEvent))
      (net : AntarcNet Server)
      (call : world.server.serverReceive crc32 hash peerHash received elapsed now (some raw) =
        .ok (events, net)) :
      Step crc32 host world { world with server := net }

end World

def worlds (crc32 : Crc32) (host : SocketAddr) : Machine World where
  init world := ∃ reliableTtl,
    world = ⟨.newServer host reliableTtl, fun address => .newClient address⟩
  step := World.Step crc32 host

end Antarc
