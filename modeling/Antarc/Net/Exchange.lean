import Antarc.Net.World

/-! The world together with what its applications have asked for. Each payload that a call of
`schedule` took is noted under the packet id that it was queued with; the parties themselves
keep no such record. -/
namespace Antarc

open Library

structure Order where
  packetId : PacketId
  sendTo : SendTo
  payload : Payload
  deriving DecidableEq

def Order.Covers (order : Order) (id : ConnectionId) : Prop :=
  order.sendTo = .single id ∨ order.sendTo = .broadcast

/-- The orders of each party, the server's at its own address. -/
structure Exchange where
  world : World
  orders : SocketAddr → List Order

namespace Exchange

def noted (orders : List Order) (result : Result PacketId) (order : Order) : List Order :=
  match result with
  | .ok _ => orders ++ [order]
  | .error _ => orders

def note (exchange : Exchange) (address : SocketAddr) (result : Result PacketId) (order : Order) :
    SocketAddr → List Order :=
  Function.update exchange.orders address (noted (exchange.orders address) result order)

inductive Step (crc32 : Crc32) (host : SocketAddr) (exchange : Exchange) : Exchange → Prop where
  | clientScheduled (address : SocketAddr) (client : address ≠ host) (hash : RandomState)
      (reliability : ReliabilityType) (sendTo : SendTo) (payload : Payload) (now : Duration)
      (result : Result PacketId) (net : AntarcNet Client)
      (call : (exchange.world.clients address).schedule hash reliability sendTo payload now =
        .ok (result, net)) :
      Step crc32 host exchange ⟨exchange.world.setClient address net, exchange.note address result
        ⟨(exchange.world.clients address).antarc.packetIdTracker, sendTo, payload⟩⟩
  | serverScheduled (hash : RandomState) (reliability : ReliabilityType) (sendTo : SendTo)
      (payload : Payload) (now : Duration) (result : Result PacketId) (net : AntarcNet Server)
      (call : exchange.world.server.schedule hash reliability sendTo payload now =
        .ok (result, net)) :
      Step crc32 host exchange ⟨{ exchange.world with server := net }, exchange.note host result
        ⟨exchange.world.server.antarc.packetIdTracker, sendTo, payload⟩⟩
  | clientBeat (address : SocketAddr) (client : address ≠ host) (hash : RandomState)
      (reliability : ReliabilityType) (sendTo : SendTo) (now : Duration)
      (result : Result PacketId) (net : AntarcNet Client)
      (call : (exchange.world.clients address).heartbeat hash reliability sendTo now =
        .ok (result, net)) :
      Step crc32 host exchange { exchange with world := exchange.world.setClient address net }
  | serverBeat (hash : RandomState) (reliability : ReliabilityType) (sendTo : SendTo)
      (now : Duration) (result : Result PacketId) (net : AntarcNet Server)
      (call : exchange.world.server.heartbeat hash reliability sendTo now = .ok (result, net)) :
      Step crc32 host exchange { exchange with world := { exchange.world with server := net } }
  | connect (address : SocketAddr) (client : address ≠ host) (now : Duration)
      (result : Result Unit) (net : AntarcNet Client)
      (call : (exchange.world.clients address).connect host now = .ok (result, net)) :
      Step crc32 host exchange { exchange with world := exchange.world.setClient address net }
  | clientSent (address : SocketAddr) (client : address ≠ host) (clock : Clock)
      (net : AntarcNet Client)
      (call : (exchange.world.clients address).clientSend crc32 clock = .ok net) :
      Step crc32 host exchange { exchange with world := exchange.world.setClient address net }
  | serverSent (clock : Clock) (net : AntarcNet Server)
      (call : exchange.world.server.serverSend crc32 clock = .ok net) :
      Step crc32 host exchange { exchange with world := { exchange.world with server := net } }
  | clientReceived (address : SocketAddr) (client : address ≠ host) (raw : RawPacket)
      (arrives : World.InFlight host exchange.world address raw) (received elapsed : Duration)
      (events : List (ProtocolEvent ClientEvent)) (net : AntarcNet Client)
      (call : (exchange.world.clients address).clientReceive crc32 received elapsed (some raw) =
        .ok (events, net)) :
      Step crc32 host exchange { exchange with world := exchange.world.setClient address net }
  | serverReceived (raw : RawPacket) (arrives : World.InFlight host exchange.world host raw)
      (hash : RandomState) (peerHash : ConnectionId → RandomState)
      (received elapsed now : Duration) (events : List (ProtocolEvent ServerEvent))
      (net : AntarcNet Server)
      (call : exchange.world.server.serverReceive crc32 hash peerHash received elapsed now
        (some raw) = .ok (events, net)) :
      Step crc32 host exchange { exchange with world := { exchange.world with server := net } }

end Exchange

def exchanges (crc32 : Crc32) (host : SocketAddr) : Machine Exchange where
  init exchange := (worlds crc32 host).init exchange.world ∧ exchange.orders = fun _ => []
  step := Exchange.Step crc32 host

end Antarc
