import Antarc.Properties.Expiry
import Antarc.Properties.Reordering
import Antarc.Properties.Traffic

/-! Runs of a service with the fragments it has received: datagrams arrive, peers are polled,
and the application makes any other call in between. A packet that is accounted as sent need
not have been built. -/
namespace Antarc.Properties

open Library

section Expiries

def expiries {S : Type} (handler : ReliabilityHandler S) : List (Duration × Duration) :=
  handler.listSentReliableDataTransfer.map expiryOf ++
    handler.listSentReliableHeartbeat.map expiryOf ++
    handler.listSentReliableFragment.map expiryOf

class Expires (M : Type) [Carried M] : Prop where
  expiry_mem : ∀ {S : Type} (handler : ReliabilityHandler S), ∀ packet ∈ Carried.listSent handler,
    expiryOf (packet : Packet Sent M) ∈ expiries handler
  of_setListSent : ∀ {S : Type} (handler : ReliabilityHandler S) (packets : List (Packet Sent M)),
    ∀ expiry ∈ expiries (Carried.setListSent handler packets),
      expiry ∈ packets.map expiryOf ∨ expiry ∈ expiries handler
  service_setListSent : ∀ {S : Type} (handler : ReliabilityHandler S)
    (packets : List (Packet Sent M)), (Carried.setListSent handler packets).service = handler.service

instance : Expires DataTransfer where
  expiry_mem _ _ h := List.mem_append_left _ (List.mem_append_left _ (List.mem_map_of_mem h))
  of_setListSent _ _ _ h := mem_three.1 h
  service_setListSent _ _ := rfl

instance : Expires Heartbeat where
  expiry_mem _ _ h := List.mem_append_left _ (List.mem_append_right _ (List.mem_map_of_mem h))
  of_setListSent _ _ _ h := mem_three.2.1 h
  service_setListSent _ _ := rfl

instance : Expires Fragment where
  expiry_mem _ _ h := List.mem_append_right _ (List.mem_map_of_mem h)
  of_setListSent _ _ _ h := mem_three.2.2 h
  service_setListSent _ _ := rfl

end Expiries

section Work

variable {S A B E : Type} [Service S A B E]

def keptFrom (reliability : ReliabilityType) (now : Duration) : Option Duration :=
  match reliability with
  | .reliable => some now
  | .unreliable => none

inductive CommonWork (protocol : Protocol S) : Option Duration → Protocol S → Prop where
  | schedule (hash : RandomState) (reliability : ReliabilityType) (sendTo : SendTo)
      (payload : Payload) (now : Duration) (result : Result PacketId) (next : Protocol S)
      (call : protocol.schedule hash reliability sendTo payload now = .ok (result, next)) :
      CommonWork protocol none next
  | heartbeat (hash : RandomState) (reliability : ReliabilityType) (sendTo : SendTo)
      (now : Duration) (result : Result PacketId) (next : Protocol S)
      (call : protocol.heartbeat hash reliability sendTo now = .ok (result, next)) :
      CommonWork protocol none next
  | drain (R M : Type) [Queued R M] (start stop : Nat) (drained : List (Scheduled R M))
      (next : Protocol S) (call : protocol.drain R M start stop = .ok (drained, next)) :
      CommonWork protocol none next
  | sent (M : Type) [Carried M] [Expires M] (packet : Packet ToSend M)
      (reliability : ReliabilityType) (now : Duration) (next : Protocol S)
      (call : protocol.sent packet reliability now = .ok next) :
      CommonWork protocol (keptFrom reliability now) next
  | retry (M : Type) [Carried M] [Expires M] (now : Duration) (packet : Option (Packet ToSend M))
      (next : Protocol S) (call : protocol.retry M now = .ok (packet, next)) :
      CommonWork protocol none next

inductive ServerWork (protocol : Protocol Server) : Option Duration → Protocol Server → Prop where
  | common {kept : Option Duration} {next : Protocol Server}
      (call : CommonWork protocol kept next) : ServerWork protocol kept next
  | drainConnectionAccepted (start stop : Nat)
      (drained : List (Scheduled Reliable ConnectionAccepted)) (next : Protocol Server)
      (call : protocol.drainConnectionAccepted start stop = .ok (drained, next)) :
      ServerWork protocol none next
  | sentConnectionAccepted (packet : Packet ToSend ConnectionAccepted) (now : Duration)
      (next : Protocol Server) (call : protocol.sentConnectionAccepted packet now = .ok next) :
      ServerWork protocol (some now) next
  | retryConnectionAccepted (now : Duration) (packet : Option (Packet ToSend ConnectionAccepted))
      (next : Protocol Server)
      (call : protocol.retryReliableConnectionAccepted now = .ok (packet, next)) :
      ServerWork protocol none next
  | poll (hash : RandomState) (peerHash : ConnectionId → RandomState) (elapsed now : Duration)
      (events : List (ProtocolEvent ServerEvent)) (next : Protocol Server)
      (call : protocol.serverPoll hash peerHash elapsed now = .ok (events, next)) :
      ServerWork protocol none next

inductive ClientWork (protocol : Protocol Client) : Option Duration → Protocol Client → Prop where
  | common {kept : Option Duration} {next : Protocol Client}
      (call : CommonWork protocol kept next) : ClientWork protocol kept next
  | connect (address : SocketAddr) (now : Duration) (result : Result Unit) (next : Protocol Client)
      (call : protocol.connect address now = .ok (result, next)) : ClientWork protocol none next
  | drainConnectionRequest (start stop : Nat)
      (drained : List (Scheduled Reliable ConnectionRequest)) (next : Protocol Client)
      (call : protocol.drainConnectionRequest start stop = .ok (drained, next)) :
      ClientWork protocol none next
  | sentConnectionRequest (packet : Packet ToSend ConnectionRequest) (now : Duration)
      (next : Protocol Client) (call : protocol.sentConnectionRequest packet now = .ok next) :
      ClientWork protocol (some now) next
  | resendConnectionRequest (now : Duration) (packet : Option (Packet ToSend ConnectionRequest))
      (next : Protocol Client)
      (call : protocol.resendReliableConnectionRequest now = .ok (packet, next)) :
      ClientWork protocol none next
  | poll (elapsed : Duration) (events : List (ProtocolEvent ClientEvent)) (next : Protocol Client)
      (call : protocol.clientPoll elapsed = .ok (events, next)) : ClientWork protocol none next

end Work

section Assemblies

/-- A protocol, the fragments it has received, in order, and the data transfers that were put
together from them. -/
structure Assembly (S : Type) where
  protocol : Protocol S
  received : List (Packet Received Fragment)
  reassembled : List (ConnectionId × Payload)

/-- What a step is about: a packet that is kept from a time on, or fragments that arrive. -/
inductive Label where
  | worked (kept : Option Duration)
  | heard (fragments : List (Packet Received Fragment))
  | polled

variable {S A B E : Type} [Service S A B E]

def putTogether (fragments : List (Packet Received Fragment)) (before after : Protocol S) :
    List (ConnectionId × Payload) :=
  match fragments with
  | [] => []
  | _ :: _ => transfersOf (after.core.api.drop before.core.api.length)

/-- One step of a service: any call that receives nothing, a datagram, or the poll of one of
its connected peers. -/
inductive AssemblyStep (work : Protocol S → Option Duration → Protocol S → Prop)
    (receives : RawPacket → Duration → Protocol S → Protocol S → Prop)
    (read : RawPacket → Duration → List (Packet Received Fragment)) (state : Assembly S) :
    Label → Assembly S → Prop where
  | worked (kept : Option Duration) (next : Protocol S) (call : work state.protocol kept next) :
      AssemblyStep work receives read state (.worked kept) { state with protocol := next }
  | heard (raw : RawPacket) (now : Duration) (next : Protocol S)
      (call : receives raw now state.protocol next) :
      AssemblyStep work receives read state (.heard (read raw now))
        ⟨next, state.received ++ read raw now,
          state.reassembled ++ putTogether (read raw now) state.protocol next⟩
  | polled (hash : RandomState) (id : ConnectionId) (peer polled : Peer Connected)
      (now : Duration) (found : state.protocol.core.connected.lookup id = some peer)
      (call : peer.poll hash now = .ok polled) :
      AssemblyStep work receives read state .polled { state with
        protocol := state.protocol.setCore { state.protocol.core with
          connected := state.protocol.core.connected.insert id polled } }

def readAtServer (crc32 : Crc32) (raw : RawPacket) (now : Duration) :
    List (Packet Received Fragment) :=
  match raw.decode crc32 DecodedForServer.tryFrom now with
  | .ok (.ok (.fragment packet)) => [packet]
  | _ => []

def readAtClient (crc32 : Crc32) (raw : RawPacket) (now : Duration) :
    List (Packet Received Fragment) :=
  match raw.decode crc32 DecodedForClient.tryFrom now with
  | .ok (.ok (.fragment packet)) => [packet]
  | _ => []

def ServerReceives (crc32 : Crc32) (raw : RawPacket) (now : Duration)
    (before after : Protocol Server) : Prop :=
  ∃ hash result, before.serverReceived crc32 hash raw now = .ok (result, after)

def ClientReceives (crc32 : Crc32) (raw : RawPacket) (now : Duration)
    (before after : Protocol Client) : Prop :=
  ∃ result, before.clientReceived crc32 raw now = .ok (result, after)

def ServerAssemblyStep (crc32 : Crc32) : Assembly Server → Label → Assembly Server → Prop :=
  AssemblyStep ServerWork (ServerReceives crc32) (readAtServer crc32)

def ClientAssemblyStep (crc32 : Crc32) : Assembly Client → Label → Assembly Client → Prop :=
  AssemblyStep ClientWork (ClientReceives crc32) (readAtClient crc32)

def serverAssemblies (crc32 : Crc32) : Machine (Assembly Server) where
  init state := ∃ reliableTtl, state = ⟨.newServer reliableTtl, [], []⟩
  step state next := ∃ label, ServerAssemblyStep crc32 state label next

def clientAssemblies (crc32 : Crc32) : Machine (Assembly Client) where
  init state := state = ⟨.newClient, [], []⟩
  step state next := ∃ label, ClientAssemblyStep crc32 state label next

end Assemblies

end Antarc.Properties
