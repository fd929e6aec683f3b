import Antarc.Protocol.Primitives

/-! Packets in each of their delivery states, and their bytes. `delivery` says what
is known about a packet (to send, sent, received) and `message` what it carries;
encoding is one header layout for each of the five messages. -/
namespace Antarc

open Library

abbrev PacketId := UInt64
abbrev Sequence := NonZeroU32
abbrev ConnectionId := NonZeroU16
abbrev Ack := UInt32
abbrev Payload := List UInt8
abbrev ProtocolId := NonZeroU32

/-- `crc32fast`: some function of the hashed bytes. -/
abbrev Crc32 := List UInt8 → UInt32

def protocolId : ProtocolId := ⟨0xbabedad, by decide⟩
def protocolIdBytes : List UInt8 := u32.encode protocolId.get

@[simp] theorem length_protocolIdBytes : protocolIdBytes.length = 4 := u32.length_encode _

def maxFragmentSize : Nat := 1500

structure PacketType where
  get : UInt8
  deriving DecidableEq

def packetTypeSentinelStart : UInt8 := 0x0
def connectionRequest : PacketType := ⟨0x1⟩
def connectionAccepted : PacketType := ⟨0x2⟩
def dataTransfer : PacketType := ⟨0x3⟩
def fragment : PacketType := ⟨0x4⟩
def heartbeat : PacketType := ⟨0x5⟩
def packetTypeSentinelEnd : UInt8 := 0x6

def PacketType.new (n : UInt8) : Option PacketType :=
  if n > packetTypeSentinelStart ∧ n < packetTypeSentinelEnd then some ⟨n⟩ else none

def PacketType.toBeBytes (packetType : PacketType) : List UInt8 :=
  u8.encode packetType.get

/-- `PACKET_TYPE_RANGE.contains`. -/
def packetTypeRange (n : UInt8) : Prop :=
  packetTypeSentinelStart + 1 ≤ n ∧ n < packetTypeSentinelEnd

instance (n : UInt8) : Decidable (packetTypeRange n) := inferInstanceAs (Decidable (_ ∧ _))

inductive ProtocolError where
  | invalidProtocolId (got : UInt32) (expected : ProtocolId)
  | invalidCrc32 (got : UInt32) (expected : NonZeroU32)
  | arrayConversion
  | bytesConversion
  | intConversion
  | packetTypeConversion (value : UInt8)
  | invalidPacketType (packetType : PacketType)
  | scheduledNotConnected (connectionId : ConnectionId)
  | scheduledInvalidPeer (packetId : PacketId)
  | notFound (connectionId : ConnectionId)
  | noPeersConnected
  | banned (address : SocketAddr)
  | alreadyConnectingToPeer (address : SocketAddr)
  | peerInAnotherState (address : SocketAddr)
  deriving DecidableEq

abbrev Result := Except ProtocolError

structure MetaDelivery where
  time : Duration
  address : SocketAddr
  deriving DecidableEq

structure ToSend where
  id : PacketId
  metadata : MetaDelivery
  deriving DecidableEq

structure Sent where
  id : PacketId
  ttl : Duration
  metadata : MetaDelivery
  deriving DecidableEq

structure Received where
  metadata : MetaDelivery
  deriving DecidableEq

structure MetaMessage where
  packetType : PacketType
  deriving DecidableEq

structure ConnectionRequest where
  metadata : MetaMessage
  deriving DecidableEq

structure ConnectionAccepted where
  metadata : MetaMessage
  connectionId : ConnectionId
  deriving DecidableEq

structure DataTransfer where
  metadata : MetaMessage
  connectionId : ConnectionId
  payload : Payload
  deriving DecidableEq

structure Fragment where
  metadata : MetaMessage
  connectionId : ConnectionId
  index : UInt8
  total : UInt8
  payload : Payload
  deriving DecidableEq

structure Heartbeat where
  metadata : MetaMessage
  connectionId : ConnectionId
  deriving DecidableEq

/-- The message kind `M`, its type byte and its bytes on the wire. `headerSize`
counts the protocol id, which is hashed and then left off the wire. -/
class Message (M : Type) where
  packetType : PacketType
  headerSize : Nat
  metadata : M → MetaMessage
  encoded : M → List UInt8

instance : Message ConnectionRequest where
  packetType := connectionRequest
  headerSize := 4 + 4 + 4 + 1
  metadata := ConnectionRequest.metadata
  encoded := fun _ => connectionRequest.toBeBytes

instance : Message ConnectionAccepted where
  packetType := connectionAccepted
  headerSize := 4 + 4 + 4 + 1 + 2
  metadata := ConnectionAccepted.metadata
  encoded := fun message => connectionAccepted.toBeBytes ++ u16.encode message.connectionId.get

instance : Message DataTransfer where
  packetType := dataTransfer
  headerSize := 4 + 4 + 4 + 1 + 2
  metadata := DataTransfer.metadata
  encoded := fun message =>
    dataTransfer.toBeBytes ++ u16.encode message.connectionId.get ++ message.payload

instance : Message Fragment where
  packetType := fragment
  headerSize := 4 + 4 + 4 + 1 + 1 + 1 + 2
  metadata := Fragment.metadata
  encoded := fun message =>
    fragment.toBeBytes ++ u8.encode message.index ++ u8.encode message.total ++
      u16.encode message.connectionId.get ++ message.payload

instance : Message Heartbeat where
  packetType := heartbeat
  headerSize := 4 + 4 + 4 + 1 + 2
  metadata := Heartbeat.metadata
  encoded := fun message => heartbeat.toBeBytes ++ u16.encode message.connectionId.get

/-- `fragment_index as u8` and `fragment_total as u8` keep the low byte. -/
def Fragment.new (connectionId : ConnectionId) (payload : Payload)
    (fragmentIndex fragmentTotal : Nat) : Fragment where
  metadata := ⟨fragment⟩
  connectionId := connectionId
  index := UInt8.ofNat fragmentIndex
  total := UInt8.ofNat fragmentTotal
  payload := payload

def DataTransfer.new (connectionId : ConnectionId) (payload : Payload) : DataTransfer :=
  ⟨⟨dataTransfer⟩, connectionId, payload⟩

def Heartbeat.new (connectionId : ConnectionId) : Heartbeat :=
  ⟨⟨heartbeat⟩, connectionId⟩

structure Packet (D M : Type) where
  delivery : D
  sequence : Sequence
  ack : Ack
  message : M
  deriving DecidableEq

def Packet.sent (packet : Packet ToSend M) (time ttl : Duration) : Packet Sent M where
  delivery :=
    { id := packet.delivery.id
      ttl := ttl
      metadata := ⟨time, packet.delivery.metadata.address⟩ }
  sequence := packet.sequence
  ack := packet.ack
  message := packet.message

structure RawPacket where
  address : SocketAddr
  bytes : List UInt8
  deriving DecidableEq

section Encoding

variable [Message M]

/-- What is hashed: the protocol id, the common header and the encoded message. -/
def Packet.hashed (packet : Packet ToSend M) : List UInt8 :=
  protocolIdBytes ++ u32.encode packet.sequence.get ++ u32.encode packet.ack ++
    Message.encoded packet.message

def Packet.checksum (crc32 : Crc32) (packet : Packet ToSend M) : UInt32 :=
  crc32 packet.hashed

/-- The datagram of a packet: the hashed bytes less the protocol id, and the checksum. -/
def Packet.datagram (crc32 : Crc32) (packet : Packet ToSend M) : RawPacket where
  address := packet.delivery.metadata.address
  bytes := (packet.hashed ++ u32.encode (packet.checksum crc32)).drop 4

/-- `as_raw` asserts that the checksum is not zero, then returns the datagram. -/
def Packet.asRaw (crc32 : Crc32) (packet : Packet ToSend M) : Exec RawPacket := do
  debugAssert (packet.checksum crc32 ≠ 0)
  pure (packet.datagram crc32)

theorem Packet.asRaw_eq_ok {crc32 : Crc32} {packet : Packet ToSend M} {raw : RawPacket} :
    packet.asRaw crc32 = .ok raw ↔
      packet.checksum crc32 ≠ 0 ∧ packet.datagram crc32 = raw := by
  simp [Packet.asRaw, bind_eq_ok, debugAssert_eq_ok, pure, Except.pure]

theorem Packet.datagram_bytes (crc32 : Crc32) (packet : Packet ToSend M) :
    (packet.datagram crc32).bytes =
      u32.encode packet.sequence.get ++ u32.encode packet.ack ++
        Message.encoded packet.message ++ u32.encode (packet.checksum crc32) := by
  have hdrop : ∀ rest : List UInt8, (protocolIdBytes ++ rest).drop 4 = rest := by
    intro rest
    rw [List.drop_append_of_le_length (by simp), List.drop_of_length_le (by simp)]
    rfl
  simp only [Packet.datagram, Packet.hashed, List.append_assoc, hdrop]

end Encoding

inductive ReliabilityType where
  | reliable
  | unreliable
  deriving DecidableEq

structure Reliable where
  deriving DecidableEq

structure Unreliable where
  deriving DecidableEq

structure Scheduled (R M : Type) where
  packetId : PacketId
  address : SocketAddr
  time : Duration
  reliability : R
  message : M
  deriving DecidableEq

/-- `into_packet`, the same for every reliability and message. -/
def Scheduled.intoPacket (scheduled : Scheduled R M) (sequence : Sequence) (ack : Ack)
    (time : Duration) : Packet ToSend M where
  delivery := ⟨scheduled.packetId, ⟨time, scheduled.address⟩⟩
  sequence := sequence
  ack := ack
  message := scheduled.message

def Scheduled.connectionRequest (packetId : PacketId) (address : SocketAddr) (time : Duration) :
    Scheduled Reliable ConnectionRequest where
  packetId := packetId
  address := address
  time := time
  reliability := {}
  message := ⟨⟨Antarc.connectionRequest⟩⟩

end Antarc
