import Antarc.Protocol.Packets

/-! The datagram decoder. `Err` is the result of a rejected datagram; a slice out of
range, an underflow or a failed debug assertion is a panic. The buffer is walked by
a position that every read moves forward. -/
namespace Antarc

open Library

/-- A decoding step returns, rejects the datagram, or panics. -/
abbrev Decode := ExceptT ProtocolError Exec

@[simp] theorem liftM_ok (value : α) : (liftM (Except.ok value : Exec α) : Decode α) = pure value :=
  rfl

/-- A sequence of decoding steps completes in one of two ways: both parts return,
or one of them rejects the datagram. -/
theorem run_bind_eq_ok {x : Decode α} {f : α → Decode β} {result : Result β} :
    (x >>= f).run = .ok result ↔
      (∃ a, x.run = .ok (.ok a) ∧ (f a).run = .ok result) ∨
        ∃ e, x.run = .ok (.error e) ∧ result = .error e := by
  rw [ExceptT.run_bind, bind_eq_ok]
  constructor
  · rintro ⟨a | a, hx, hf⟩
    · cases hf
      exact .inr ⟨a, hx, rfl⟩
    · exact .inl ⟨a, hx, hf⟩
  · rintro (⟨a, hx, hf⟩ | ⟨e, hx, rfl⟩)
    · exact ⟨.ok a, hx, hf⟩
    · exact ⟨.error e, hx, rfl⟩

def nonZeroU32 (n : UInt32) : Decode NonZeroU32 :=
  match NonZeroU32.new n with
  | some n => pure n
  | none => throw .intConversion

def nonZeroU16 (n : UInt16) : Decode NonZeroU16 :=
  match NonZeroU16.new n with
  | some n => pure n
  | none => throw .intConversion

def PacketType.tryFrom (value : UInt8) : Decode PacketType :=
  match PacketType.new value with
  | some packetType => pure packetType
  | none => throw (.packetTypeConversion value)

/-- `bytes.try_into()?` to an array of the integer's width, then `from_be_bytes`. -/
def fromBeBytes (kind : FixedWidth α) (bytes : List UInt8) : Decode α :=
  if bytes.length = kind.width then pure (kind.decode bytes) else throw .arrayConversion

/-- `read_buffer_inc!`: the value at a position and the position after it. -/
def readBufferInc (kind : FixedWidth α) (buffer : List UInt8) (start : Nat) : Decode (α × Nat) := do
  let stop := start + kind.width
  let bytes ← slice buffer start stop
  let value ← fromBeBytes kind bytes
  pure (value, stop)

structure PartialDecode where
  buffer : List UInt8
  bufferPosition : Nat
  packetType : PacketType
  sequence : Sequence
  ack : Ack
  deriving DecidableEq

inductive DecodedCommon where
  | connectionRequest (packet : Packet Received ConnectionRequest)
  | connectionAccepted (packet : Packet Received ConnectionAccepted)
  | dataTransfer (packet : Packet Received DataTransfer)
  | fragment (packet : Packet Received Fragment)
  | heartbeat (packet : Packet Received Heartbeat)
  deriving DecidableEq

inductive DecodedForClient where
  | connectionAccepted (packet : Packet Received ConnectionAccepted)
  | dataTransfer (packet : Packet Received DataTransfer)
  | fragment (packet : Packet Received Fragment)
  | heartbeat (packet : Packet Received Heartbeat)
  deriving DecidableEq

inductive DecodedForServer where
  | connectionRequest (packet : Packet Received ConnectionRequest)
  | dataTransfer (packet : Packet Received DataTransfer)
  | fragment (packet : Packet Received Fragment)
  | heartbeat (packet : Packet Received Heartbeat)
  deriving DecidableEq

def DecodedForServer.tryFrom : DecodedCommon → Result DecodedForServer
  | .connectionRequest packet => .ok (.connectionRequest packet)
  | .connectionAccepted packet => .error (.invalidPacketType packet.message.metadata.packetType)
  | .dataTransfer packet => .ok (.dataTransfer packet)
  | .fragment packet => .ok (.fragment packet)
  | .heartbeat packet => .ok (.heartbeat packet)

def DecodedForClient.tryFrom : DecodedCommon → Result DecodedForClient
  | .connectionRequest packet => .error (.invalidPacketType packet.message.metadata.packetType)
  | .connectionAccepted packet => .ok (.connectionAccepted packet)
  | .dataTransfer packet => .ok (.dataTransfer packet)
  | .fragment packet => .ok (.fragment packet)
  | .heartbeat packet => .ok (.heartbeat packet)

/-- The layouts after the common header. Each asserts where its header ends. -/
def commonDecode (address : SocketAddr) (decoded : PartialDecode) (time : Duration) :
    Decode DecodedCommon :=
  let buffer := decoded.buffer
  let position := decoded.bufferPosition
  let packetType := decoded.packetType
  let delivery : Received := ⟨⟨time, address⟩⟩
  if packetType = connectionRequest then do
    debugAssert (position = Message.headerSize ConnectionRequest)
    let message : ConnectionRequest := ⟨⟨packetType⟩⟩
    pure (.connectionRequest ⟨delivery, decoded.sequence, decoded.ack, message⟩)
  else if packetType = connectionAccepted then do
    let (readConnectionId, position) ← readBufferInc u16 buffer position
    debugAssert (position = Message.headerSize ConnectionAccepted)
    let message : ConnectionAccepted := ⟨⟨packetType⟩, ← nonZeroU16 readConnectionId⟩
    pure (.connectionAccepted ⟨delivery, decoded.sequence, decoded.ack, message⟩)
  else if packetType = dataTransfer then do
    let (readConnectionId, position) ← readBufferInc u16 buffer position
    debugAssert (position = Message.headerSize DataTransfer)
    let readPayload ← slice buffer position buffer.length
    let message : DataTransfer := ⟨⟨packetType⟩, ← nonZeroU16 readConnectionId, readPayload⟩
    pure (.dataTransfer ⟨delivery, decoded.sequence, decoded.ack, message⟩)
  else if packetType = fragment then do
    let (readFragmentIndex, position) ← readBufferInc u8 buffer position
    let (readFragmentTotal, position) ← readBufferInc u8 buffer position
    let (readConnectionId, position) ← readBufferInc u16 buffer position
    debugAssert (position = Message.headerSize Fragment)
    let readPayload ← slice buffer position buffer.length
    let message : Fragment :=
      ⟨⟨packetType⟩, ← nonZeroU16 readConnectionId, readFragmentIndex, readFragmentTotal,
        readPayload⟩
    pure (.fragment ⟨delivery, decoded.sequence, decoded.ack, message⟩)
  else if packetType = heartbeat then do
    let (readConnectionId, position) ← readBufferInc u16 buffer position
    debugAssert (position = Message.headerSize Heartbeat)
    let message : Heartbeat := ⟨⟨packetType⟩, ← nonZeroU16 readConnectionId⟩
    pure (.heartbeat ⟨delivery, decoded.sequence, decoded.ack, message⟩)
  else throw (.invalidPacketType packetType)

/-- The common header of a buffer whose checksum has been found right. -/
def decodeBuffer (address : SocketAddr) (buffer : List UInt8) (time : Duration) :
    Decode DecodedCommon := do
  let (readProtocolId, position) ← readBufferInc u32 buffer 0
  if protocolId.get ≠ readProtocolId then
    throw (.invalidProtocolId readProtocolId protocolId)
  else do
    let (readSequence, position) ← readBufferInc u32 buffer position
    debugAssert (readSequence ≠ 0)
    let (readAck, position) ← readBufferInc u32 buffer position
    let (readPacketType, position) ← readBufferInc u8 buffer position
    debugAssert (packetTypeRange readPacketType)
    let packetType ← PacketType.tryFrom readPacketType
    let sequence ← nonZeroU32 readSequence
    commonDecode address ⟨buffer, position, packetType, sequence, readAck⟩ time

def RawPacket.innerDecode (crc32 : Crc32) (raw : RawPacket) (time : Duration) :
    Decode DecodedCommon := do
  let length := raw.bytes.length
  let crc32Position ← checkedSub length 4
  let crc32Bytes ← slice raw.bytes crc32Position length
  let readCrc32 ← fromBeBytes u32 crc32Bytes
  let bytesWithoutCrc32 ← slice raw.bytes 0 crc32Position
  let bytesWithProtocolId := protocolIdBytes ++ bytesWithoutCrc32
  let checksum := crc32 bytesWithProtocolId
  if checksum = readCrc32 then
    decodeBuffer raw.address bytesWithProtocolId time
  else do
    let expected ← nonZeroU32 checksum
    throw (.invalidCrc32 readCrc32 expected)

/-- `decode::<S>`: what the decoder accepts, restricted to the kinds the service takes. -/
def RawPacket.decode (crc32 : Crc32) (tryFrom : DecodedCommon → Result α) (raw : RawPacket)
    (time : Duration) : Exec (Result α) := do
  match ← (raw.innerDecode crc32 time).run with
  | .ok decoded => pure (tryFrom decoded)
  | .error error => pure (.error error)

end Antarc
