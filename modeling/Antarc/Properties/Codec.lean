import Antarc.Library.Crc32
import Antarc.Protocol.Decode

/-! What the decoder makes of the bytes the encoder writes, and which bytes make it
panic. Every header field is written and read by the same fixed-width codec, so a
buffer is followed as a sequence of encoded fields and never as digits. -/
namespace Antarc.Properties.Codec

open Library

def At (buffer : List UInt8) (position : Nat) (rest : List UInt8) : Prop :=
  ∃ before, buffer = before ++ rest ∧ before.length = position

theorem At.read {kind : FixedWidth α} {value : α} {buffer rest : List UInt8} {position : Nat}
    (h : At buffer position (kind.encode value ++ rest)) :
    readBufferInc kind buffer position = pure (value, position + kind.width) := by
  obtain ⟨before, rfl, rfl⟩ := h
  have hslice := slice_append before (kind.encode value) rest
  rw [List.append_assoc, FixedWidth.length_encode] at hslice
  simp [readBufferInc, hslice, fromBeBytes]

theorem At.advance {kind : FixedWidth α} {value : α} {buffer rest : List UInt8} {position : Nat}
    (h : At buffer position (kind.encode value ++ rest)) :
    At buffer (position + kind.width) rest := by
  obtain ⟨before, rfl, rfl⟩ := h
  exact ⟨before ++ kind.encode value, by simp, by simp⟩

theorem At.slice_rest {buffer rest : List UInt8} {position : Nat} (h : At buffer position rest) :
    slice buffer position buffer.length = .ok rest := by
  obtain ⟨before, rfl, rfl⟩ := h
  simp [slice]

theorem At.length {buffer rest : List UInt8} {position : Nat} (h : At buffer position rest) :
    buffer.length = position + rest.length := by
  obtain ⟨before, rfl, rfl⟩ := h
  simp

theorem exists_encode (kind : FixedWidth α) (bytes : List UInt8) (h : kind.width ≤ bytes.length) :
    ∃ value rest, bytes = kind.encode value ++ rest :=
  ⟨kind.decode (bytes.take kind.width), bytes.drop kind.width, by
    rw [kind.encode_decode _ (by simp [h]), List.take_append_drop]⟩

theorem returns_read_bind (kind : FixedWidth α) {buffer : List UInt8} {start : Nat}
    {f : α × Nat → Decode β} {result : Result β}
    (h : (readBufferInc kind buffer start >>= f).run = .ok result) :
    start + kind.width ≤ buffer.length ∧
      ∃ value, (f (value, start + kind.width)).run = .ok result := by
  by_cases hfits : start + kind.width ≤ buffer.length
  · obtain ⟨value, rest, hvalue⟩ := exists_encode kind (buffer.drop start)
      (by rw [List.length_drop]; omega)
    have hat : At buffer start (kind.encode value ++ rest) :=
      ⟨buffer.take start, by rw [← hvalue, List.take_append_drop], by simp; omega⟩
    rw [hat.read, pure_bind] at h
    exact ⟨hfits, value, h⟩
  · have hpanic : readBufferInc kind buffer start = liftM (Except.error .index : Exec _) := by
      simp only [readBufferInc, slice, hfits, and_false, if_false]
      rfl
    rw [hpanic] at h
    cases h

theorem debugAssert_of {condition : Prop} [Decidable condition] (h : condition) :
    debugAssert condition = .ok () :=
  debugAssert_eq_ok.mpr h

theorem packetTypeRange_iff (n : UInt8) :
    packetTypeRange n ↔ PacketType.new n = some ⟨n⟩ := by
  have : packetTypeSentinelStart + 1 ≤ n ↔ n > packetTypeSentinelStart := by
    simp only [packetTypeSentinelStart, UInt8.le_iff_toNat_le, GT.gt, UInt8.lt_iff_toNat_lt]
    exact Iff.rfl
  simp [packetTypeRange, PacketType.new, this]

theorem decodeBuffer_header (address : SocketAddr) (time : Duration) {buffer rest : List UInt8}
    {sequence ack : UInt32} {kindByte : UInt8}
    (h : At buffer 0 (u32.encode protocolId.get ++ (u32.encode sequence ++ (u32.encode ack ++
      (u8.encode kindByte ++ rest))))) :
    At buffer 13 rest ∧ decodeBuffer address buffer time = (do
      debugAssert (sequence ≠ 0)
      debugAssert (packetTypeRange kindByte)
      let packetType ← PacketType.tryFrom kindByte
      let sequence ← nonZeroU32 sequence
      commonDecode address ⟨buffer, 13, packetType, sequence, ack⟩ time) := by
  have hsequence : At buffer 4 _ := h.advance
  have hack : At buffer 8 _ := hsequence.advance
  have hkind : At buffer 12 _ := hack.advance
  refine ⟨hkind.advance, ?_⟩
  unfold decodeBuffer
  simp [h.read, hsequence.read, hack.read, hkind.read]

theorem nonZeroU32_get (n : NonZeroU32) : nonZeroU32 n.get = pure n := by
  simp [nonZeroU32]

theorem nonZeroU16_get (n : NonZeroU16) : nonZeroU16 n.get = pure n := by
  simp [nonZeroU16]

section Layouts

variable {address : SocketAddr} {time : Duration} {buffer rest : List UInt8}
  {sequence : Sequence} {ack : Ack}

theorem commonDecode_connectionRequest :
    commonDecode address ⟨buffer, 13, connectionRequest, sequence, ack⟩ time =
      pure (.connectionRequest ⟨⟨⟨time, address⟩⟩, sequence, ack, ⟨⟨connectionRequest⟩⟩⟩) := by
  simp [commonDecode, debugAssert_of, Message.headerSize]

theorem commonDecode_connectionAccepted {id : UInt16} (h : At buffer 13 (u16.encode id ++ rest)) :
    commonDecode address ⟨buffer, 13, connectionAccepted, sequence, ack⟩ time = (do
      let id ← nonZeroU16 id
      pure (.connectionAccepted
        ⟨⟨⟨time, address⟩⟩, sequence, ack, ⟨⟨connectionAccepted⟩, id⟩⟩)) := by
  simp [commonDecode, connectionAccepted, connectionRequest, h.read, debugAssert_of,
    Message.headerSize]

theorem commonDecode_dataTransfer {id : UInt16} (h : At buffer 13 (u16.encode id ++ rest)) :
    commonDecode address ⟨buffer, 13, dataTransfer, sequence, ack⟩ time = (do
      let id ← nonZeroU16 id
      pure (.dataTransfer ⟨⟨⟨time, address⟩⟩, sequence, ack, ⟨⟨dataTransfer⟩, id, rest⟩⟩)) := by
  have hpayload : At buffer 15 _ := h.advance
  simp [commonDecode, dataTransfer, connectionAccepted, connectionRequest, h.read, debugAssert_of,
    Message.headerSize, hpayload.slice_rest]

theorem commonDecode_fragment {index total : UInt8} {id : UInt16}
    (h : At buffer 13 (u8.encode index ++ (u8.encode total ++ (u16.encode id ++ rest)))) :
    commonDecode address ⟨buffer, 13, fragment, sequence, ack⟩ time = (do
      let id ← nonZeroU16 id
      pure (.fragment
        ⟨⟨⟨time, address⟩⟩, sequence, ack, ⟨⟨fragment⟩, id, index, total, rest⟩⟩)) := by
  have htotal : At buffer 14 _ := h.advance
  have hid : At buffer 15 _ := htotal.advance
  have hpayload : At buffer 17 _ := hid.advance
  simp [commonDecode, fragment, dataTransfer, connectionAccepted, connectionRequest, h.read,
    htotal.read, hid.read, debugAssert_of, Message.headerSize, hpayload.slice_rest]

theorem commonDecode_heartbeat {id : UInt16} (h : At buffer 13 (u16.encode id ++ rest)) :
    commonDecode address ⟨buffer, 13, heartbeat, sequence, ack⟩ time = (do
      let id ← nonZeroU16 id
      pure (.heartbeat ⟨⟨⟨time, address⟩⟩, sequence, ack, ⟨⟨heartbeat⟩, id⟩⟩)) := by
  simp [commonDecode, heartbeat, fragment, dataTransfer, connectionAccepted, connectionRequest,
    h.read, debugAssert_of, Message.headerSize]

end Layouts

/-- How many bytes the layout of a message takes after the common header. -/
def bodyWidth (packetType : PacketType) : Nat :=
  if packetType = connectionRequest then 0
  else if packetType = fragment then 4
  else 2

theorem packetType_cases {packetType : PacketType} (h : packetTypeRange packetType.get) :
    packetType = connectionRequest ∨ packetType = connectionAccepted ∨
      packetType = dataTransfer ∨ packetType = fragment ∨ packetType = heartbeat := by
  obtain ⟨n⟩ := packetType
  simp only [packetTypeRange, packetTypeSentinelStart, packetTypeSentinelEnd,
    UInt8.le_iff_toNat_le, UInt8.lt_iff_toNat_lt] at h
  simp only [connectionRequest, connectionAccepted, dataTransfer, fragment, heartbeat,
    PacketType.mk.injEq, ← UInt8.toNat_inj]
  have h1 : (0 + 1 : UInt8).toNat = 1 := rfl
  have h6 : (6 : UInt8).toNat = 6 := rfl
  simp only [UInt8.reduceToNat]
  omega

theorem returns_nonZeroU16 (id : UInt16) (f : NonZeroU16 → DecodedCommon) :
    ∃ result, (nonZeroU16 id >>= fun id => (pure (f id) : Decode DecodedCommon)).run =
      .ok result := by
  cases h : NonZeroU16.new id with
  | none => exact ⟨.error .intConversion, by simp only [nonZeroU16, h]; rfl⟩
  | some id => exact ⟨.ok (f id), by simp only [nonZeroU16, h]; rfl⟩

theorem returns_iff_of_id {buffer rest : List UInt8} (h : At buffer 13 rest)
    {decode : Decode DecodedCommon} {next : UInt16 × Nat → Decode DecodedCommon}
    (hread : decode = readBufferInc u16 buffer 13 >>= next)
    (hreturns : ∀ id after, rest = u16.encode id ++ after → ∃ result, decode.run = .ok result) :
    (∃ result, decode.run = .ok result) ↔ 2 ≤ rest.length := by
  constructor
  · rintro ⟨result, hrun⟩
    rw [hread] at hrun
    have hwidth := (returns_read_bind _ hrun).1
    rw [h.length, u16_width] at hwidth
    omega
  · intro hwidth
    obtain ⟨id, after, hrest⟩ := exists_encode u16 rest hwidth
    exact hreturns id after hrest

theorem fragment_returns_iff (address : SocketAddr) (time : Duration) {buffer rest : List UInt8}
    (sequence : Sequence) (ack : Ack) (h : At buffer 13 rest) :
    (∃ result,
      (commonDecode address ⟨buffer, 13, fragment, sequence, ack⟩ time).run = .ok result) ↔
      4 ≤ rest.length := by
  constructor
  · rintro ⟨result, hrun⟩
    obtain ⟨-, index, hrun⟩ := returns_read_bind u8 hrun
    obtain ⟨-, total, hrun⟩ := returns_read_bind u8 hrun
    have hwidth := (returns_read_bind u16 hrun).1
    simp only [h.length, u16_width, u8_width] at hwidth
    omega
  · intro hwidth
    obtain ⟨index, rest, rfl⟩ := exists_encode u8 rest (by simp; omega)
    obtain ⟨total, rest, rfl⟩ := exists_encode u8 rest (by simp at hwidth ⊢; omega)
    obtain ⟨id, rest, rfl⟩ := exists_encode u16 rest (by simp at hwidth ⊢; omega)
    rw [commonDecode_fragment h]
    exact returns_nonZeroU16 id _

theorem commonDecode_returns_iff (address : SocketAddr) (time : Duration)
    {buffer rest : List UInt8} {packetType : PacketType} (sequence : Sequence) (ack : Ack)
    (h : At buffer 13 rest) (hrange : packetTypeRange packetType.get) :
    (∃ result,
      (commonDecode address ⟨buffer, 13, packetType, sequence, ack⟩ time).run = .ok result) ↔
      bodyWidth packetType ≤ rest.length := by
  rcases packetType_cases hrange with rfl | rfl | rfl | rfl | rfl
  · exact ⟨fun _ => Nat.zero_le _, fun _ => ⟨_, by rw [commonDecode_connectionRequest]; rfl⟩⟩
  · refine returns_iff_of_id h rfl ?_
    rintro id after rfl
    rw [commonDecode_connectionAccepted h]
    exact returns_nonZeroU16 id _
  · refine returns_iff_of_id h rfl ?_
    rintro id after rfl
    rw [commonDecode_dataTransfer h]
    exact returns_nonZeroU16 id _
  · exact fragment_returns_iff address time sequence ack h
  · refine returns_iff_of_id h rfl ?_
    rintro id after rfl
    rw [commonDecode_heartbeat h]
    exact returns_nonZeroU16 id _

/-- The bytes between the protocol id and the checksum hold a whole packet: the common
header with a sequence that is not zero and a known packet type, and its layout. -/
def WellFramed (body : List UInt8) : Prop :=
  let packetType : PacketType := ⟨u8.decode ((body.drop 8).take 1)⟩
  9 ≤ body.length ∧ u32.decode (body.take 4) ≠ 0 ∧ packetTypeRange packetType.get ∧
    9 + bodyWidth packetType ≤ body.length

instance (body : List UInt8) : Decidable (WellFramed body) := inferInstanceAs (Decidable (_ ∧ _))

theorem wellFramed_header (sequence ack : UInt32) (kindByte : UInt8) (rest : List UInt8) :
    WellFramed (u32.encode sequence ++ (u32.encode ack ++ (u8.encode kindByte ++ rest))) ↔
      sequence ≠ 0 ∧ packetTypeRange kindByte ∧ bodyWidth ⟨kindByte⟩ ≤ rest.length := by
  have htake : (u32.encode sequence ++ (u32.encode ack ++ (u8.encode kindByte ++ rest))).take 4 =
      u32.encode sequence := List.take_left' (u32.length_encode _)
  have hdrop : ((u32.encode sequence ++ (u32.encode ack ++ (u8.encode kindByte ++ rest))).drop
      8).take 1 = u8.encode kindByte := by
    rw [← List.append_assoc, List.drop_left' (by simp)]
    exact List.take_left' (u8.length_encode _)
  simp only [WellFramed, htake, hdrop, FixedWidth.decode_encode, List.length_append,
    FixedWidth.length_encode, u32_width, u8_width]
  constructor
  · rintro ⟨-, hsequence, hrange, hwidth⟩
    exact ⟨hsequence, hrange, by omega⟩
  · rintro ⟨hsequence, hrange, hwidth⟩
    exact ⟨by omega, hsequence, hrange, by omega⟩

theorem returns_debugAssert_bind {condition : Prop} [Decidable condition] {next : Decode α} :
    (∃ result, ((debugAssert condition : Decode Unit) >>= fun _ => next).run = .ok result) ↔
      condition ∧ ∃ result, next.run = .ok result := by
  by_cases h : condition
  · rw [debugAssert_of h, liftM_ok, pure_bind]
    exact ⟨fun hreturns => ⟨h, hreturns⟩, And.right⟩
  · rw [show debugAssert condition = .error .debugAssert from if_neg h]
    refine ⟨?_, fun hreturns => absurd hreturns.1 h⟩
    rintro ⟨_, hrun⟩
    cases hrun

theorem exists_header (body : List UInt8) (h : 9 ≤ body.length) :
    ∃ sequence ack kindByte rest,
      body = u32.encode sequence ++ (u32.encode ack ++ (u8.encode kindByte ++ rest)) := by
  obtain ⟨sequence, body, rfl⟩ := exists_encode u32 body (by simp; omega)
  obtain ⟨ack, body, rfl⟩ := exists_encode u32 body (by simp at h ⊢; omega)
  obtain ⟨kindByte, rest, rfl⟩ := exists_encode u8 body (by simp at h ⊢; omega)
  exact ⟨sequence, ack, kindByte, rest, rfl⟩

theorem decodeBuffer_returns_iff (address : SocketAddr) (time : Duration) (body : List UInt8) :
    (∃ result, (decodeBuffer address (protocolIdBytes ++ body) time).run = .ok result) ↔
      WellFramed body := by
  have hstart : At (protocolIdBytes ++ body) 0 (u32.encode protocolId.get ++ body) :=
    ⟨[], rfl, rfl⟩
  by_cases hheader : 9 ≤ body.length
  · obtain ⟨sequence, ack, kindByte, rest, rfl⟩ := exists_header body hheader
    obtain ⟨hrest, hdecode⟩ := decodeBuffer_header address time hstart
    rw [hdecode, wellFramed_header, returns_debugAssert_bind, returns_debugAssert_bind]
    refine and_congr_right fun hsequence => and_congr_right fun hrange => ?_
    have hsequence' := nonZeroU32_get ⟨sequence, hsequence⟩
    simp only [PacketType.tryFrom, (packetTypeRange_iff kindByte).mp hrange, pure_bind,
      hsequence']
    exact commonDecode_returns_iff address time _ ack hrest hrange
  · simp only [WellFramed, hheader, false_and, iff_false, not_exists]
    intro result hrun
    rw [decodeBuffer, hstart.read, pure_bind] at hrun
    simp only [ne_eq, not_true_eq_false, if_false] at hrun
    obtain ⟨-, sequence, hrun⟩ := returns_read_bind _ hrun
    obtain ⟨-, hrun⟩ := returns_debugAssert_bind.mp ⟨result, hrun⟩
    obtain ⟨result, hrun⟩ := hrun
    obtain ⟨-, ack, hrun⟩ := returns_read_bind _ hrun
    have hwidth := (returns_read_bind _ hrun).1
    simp only [hstart.length, List.length_append, FixedWidth.length_encode, u32_width,
      u8_width] at hwidth
    omega

/-- The decoder works on the bytes before the checksum and compares the last four. -/
theorem innerDecode_split (crc32 : Crc32) (source : SocketAddr) (body : List UInt8)
    (readCrc32 : UInt32) (time : Duration) :
    RawPacket.innerDecode crc32 ⟨source, body ++ u32.encode readCrc32⟩ time =
      (if crc32 (protocolIdBytes ++ body) = readCrc32 then
        decodeBuffer source (protocolIdBytes ++ body) time
      else do
        let expected ← nonZeroU32 (crc32 (protocolIdBytes ++ body))
        throw (.invalidCrc32 readCrc32 expected)) := by
  have hlength : (body ++ u32.encode readCrc32).length = body.length + 4 := by simp
  have hsub : checkedSub (body.length + 4) 4 = .ok body.length := by simp [checkedSub]
  have hcrc32 : slice (body ++ u32.encode readCrc32) body.length (body.length + 4) =
      .ok (u32.encode readCrc32) := by
    have h := slice_append body (u32.encode readCrc32) []
    rwa [List.append_nil, FixedWidth.length_encode] at h
  have hbody : slice (body ++ u32.encode readCrc32) 0 body.length = .ok body := by simp [slice]
  simp only [RawPacket.innerDecode, hlength, hsub, hcrc32, hbody, liftM_ok, pure_bind, fromBeBytes,
    FixedWidth.length_encode, FixedWidth.decode_encode, if_true]

/-- The bytes a datagram must have for the decoder to return: room for a checksum, and
under a checksum that is right, a whole packet. -/
def Readable (crc32 : Crc32) (bytes : List UInt8) : Prop :=
  let body := bytes.take (bytes.length - 4)
  4 ≤ bytes.length ∧
    (crc32 (protocolIdBytes ++ body) = u32.decode (bytes.drop (bytes.length - 4)) →
      WellFramed body)

theorem readable_split (crc32 : Crc32) (body : List UInt8) (readCrc32 : UInt32) :
    Readable crc32 (body ++ u32.encode readCrc32) ↔
      (crc32 (protocolIdBytes ++ body) = readCrc32 → WellFramed body) := by
  have hlength : (body ++ u32.encode readCrc32).length - 4 = body.length := by simp
  simp only [Readable, hlength, List.take_left, List.drop_left, FixedWidth.decode_encode,
    and_iff_right_iff_imp]
  simp

theorem exists_checksum (bytes : List UInt8) (h : 4 ≤ bytes.length) :
    ∃ body readCrc32, bytes = body ++ u32.encode readCrc32 := by
  obtain ⟨readCrc32, after, hcrc32⟩ := exists_encode u32 (bytes.drop (bytes.length - 4))
    (by simp; omega)
  have hafter : after = [] := by
    have h := congrArg List.length hcrc32
    simp only [List.length_drop, List.length_append, FixedWidth.length_encode, u32_width] at h
    exact List.eq_nil_of_length_eq_zero (by omega)
  rw [hafter, List.append_nil] at hcrc32
  exact ⟨bytes.take (bytes.length - 4), readCrc32, by rw [← hcrc32, List.take_append_drop]⟩

/-- The decoder returns `Ok` or `Err` exactly on readable bytes, and panics on all others. -/
theorem innerDecode_returns_iff (crc32 : Crc32) (raw : RawPacket) (time : Duration) :
    (∃ result, (raw.innerDecode crc32 time).run = .ok result) ↔ Readable crc32 raw.bytes := by
  obtain ⟨source, bytes⟩ := raw
  by_cases hlength : 4 ≤ bytes.length
  · obtain ⟨body, readCrc32, rfl⟩ := exists_checksum bytes hlength
    rw [innerDecode_split, readable_split]
    split
    · next hcheck => simp only [hcheck, true_imp_iff, decodeBuffer_returns_iff]
    · next hcheck =>
      refine ⟨fun _ h => absurd h hcheck, fun _ => ?_⟩
      cases h : NonZeroU32.new (crc32 (protocolIdBytes ++ body)) with
      | none => exact ⟨.error .intConversion, by simp only [nonZeroU32, h]; rfl⟩
      | some expected => exact ⟨.error (.invalidCrc32 readCrc32 expected), by
          simp only [nonZeroU32, h]; rfl⟩
  · simp only [Readable, hlength, false_and, iff_false, not_exists]
    intro result hrun
    rw [RawPacket.innerDecode, show checkedSub bytes.length 4 = .error .overflow from
      if_neg hlength] at hrun
    cases hrun

/-- A datagram of no bytes is shorter than its checksum: the length subtraction underflows. -/
theorem innerDecode_panics :
    ¬ ∀ (crc32 : Crc32) (raw : RawPacket) (time : Duration),
      ∃ result, (raw.innerDecode crc32 time).run = .ok result := by
  intro h
  obtain ⟨result, hrun⟩ := h ieeeCrc32 ⟨.v4 0 0, []⟩ .zero
  cases hrun

/-- What the receiver holds after a packet has crossed the wire. -/
def arrived (packet : Packet ToSend M) (source : SocketAddr) (time : Duration) :
    Packet Received M :=
  ⟨⟨⟨time, source⟩⟩, packet.sequence, packet.ack, packet.message⟩

/-- A packet of kind `M` survives its own encoding, and each service takes it or refuses it. -/
def RoundTrips (crc32 : Crc32) (M : Type) [Message M]
    (common : Packet Received M → DecodedCommon)
    (forServer : Packet Received M → Result DecodedForServer)
    (forClient : Packet Received M → Result DecodedForClient) : Prop :=
  ∀ (packet : Packet ToSend M) (source : SocketAddr) (time : Duration),
    Message.metadata packet.message = ⟨Message.packetType M⟩ →
    let raw : RawPacket := ⟨source, (packet.datagram crc32).bytes⟩
    (raw.innerDecode crc32 time).run = .ok (.ok (common (arrived packet source time))) ∧
      raw.decode crc32 DecodedForServer.tryFrom time =
        .ok (forServer (arrived packet source time)) ∧
      raw.decode crc32 DecodedForClient.tryFrom time =
        .ok (forClient (arrived packet source time))

theorem innerDecode_datagram (crc32 : Crc32) {M : Type} [Message M] (packet : Packet ToSend M)
    (source : SocketAddr) (time : Duration) (rest : List UInt8)
    (hencoded : Message.encoded packet.message = (Message.packetType M).toBeBytes ++ rest)
    (hrange : packetTypeRange (Message.packetType M).get) :
    At packet.hashed 13 rest ∧
      RawPacket.innerDecode crc32 ⟨source, (packet.datagram crc32).bytes⟩ time =
        commonDecode source
          ⟨packet.hashed, 13, Message.packetType M, packet.sequence, packet.ack⟩ time := by
  have hhashed : packet.hashed = protocolIdBytes ++ (u32.encode packet.sequence.get ++
      (u32.encode packet.ack ++ (u8.encode (Message.packetType M).get ++ rest))) := by
    simp only [Packet.hashed, hencoded, PacketType.toBeBytes, List.append_assoc]
  have hstart : At packet.hashed 0 (u32.encode protocolId.get ++ (u32.encode packet.sequence.get ++
      (u32.encode packet.ack ++ (u8.encode (Message.packetType M).get ++ rest)))) :=
    ⟨[], hhashed, rfl⟩
  obtain ⟨hrest, hdecode⟩ := decodeBuffer_header source time hstart
  refine ⟨hrest, ?_⟩
  rw [Packet.datagram_bytes, innerDecode_split, if_pos]
  · have hbody : protocolIdBytes ++ (u32.encode packet.sequence.get ++ u32.encode packet.ack ++
        Message.encoded packet.message) = packet.hashed := by
      simp only [Packet.hashed, List.append_assoc]
    rw [hbody, hdecode]
    simp [debugAssert_of packet.sequence.ne_zero, debugAssert_of hrange, PacketType.tryFrom,
      (packetTypeRange_iff _).mp hrange, nonZeroU32_get]
  · simp only [Packet.checksum, Packet.hashed, List.append_assoc]

theorem roundTrips_of (crc32 : Crc32) {M : Type} [Message M]
    {common : Packet Received M → DecodedCommon}
    (hinner : ∀ (packet : Packet ToSend M) (source : SocketAddr) (time : Duration),
      Message.metadata packet.message = ⟨Message.packetType M⟩ →
      RawPacket.innerDecode crc32 ⟨source, (packet.datagram crc32).bytes⟩ time =
        pure (common (arrived packet source time))) :
    RoundTrips crc32 M common (fun packet => DecodedForServer.tryFrom (common packet))
      (fun packet => DecodedForClient.tryFrom (common packet)) := by
  intro packet source time hmetadata
  have hrun : (RawPacket.innerDecode crc32 ⟨source, (packet.datagram crc32).bytes⟩ time).run =
      .ok (.ok (common (arrived packet source time))) := by
    rw [hinner packet source time hmetadata]
    rfl
  exact ⟨hrun, by simp only [RawPacket.decode, hrun]; rfl, by
    simp only [RawPacket.decode, hrun]; rfl⟩

theorem roundTrips_connectionRequest (crc32 : Crc32) :
    RoundTrips crc32 ConnectionRequest .connectionRequest
      (fun packet => .ok (.connectionRequest packet))
      (fun packet => .error (.invalidPacketType packet.message.metadata.packetType)) := by
  refine roundTrips_of crc32 fun packet source time hmetadata => ?_
  obtain ⟨-, hdecode⟩ := innerDecode_datagram crc32 packet source time []
    (by simp [Message.encoded, Message.packetType]) (by decide)
  rw [hdecode]
  obtain ⟨delivery, sequence, ack, ⟨metadata⟩⟩ := packet
  cases hmetadata
  exact commonDecode_connectionRequest

theorem roundTrips_connectionAccepted (crc32 : Crc32) :
    RoundTrips crc32 ConnectionAccepted .connectionAccepted
      (fun packet => .error (.invalidPacketType packet.message.metadata.packetType))
      (fun packet => .ok (.connectionAccepted packet)) := by
  refine roundTrips_of crc32 fun packet source time hmetadata => ?_
  obtain ⟨hrest, hdecode⟩ := innerDecode_datagram crc32 packet source time
    (u16.encode packet.message.connectionId.get ++ [])
    (by simp [Message.encoded, Message.packetType]) (by decide)
  obtain ⟨delivery, sequence, ack, ⟨metadata, connectionId⟩⟩ := packet
  cases hmetadata
  rw [hdecode]
  exact (commonDecode_connectionAccepted hrest).trans (by rw [nonZeroU16_get, pure_bind]; rfl)

theorem roundTrips_dataTransfer (crc32 : Crc32) :
    RoundTrips crc32 DataTransfer .dataTransfer
      (fun packet => .ok (.dataTransfer packet)) (fun packet => .ok (.dataTransfer packet)) := by
  refine roundTrips_of crc32 fun packet source time hmetadata => ?_
  obtain ⟨hrest, hdecode⟩ := innerDecode_datagram crc32 packet source time
    (u16.encode packet.message.connectionId.get ++ packet.message.payload)
    (by simp [Message.encoded, Message.packetType]) (by decide)
  obtain ⟨delivery, sequence, ack, ⟨metadata, connectionId, payload⟩⟩ := packet
  cases hmetadata
  rw [hdecode]
  exact (commonDecode_dataTransfer hrest).trans (by rw [nonZeroU16_get, pure_bind]; rfl)

theorem roundTrips_fragment (crc32 : Crc32) :
    RoundTrips crc32 Fragment .fragment
      (fun packet => .ok (.fragment packet)) (fun packet => .ok (.fragment packet)) := by
  refine roundTrips_of crc32 fun packet source time hmetadata => ?_
  obtain ⟨hrest, hdecode⟩ := innerDecode_datagram crc32 packet source time
    (u8.encode packet.message.index ++ (u8.encode packet.message.total ++
      (u16.encode packet.message.connectionId.get ++ packet.message.payload)))
    (by simp [Message.encoded, Message.packetType]) (by decide)
  obtain ⟨delivery, sequence, ack, ⟨metadata, connectionId, index, total, payload⟩⟩ := packet
  cases hmetadata
  rw [hdecode]
  exact (commonDecode_fragment hrest).trans (by rw [nonZeroU16_get, pure_bind]; rfl)

theorem roundTrips_heartbeat (crc32 : Crc32) :
    RoundTrips crc32 Heartbeat .heartbeat
      (fun packet => .ok (.heartbeat packet)) (fun packet => .ok (.heartbeat packet)) := by
  refine roundTrips_of crc32 fun packet source time hmetadata => ?_
  obtain ⟨hrest, hdecode⟩ := innerDecode_datagram crc32 packet source time
    (u16.encode packet.message.connectionId.get ++ [])
    (by simp [Message.encoded, Message.packetType]) (by decide)
  obtain ⟨delivery, sequence, ack, ⟨metadata, connectionId⟩⟩ := packet
  cases hmetadata
  rw [hdecode]
  exact (commonDecode_heartbeat hrest).trans (by rw [nonZeroU16_get, pure_bind]; rfl)

/-- A packet of kind `M` survives its own encoding, and so does whatever `as_raw` returns for it:
the assertion on the checksum keeps some packets back and alters none. -/
def Survives (crc32 : Crc32) (M : Type) [Message M]
    (common : Packet Received M → DecodedCommon)
    (forServer : Packet Received M → Result DecodedForServer)
    (forClient : Packet Received M → Result DecodedForClient) : Prop :=
  RoundTrips crc32 M common forServer forClient ∧
    ∀ (packet : Packet ToSend M) (source : SocketAddr) (time : Duration) (encoded : RawPacket),
      Message.metadata packet.message = ⟨Message.packetType M⟩ →
      packet.asRaw crc32 = .ok encoded →
      let raw : RawPacket := ⟨source, encoded.bytes⟩
      (raw.innerDecode crc32 time).run = .ok (.ok (common (arrived packet source time))) ∧
        raw.decode crc32 DecodedForServer.tryFrom time =
          .ok (forServer (arrived packet source time)) ∧
        raw.decode crc32 DecodedForClient.tryFrom time =
          .ok (forClient (arrived packet source time))

theorem RoundTrips.survives {crc32 : Crc32} {M : Type} [Message M]
    {common : Packet Received M → DecodedCommon}
    {forServer : Packet Received M → Result DecodedForServer}
    {forClient : Packet Received M → Result DecodedForClient}
    (h : RoundTrips crc32 M common forServer forClient) :
    Survives crc32 M common forServer forClient := by
  refine ⟨h, fun packet source time encoded hmetadata hencoded => ?_⟩
  obtain ⟨-, rfl⟩ := Packet.asRaw_eq_ok.mp hencoded
  exact h packet source time hmetadata

/-- Decode undoes encode over the whole wire format. The server refuses nothing but an
accept, the client nothing but a request. -/
theorem every_message_round_trips (crc32 : Crc32) :
    Survives crc32 ConnectionRequest .connectionRequest
        (fun packet => .ok (.connectionRequest packet))
        (fun packet => .error (.invalidPacketType packet.message.metadata.packetType)) ∧
      Survives crc32 ConnectionAccepted .connectionAccepted
        (fun packet => .error (.invalidPacketType packet.message.metadata.packetType))
        (fun packet => .ok (.connectionAccepted packet)) ∧
      Survives crc32 DataTransfer .dataTransfer
        (fun packet => .ok (.dataTransfer packet)) (fun packet => .ok (.dataTransfer packet)) ∧
      Survives crc32 Fragment .fragment
        (fun packet => .ok (.fragment packet)) (fun packet => .ok (.fragment packet)) ∧
      Survives crc32 Heartbeat .heartbeat
        (fun packet => .ok (.heartbeat packet)) (fun packet => .ok (.heartbeat packet)) :=
  ⟨(roundTrips_connectionRequest crc32).survives, (roundTrips_connectionAccepted crc32).survives,
    (roundTrips_dataTransfer crc32).survives, (roundTrips_fragment crc32).survives,
    (roundTrips_heartbeat crc32).survives⟩

end Antarc.Properties.Codec
