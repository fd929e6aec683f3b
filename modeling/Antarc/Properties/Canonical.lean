import Antarc.Properties.Codec

/-! Which bytes the decoder accepts, and what they become when the decoded packet is
encoded again. A layout is read from the front and nothing checks that the buffer ends
with it, so a fixed-size layout leaves the bytes before the checksum unread. -/
namespace Antarc.Properties.Canonical

open Library Codec

def ofKind (f : ∀ M [Message M], Packet Received M → α) : DecodedCommon → α
  | .connectionRequest packet => f _ packet
  | .connectionAccepted packet => f _ packet
  | .dataTransfer packet => f _ packet
  | .fragment packet => f _ packet
  | .heartbeat packet => f _ packet

/-- The kinds whose layout has one size; the others take the rest of the buffer. -/
def FixedSize : DecodedCommon → Prop
  | .dataTransfer _ => False
  | .fragment _ => False
  | _ => True

def header : DecodedCommon → Received × Sequence × Ack × MetaMessage :=
  ofKind fun _ _ packet =>
    (packet.delivery, packet.sequence, packet.ack, Message.metadata packet.message)

def layout : DecodedCommon → List UInt8 :=
  ofKind fun _ _ packet => Message.encoded packet.message

/-- The bytes of a decoded packet on the wire, less the checksum. -/
def written : DecodedCommon → List UInt8 :=
  ofKind fun _ _ packet =>
    u32.encode packet.sequence.get ++ u32.encode packet.ack ++ Message.encoded packet.message

def reencode (crc32 : Crc32) (delivery : ToSend) : DecodedCommon → Exec RawPacket :=
  ofKind fun M _ packet =>
    Packet.asRaw (M := M) crc32 ⟨delivery, packet.sequence, packet.ack, packet.message⟩

theorem accepts_id {id : UInt16} {make : NonZeroU16 → DecodedCommon} {decoded : DecodedCommon}
    (hrun : (nonZeroU16 id >>= fun id => (pure (make id) : Decode DecodedCommon)).run =
      .ok (.ok decoded)) :
    ∃ connectionId, connectionId.get = id ∧ decoded = make connectionId := by
  cases h : NonZeroU16.new id with
  | none =>
    simp only [nonZeroU16, h] at hrun
    cases hrun
  | some connectionId =>
    simp only [nonZeroU16, h] at hrun
    have hdecoded : make connectionId = decoded := Except.ok.inj (Except.ok.inj hrun)
    exact ⟨connectionId, NonZeroU16.new_eq_some.mp h, hdecoded.symm⟩

section Layouts

variable {address : SocketAddr} {time : Duration} {buffer rest : List UInt8}
  {sequence : Sequence} {ack : Ack} {decoded : DecodedCommon}

theorem accepts_of_id (h : At buffer 13 rest) {decode : Decode DecodedCommon}
    (hrun : decode.run = .ok (.ok decoded)) {next : UInt16 × Nat → Decode DecodedCommon}
    (hread : decode = readBufferInc u16 buffer 13 >>= next)
    {make : List UInt8 → NonZeroU16 → DecodedCommon}
    (hlayout : ∀ id after, rest = u16.encode id ++ after →
      decode = nonZeroU16 id >>= fun id => pure (make after id)) :
    ∃ connectionId after, rest = u16.encode connectionId.get ++ after ∧
      decoded = make after connectionId := by
  have hwidth := (returns_read_bind u16 (hread ▸ hrun)).1
  rw [h.length, u16_width] at hwidth
  obtain ⟨id, after, hrest⟩ := exists_encode u16 rest (by rw [u16_width]; omega)
  rw [hlayout id after hrest] at hrun
  obtain ⟨connectionId, rfl, hdecoded⟩ := accepts_id hrun
  exact ⟨connectionId, after, hrest, hdecoded⟩

theorem accepts_fragment (h : At buffer 13 rest)
    (hrun : (commonDecode address ⟨buffer, 13, fragment, sequence, ack⟩ time).run =
      .ok (.ok decoded)) :
    ∃ index total connectionId after,
      rest = u8.encode index ++ (u8.encode total ++ (u16.encode connectionId.get ++ after)) ∧
      decoded = .fragment
        ⟨⟨⟨time, address⟩⟩, sequence, ack, ⟨⟨fragment⟩, connectionId, index, total, after⟩⟩ := by
  have hwidth := (fragment_returns_iff address time sequence ack h).mp ⟨_, hrun⟩
  obtain ⟨index, rest, rfl⟩ := exists_encode u8 rest (by rw [u8_width]; omega)
  obtain ⟨total, rest, rfl⟩ := exists_encode u8 rest (by simp at hwidth ⊢; omega)
  obtain ⟨id, after, rfl⟩ := exists_encode u16 rest (by simp at hwidth ⊢; omega)
  rw [commonDecode_fragment h] at hrun
  obtain ⟨connectionId, rfl, rfl⟩ := accepts_id hrun
  exact ⟨index, total, connectionId, after, rfl, rfl⟩

theorem toBeBytes_append_inj {packetType other : PacketType} {left right : List UInt8} :
    packetType.toBeBytes ++ left = other.toBeBytes ++ right ↔
      packetType = other ∧ left = right := by
  constructor
  · intro h
    obtain ⟨htype, hrest⟩ := List.append_inj h (by simp [PacketType.toBeBytes])
    have hget := congrArg u8.decode htype
    simp only [PacketType.toBeBytes, FixedWidth.decode_encode] at hget
    exact ⟨by cases packetType; cases other; exact congrArg _ hget, hrest⟩
  · rintro ⟨rfl, rfl⟩
    rfl

/-- A decoded packet says what the buffer says: the header as it was read, and the
layout at the front of the rest, with nothing after it in the kinds that take it all. -/
def SaysWhatIsRead (decoded : DecodedCommon) (address : SocketAddr) (time : Duration)
    (sequence : Sequence) (ack : Ack) (packetType : PacketType) (rest : List UInt8) : Prop :=
  header decoded = (⟨⟨time, address⟩⟩, sequence, ack, ⟨packetType⟩) ∧
    ∃ ignored, (¬ FixedSize decoded → ignored = []) ∧
      packetType.toBeBytes ++ rest = layout decoded ++ ignored

theorem commonDecode_accepts (h : At buffer 13 rest) {packetType : PacketType}
    (hrange : packetTypeRange packetType.get)
    (hrun : (commonDecode address ⟨buffer, 13, packetType, sequence, ack⟩ time).run =
      .ok (.ok decoded)) :
    SaysWhatIsRead decoded address time sequence ack packetType rest := by
  rcases packetType_cases hrange with rfl | rfl | rfl | rfl | rfl
  · rw [commonDecode_connectionRequest] at hrun
    cases hrun
    exact ⟨rfl, rest, fun hsize => absurd trivial hsize, rfl⟩
  · obtain ⟨connectionId, after, rfl, rfl⟩ := accepts_of_id h hrun rfl
      fun id after hrest => commonDecode_connectionAccepted (hrest ▸ h)
    exact ⟨rfl, after, fun hsize => absurd trivial hsize, by simp [layout, ofKind, Message.encoded]⟩
  · obtain ⟨connectionId, after, rfl, rfl⟩ := accepts_of_id h hrun rfl
      fun id after hrest => commonDecode_dataTransfer (hrest ▸ h)
    exact ⟨rfl, [], fun _ => rfl, by simp [layout, ofKind, Message.encoded]⟩
  · obtain ⟨index, total, connectionId, after, rfl, rfl⟩ := accepts_fragment h hrun
    exact ⟨rfl, [], fun _ => rfl, by simp [layout, ofKind, Message.encoded]⟩
  · obtain ⟨connectionId, after, rfl, rfl⟩ := accepts_of_id h hrun rfl
      fun id after hrest => commonDecode_heartbeat (hrest ▸ h)
    exact ⟨rfl, after, fun hsize => absurd trivial hsize, by simp [layout, ofKind, Message.encoded]⟩

theorem commonDecode_of_written (h : At buffer 13 rest) {packetType : PacketType}
    (hread : SaysWhatIsRead decoded address time sequence ack packetType rest) :
    (commonDecode address ⟨buffer, 13, packetType, sequence, ack⟩ time).run =
      .ok (.ok decoded) := by
  obtain ⟨hheader, ignored, hignored, hrest⟩ := hread
  cases decoded with
  | connectionRequest packet =>
    obtain ⟨delivery, sequence, ack, ⟨metadata⟩⟩ := packet
    cases hheader
    obtain ⟨rfl, rfl⟩ := toBeBytes_append_inj.mp hrest
    rw [commonDecode_connectionRequest]
    rfl
  | connectionAccepted packet =>
    obtain ⟨delivery, sequence, ack, ⟨metadata, connectionId⟩⟩ := packet
    cases hheader
    simp only [layout, ofKind, Message.encoded, List.append_assoc] at hrest
    obtain ⟨rfl, rfl⟩ := toBeBytes_append_inj.mp hrest
    rw [commonDecode_connectionAccepted h, nonZeroU16_get]
    rfl
  | dataTransfer packet =>
    obtain ⟨delivery, sequence, ack, ⟨metadata, connectionId, payload⟩⟩ := packet
    cases hheader
    cases hignored id
    simp only [layout, ofKind, Message.encoded, List.append_assoc, List.append_nil] at hrest
    obtain ⟨rfl, rfl⟩ := toBeBytes_append_inj.mp hrest
    rw [commonDecode_dataTransfer h, nonZeroU16_get]
    rfl
  | fragment packet =>
    obtain ⟨delivery, sequence, ack, ⟨metadata, connectionId, index, total, payload⟩⟩ := packet
    cases hheader
    cases hignored id
    simp only [layout, ofKind, Message.encoded, List.append_assoc, List.append_nil] at hrest
    obtain ⟨rfl, rfl⟩ := toBeBytes_append_inj.mp hrest
    rw [commonDecode_fragment h, nonZeroU16_get]
    rfl
  | heartbeat packet =>
    obtain ⟨delivery, sequence, ack, ⟨metadata, connectionId⟩⟩ := packet
    cases hheader
    simp only [layout, ofKind, Message.encoded, List.append_assoc] at hrest
    obtain ⟨rfl, rfl⟩ := toBeBytes_append_inj.mp hrest
    rw [commonDecode_heartbeat h, nonZeroU16_get]
    rfl

end Layouts

def kindOf : DecodedCommon → PacketType :=
  ofKind fun M _ _ => Message.packetType M

theorem kindOf_range (decoded : DecodedCommon) : packetTypeRange (kindOf decoded).get := by
  cases decoded
  all_goals
    simp only [kindOf, ofKind, Message.packetType]
    decide

theorem layout_eq (decoded : DecodedCommon) :
    ∃ fields, layout decoded = (kindOf decoded).toBeBytes ++ fields := by
  cases decoded <;>
    exact ⟨_, by simp only [layout, ofKind, Message.encoded, List.append_assoc]; rfl⟩

def checksummed (crc32 : Crc32) (body : List UInt8) : List UInt8 :=
  body ++ u32.encode (crc32 (protocolIdBytes ++ body))

/-- The decoder takes a datagram for a packet, and leaves some of its bytes unread. -/
structure Accepts (crc32 : Crc32) (raw : RawPacket) (time : Duration) (decoded : DecodedCommon)
    (ignored : List UInt8) : Prop where
  delivered : (header decoded).1 = ⟨⟨time, raw.address⟩⟩
  kind : (header decoded).2.2.2 = ⟨kindOf decoded⟩
  ignores : ¬ FixedSize decoded → ignored = []
  bytes : raw.bytes = checksummed crc32 (written decoded ++ ignored)

theorem written_eq (decoded : DecodedCommon) :
    written decoded = u32.encode (header decoded).2.1.get ++ u32.encode (header decoded).2.2.1 ++
      layout decoded := by
  cases decoded <;> rfl

theorem decodeBuffer_layouts (address : SocketAddr) (time : Duration) (sequence : Sequence)
    (ack : Ack) (packetType : PacketType) (hrange : packetTypeRange packetType.get)
    {body rest : List UInt8} (hbody : body = u32.encode sequence.get ++ (u32.encode ack ++
      (packetType.toBeBytes ++ rest))) :
    At (protocolIdBytes ++ body) 13 rest ∧ decodeBuffer address (protocolIdBytes ++ body) time =
      commonDecode address ⟨protocolIdBytes ++ body, 13, packetType, sequence, ack⟩ time := by
  subst hbody
  obtain ⟨hrest, hdecode⟩ := decodeBuffer_header address time
    (⟨[], rfl, rfl⟩ : At (protocolIdBytes ++ (u32.encode sequence.get ++ (u32.encode ack ++
      (packetType.toBeBytes ++ rest)))) 0 _)
  refine ⟨hrest, ?_⟩
  simp only [hdecode, debugAssert_of sequence.ne_zero, debugAssert_of hrange, liftM_ok, pure_bind,
    PacketType.tryFrom, (packetTypeRange_iff _).mp hrange, nonZeroU32_get]

theorem decodeBuffer_accepts {address : SocketAddr} {time : Duration} {body : List UInt8}
    {decoded : DecodedCommon}
    (hrun : (decodeBuffer address (protocolIdBytes ++ body) time).run = .ok (.ok decoded)) :
    (header decoded).1 = ⟨⟨time, address⟩⟩ ∧ (header decoded).2.2.2 = ⟨kindOf decoded⟩ ∧
      ∃ ignored, (¬ FixedSize decoded → ignored = []) ∧ body = written decoded ++ ignored := by
  have hframed := (decodeBuffer_returns_iff address time body).mp ⟨_, hrun⟩
  obtain ⟨sequence, ack, kindByte, rest, rfl⟩ := exists_header body hframed.1
  obtain ⟨hsequence, hrange, -⟩ := (wellFramed_header sequence ack kindByte rest).mp hframed
  obtain ⟨hrest, hdecode⟩ := decodeBuffer_layouts address time
    ⟨sequence, hsequence⟩ ack ⟨kindByte⟩ hrange
    (rfl : u32.encode sequence ++ (u32.encode ack ++ (u8.encode kindByte ++ rest)) = _)
  rw [hdecode] at hrun
  obtain ⟨hheader, ignored, hignored, hlayout⟩ := commonDecode_accepts hrest hrange hrun
  obtain ⟨fields, hfields⟩ := layout_eq decoded
  have hkind : (⟨kindByte⟩ : PacketType) = kindOf decoded := by
    rw [hfields, List.append_assoc] at hlayout
    exact (toBeBytes_append_inj.mp hlayout).1
  refine ⟨by rw [hheader], by rw [hheader, hkind], ignored, hignored, ?_⟩
  rw [written_eq, hheader, List.append_assoc, List.append_assoc, ← hlayout]
  rfl

theorem decodeBuffer_of_accepts {address : SocketAddr} {time : Duration}
    {decoded : DecodedCommon} {ignored : List UInt8}
    (hdelivered : (header decoded).1 = ⟨⟨time, address⟩⟩)
    (hkind : (header decoded).2.2.2 = ⟨kindOf decoded⟩)
    (hignored : ¬ FixedSize decoded → ignored = []) :
    (decodeBuffer address (protocolIdBytes ++ (written decoded ++ ignored)) time).run =
      .ok (.ok decoded) := by
  obtain ⟨fields, hfields⟩ := layout_eq decoded
  have hbody : written decoded ++ ignored =
      u32.encode (header decoded).2.1.get ++ (u32.encode (header decoded).2.2.1 ++
        ((kindOf decoded).toBeBytes ++ (fields ++ ignored))) := by
    simp only [written_eq, hfields, List.append_assoc]
  obtain ⟨hrest, hdecode⟩ :=
    decodeBuffer_layouts address time _ _ _ (kindOf_range decoded) hbody
  rw [hdecode]
  refine commonDecode_of_written hrest ⟨?_, ignored, hignored, ?_⟩
  · rw [← hdelivered, ← hkind]
  · rw [hfields, List.append_assoc]

theorem length_of_innerDecode {crc32 : Crc32} {raw : RawPacket} {time : Duration}
    {result : Result DecodedCommon} (hrun : (raw.innerDecode crc32 time).run = .ok result) :
    4 ≤ raw.bytes.length := by
  by_contra hlength
  rw [RawPacket.innerDecode, show checkedSub raw.bytes.length 4 = .error .overflow from
    if_neg hlength] at hrun
  cases hrun

/-- The accepted datagrams: the bytes of a packet, those its layout leaves unread, and
the checksum of all of them. -/
theorem innerDecode_accepts_iff (crc32 : Crc32) (raw : RawPacket) (time : Duration)
    (decoded : DecodedCommon) :
    (raw.innerDecode crc32 time).run = .ok (.ok decoded) ↔
      ∃ ignored, Accepts crc32 raw time decoded ignored := by
  obtain ⟨source, bytes⟩ := raw
  constructor
  · intro hrun
    obtain ⟨body, readCrc32, rfl⟩ := exists_checksum bytes (length_of_innerDecode hrun)
    rw [innerDecode_split] at hrun
    split at hrun
    · next hcheck =>
      obtain ⟨hdelivered, hkind, ignored, hignored, rfl⟩ := decodeBuffer_accepts hrun
      exact ⟨ignored, hdelivered, hkind, hignored, by rw [checksummed, hcheck]⟩
    · obtain ⟨expected, -, hthrow⟩ | ⟨error, -, hthrow⟩ := run_bind_eq_ok.mp hrun
      · cases hthrow
      · cases hthrow
  · rintro ⟨ignored, hdelivered, hkind, hignored, rfl⟩
    rw [checksummed, innerDecode_split, if_pos rfl]
    exact decodeBuffer_of_accepts hdelivered hkind hignored

theorem reencode_eq_ok (crc32 : Crc32) (delivery : ToSend) (decoded : DecodedCommon)
    (raw : RawPacket) :
    reencode crc32 delivery decoded = .ok raw ↔
      crc32 (protocolIdBytes ++ written decoded) ≠ 0 ∧
        raw = ⟨delivery.metadata.address, checksummed crc32 (written decoded)⟩ := by
  cases decoded
  all_goals
    simp only [reencode, ofKind, checksummed, Packet.asRaw_eq_ok, Packet.checksum,
      Packet.hashed, written, List.append_assoc]
    refine and_congr_right fun _ => ⟨fun h => ?_, fun h => ?_⟩
    · rw [← h, RawPacket.mk.injEq, Packet.datagram_bytes]
      simp only [Packet.datagram, Packet.checksum, Packet.hashed, List.append_assoc, and_self]
    · rw [h, RawPacket.mk.injEq, Packet.datagram_bytes]
      simp only [Packet.datagram, Packet.checksum, Packet.hashed, List.append_assoc, and_self]

/-- An accepted datagram is the wire bytes of its packet, the bytes that a fixed-size
layout leaves unread, which may be any, and the checksum of both. Encoding the packet
again gives the datagram back when its checksum is not zero and nothing was left unread. -/
theorem accepted_reencodes_iff (crc32 : Crc32) (raw : RawPacket) (time : Duration)
    (decoded : DecodedCommon) (hrun : (raw.innerDecode crc32 time).run = .ok (.ok decoded)) :
    (∃ ignored, raw.bytes = checksummed crc32 (written decoded ++ ignored) ∧
      (¬ FixedSize decoded → ignored = []) ∧
      ∀ delivery : ToSend, crc32 (protocolIdBytes ++ (written decoded ++ ignored)) ≠ 0 →
        (reencode crc32 delivery decoded = .ok ⟨delivery.metadata.address, raw.bytes⟩ ↔
          ignored = [])) ∧
    ∀ other, (¬ FixedSize decoded → other = []) →
      (RawPacket.innerDecode crc32 ⟨raw.address, checksummed crc32 (written decoded ++ other)⟩
        time).run = .ok (.ok decoded) := by
  obtain ⟨ignored, haccepts⟩ := (innerDecode_accepts_iff crc32 raw time decoded).mp hrun
  constructor
  · refine ⟨ignored, haccepts.bytes, haccepts.ignores, fun delivery hchecksum => ?_⟩
    rw [reencode_eq_ok, haccepts.bytes, RawPacket.mk.injEq]
    constructor
    · rintro ⟨-, -, hbytes⟩
      have hlength := congrArg List.length hbytes
      simp only [checksummed, List.length_append, FixedWidth.length_encode, u32_width] at hlength
      exact List.eq_nil_of_length_eq_zero (by omega)
    · rintro rfl
      rw [List.append_nil] at hchecksum ⊢
      exact ⟨hchecksum, rfl, rfl⟩
  · intro other hother
    exact (innerDecode_accepts_iff crc32 _ time decoded).mpr
      ⟨other, haccepts.delivered, haccepts.kind, hother, rfl⟩

def firstPacket (message : M) : Packet Received M :=
  ⟨⟨⟨.zero, .v4 0 0⟩⟩, .one, 0, message⟩

def beat : DecodedCommon := .heartbeat (firstPacket (Heartbeat.new .one))
def transfer : DecodedCommon := .dataTransfer (firstPacket (DataTransfer.new .one [7]))

def paddedBeat : RawPacket := ⟨.v4 0 0, checksummed ieeeCrc32 (written beat ++ [0])⟩

theorem transfer_reencodes :
    reencode ieeeCrc32 ⟨0, ⟨.zero, .v4 0 0⟩⟩ transfer =
      .ok ⟨.v4 0 0, checksummed ieeeCrc32 (written transfer)⟩ := by
  have hrun := (innerDecode_accepts_iff ieeeCrc32
    ⟨.v4 0 0, checksummed ieeeCrc32 (written transfer)⟩ .zero transfer).mpr
      ⟨[], rfl, rfl, fun _ => rfl, by rw [List.append_nil]⟩
  obtain ⟨⟨ignored, -, hignored, hreencode⟩, -⟩ := accepted_reencodes_iff ieeeCrc32
    ⟨.v4 0 0, checksummed ieeeCrc32 (written transfer)⟩ .zero transfer hrun
  cases hignored id
  exact (hreencode ⟨0, ⟨.zero, .v4 0 0⟩⟩ (by decide +kernel)).mpr rfl

theorem paddedBeat_reencodes_shorter :
    (paddedBeat.innerDecode ieeeCrc32 .zero).run = .ok (.ok beat) ∧
      ∃ reencoded, reencode ieeeCrc32 ⟨0, ⟨.zero, .v4 0 0⟩⟩ beat = .ok reencoded ∧
        reencoded.bytes.length < paddedBeat.bytes.length := by
  constructor
  · exact (innerDecode_accepts_iff ieeeCrc32 paddedBeat .zero beat).mpr
      ⟨[0], rfl, rfl, fun hsize => absurd trivial hsize, rfl⟩
  · refine ⟨_, (reencode_eq_ok _ _ _ _).mpr ⟨by decide +kernel, rfl⟩, ?_⟩
    decide +kernel

end Antarc.Properties.Canonical
