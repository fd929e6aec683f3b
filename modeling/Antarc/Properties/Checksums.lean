import Antarc.Properties.Messages

/-! Packets and datagrams whose checksum is zero. The encoder asserts that there are
none, and the decoder's error has no room for one. There is one ack for each sequence
and message, and one last word for each datagram. -/
namespace Antarc.Properties

open Library

section Encoding

variable {M : Type} [Message M]

/-- The ack that gives a packet of this sequence and message a checksum. -/
def ackFor (sequence : Sequence) (message : M) (checksum : UInt32) : Ack :=
  u32.decode (steeringBytes (protocolIdBytes ++ u32.encode sequence.get)
    (Message.encoded message) checksum)

/-- Every checksum is reached from any sequence and message, by one ack. -/
theorem checksum_eq_iff (packet : Packet ToSend M) (checksum : UInt32) :
    packet.checksum ieeeCrc32 = checksum ↔
      packet.ack = ackFor packet.sequence packet.message checksum := by
  have hlength := length_steeringBytes (protocolIdBytes ++ u32.encode packet.sequence.get)
    (Message.encoded packet.message) checksum
  rw [Packet.checksum, Packet.hashed, ieeeCrc32_eq_iff (u32.length_encode _), ackFor]
  constructor
  · intro hack
    rw [← hack, u32.decode_encode]
  · intro hack
    rw [hack, u32.encode_decode _ hlength]

theorem asRaw_returns_iff (crc32 : Crc32) (packet : Packet ToSend M) :
    (∃ raw, packet.asRaw crc32 = .ok raw) ↔ packet.checksum crc32 ≠ 0 := by
  simp only [Packet.asRaw_eq_ok, exists_and_left, exists_eq', and_true]

end Encoding

section Decoding

def bodyOf (bytes : List UInt8) : List UInt8 :=
  bytes.take (bytes.length - 4)

def readCrc32 (bytes : List UInt8) : UInt32 :=
  u32.decode (bytes.drop (bytes.length - 4))

def computedCrc32 (bytes : List UInt8) : UInt32 :=
  ieeeCrc32 (protocolIdBytes ++ bodyOf bytes)

/-- The decoder refuses the datagram with the checksum that it read and the one it computed. -/
def ReportsMismatch (raw : RawPacket) (time : Duration) : Prop :=
  ∃ expected : NonZeroU32, expected.get = computedCrc32 raw.bytes ∧
    (raw.innerDecode ieeeCrc32 time).run =
      .ok (.error (.invalidCrc32 (readCrc32 raw.bytes) expected))

/-- The last four bytes are those that cancel the checksum of all that is hashed before them. -/
def CancelsChecksum (body : List UInt8) : Prop :=
  let before := body.take (body.length - 4)
  4 ≤ body.length ∧ body.drop (body.length - 4) =
    u32.reversed.encode (ieeeCrc32 (protocolIdBytes ++ before) ^^^ 0x6DD90A9D)

instance (body : List UInt8) : Decidable (CancelsChecksum body) :=
  inferInstanceAs (Decidable (_ ∧ _))

/-- With fewer bytes the protocol id itself would have to be the end of such a word. -/
theorem protocolId_not_cancelled : ∀ n < 4,
    (u32.reversed.encode (ieeeCrc32 (protocolIdBytes.take n) ^^^ 0x6DD90A9D)).head? ≠
      (protocolIdBytes.drop n).head? := by
  decide +kernel

theorem checksum_zero_iff (body : List UInt8) :
    ieeeCrc32 (protocolIdBytes ++ body) = 0 ↔ CancelsChecksum body := by
  by_cases hlength : 4 ≤ body.length
  · have hlast : (body.drop (body.length - 4)).length = 4 := by rw [List.length_drop]; omega
    have hsplit : protocolIdBytes ++ body = protocolIdBytes ++ body.take (body.length - 4) ++
        body.drop (body.length - 4) ++ [] := by
      rw [List.append_nil, List.append_assoc, List.take_append_drop]
    rw [hsplit, ieeeCrc32_eq_iff hlast, steeringBytes_zero]
    exact (and_iff_right hlength).symm
  · refine iff_of_false ?_ fun h => hlength h.1
    have hword : (protocolIdBytes.drop body.length ++ body).length = 4 := by
      rw [List.length_append, List.length_drop, length_protocolIdBytes]
      omega
    have hsplit : protocolIdBytes ++ body = protocolIdBytes.take body.length ++
        (protocolIdBytes.drop body.length ++ body) ++ [] := by
      rw [List.append_nil, ← List.append_assoc, List.take_append_drop]
    rw [hsplit, ieeeCrc32_eq_iff hword, steeringBytes_zero]
    intro hcancelled
    have hdrop : protocolIdBytes.drop body.length ≠ [] := by
      rw [ne_eq, List.drop_eq_nil_iff, length_protocolIdBytes]
      exact hlength
    have hhead := congrArg List.head? hcancelled
    rw [List.head?_append_of_ne_nil _ hdrop] at hhead
    exact protocolId_not_cancelled body.length (by omega) hhead.symm

theorem innerDecode_differs {raw : RawPacket} (time : Duration) (hlength : 4 ≤ raw.bytes.length)
    (hdiffers : computedCrc32 raw.bytes ≠ readCrc32 raw.bytes) :
    raw.innerDecode ieeeCrc32 time = (do
      let expected ← nonZeroU32 (computedCrc32 raw.bytes)
      throw (.invalidCrc32 (readCrc32 raw.bytes) expected)) := by
  obtain ⟨source, bytes⟩ := raw
  obtain ⟨body, trailing, rfl⟩ := Codec.exists_checksum bytes hlength
  have hrest : (body ++ u32.encode trailing).length - 4 = body.length := by simp
  have hbody : bodyOf (body ++ u32.encode trailing) = body := by
    rw [bodyOf, hrest, List.take_left]
  have hread : readCrc32 (body ++ u32.encode trailing) = trailing := by
    rw [readCrc32, hrest, List.drop_left, u32.decode_encode]
  simp only [computedCrc32, hbody, hread] at hdiffers ⊢
  rw [Codec.innerDecode_split, if_neg hdiffers]

theorem reportsMismatch_iff {raw : RawPacket} (time : Duration) (hlength : 4 ≤ raw.bytes.length)
    (hdiffers : computedCrc32 raw.bytes ≠ readCrc32 raw.bytes) :
    ReportsMismatch raw time ↔ computedCrc32 raw.bytes ≠ 0 := by
  constructor
  · rintro ⟨expected, hexpected, -⟩
    rw [← hexpected]
    exact expected.ne_zero
  · intro hnonzero
    refine ⟨⟨_, hnonzero⟩, rfl, ?_⟩
    rw [innerDecode_differs time hlength hdiffers, Codec.nonZeroU32_get ⟨_, hnonzero⟩]
    rfl

end Decoding

/-- A packet is encoded unless its ack is the one that makes its checksum zero, and a
datagram whose checksum is wrong is refused as such unless its last word cancels. -/
theorem any_checksum_handled_iff {M : Type} [Message M] (packet : Packet ToSend M)
    (raw : RawPacket) (time : Duration) :
    ((∃ encoded, packet.asRaw ieeeCrc32 = .ok encoded) ↔
      packet.ack ≠ ackFor packet.sequence packet.message 0) ∧
    (4 ≤ raw.bytes.length → computedCrc32 raw.bytes ≠ readCrc32 raw.bytes →
      (ReportsMismatch raw time ↔ ¬CancelsChecksum (bodyOf raw.bytes))) := by
  refine ⟨?_, fun hlength hdiffers => ?_⟩
  · rw [asRaw_returns_iff, ne_eq, checksum_eq_iff]
  · rw [reportsMismatch_iff time hlength hdiffers, ← checksum_zero_iff]
    rfl

/-- The second packet of a connection, with the payload that makes its checksum zero. -/
def unluckyPacket : Packet ToSend DataTransfer :=
  ⟨⟨1, ⟨.zero, .v4 0 0⟩⟩, (NonZeroU32.one.checkedAdd 1).getD .one, 1, .new .one unluckyPayload⟩

def corruptedDatagram : RawPacket :=
  ⟨.v4 0 0, bodyOf (unluckyPacket.datagram ieeeCrc32).bytes ++ u32.encode 1⟩

/-- The encoder stops at its assertion, and the decoder refuses with the error of a
failed conversion. -/
theorem zero_checksum_unhandled :
    unluckyPacket.asRaw ieeeCrc32 = .error .debugAssert ∧
      4 ≤ corruptedDatagram.bytes.length ∧
      computedCrc32 corruptedDatagram.bytes ≠ readCrc32 corruptedDatagram.bytes ∧
      (corruptedDatagram.innerDecode ieeeCrc32 .zero).run = .ok (.error .intConversion) ∧
      ¬ReportsMismatch corruptedDatagram .zero := by
  have hchecksum : unluckyPacket.checksum ieeeCrc32 = 0 := by decide +kernel
  have hlength : 4 ≤ corruptedDatagram.bytes.length := by decide +kernel
  have hcomputed : computedCrc32 corruptedDatagram.bytes = 0 := by decide +kernel
  have hdiffers : computedCrc32 corruptedDatagram.bytes ≠ readCrc32 corruptedDatagram.bytes := by
    decide +kernel
  refine ⟨?_, hlength, hdiffers, ?_, ?_⟩
  · simp [Packet.asRaw, hchecksum, debugAssert]
  · rw [innerDecode_differs _ hlength hdiffers, hcomputed]
    rfl
  · rw [reportsMismatch_iff _ hlength hdiffers]
    exact not_not.mpr hcomputed

theorem nonzero_checksum_handled :
    (∃ raw, { unluckyPacket with ack := 2 }.asRaw ieeeCrc32 = .ok raw) ∧
      ReportsMismatch ⟨.v4 0 0, [1, 2, 3, 4, 5]⟩ .zero := by
  obtain ⟨hencodes, hreports⟩ := any_checksum_handled_iff { unluckyPacket with ack := 2 }
    ⟨.v4 0 0, [1, 2, 3, 4, 5]⟩ .zero
  refine ⟨hencodes.mpr (by decide +kernel), ?_⟩
  exact (hreports (by decide) (by decide +kernel)).mpr (by decide +kernel)

end Antarc.Properties
