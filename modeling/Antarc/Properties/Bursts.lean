import Antarc.Properties.Canonical
import Antarc.Properties.Checksums

/-! Datagrams that are damaged on their way. The checksum finds every burst of up to 32 bits in
what it is computed from, and every damage to itself; a datagram so damaged is refused by
both roles, and leaves them as they were. -/
namespace Antarc.Properties

open Library

section Damage

/-- The bits that differ lie within 32 bits in a row, the bits of a byte taken from the least
significant on. -/
def Burst (bytes other : List UInt8) : Prop :=
  ∃ before word changed after,
    wireBits bytes = before ++ word ++ after ∧ wireBits other = before ++ changed ++ after ∧
      word.length = changed.length ∧ word.length ≤ 32 ∧ word ≠ changed

/-- A datagram was damaged before its checksum, by one burst, or in its checksum alone. -/
structure Damaged (sent arrived : List UInt8) : Prop where
  length : arrived.length = sent.length
  damage : Burst (bodyOf sent) (bodyOf arrived) ∧ readCrc32 arrived = readCrc32 sent ∨
    bodyOf arrived = bodyOf sent ∧ readCrc32 arrived ≠ readCrc32 sent

def refusal (bytes : List UInt8) : ProtocolError :=
  match NonZeroU32.new (computedCrc32 bytes) with
  | some expected => .invalidCrc32 (readCrc32 bytes) expected
  | none => .intConversion

theorem Burst.checksum_ne {bytes other : List UInt8} (h : Burst bytes other) :
    ieeeCrc32 (protocolIdBytes ++ bytes) ≠ ieeeCrc32 (protocolIdBytes ++ other) := by
  obtain ⟨before, word, changed, after, hbytes, hother, hlength, hshort, hne⟩ := h
  have hprefixed : ∀ part bits, wireBits part = before ++ bits ++ after →
      wireBits (protocolIdBytes ++ part) = wireBits protocolIdBytes ++ before ++ bits ++ after := by
    intro part bits hpart
    rw [wireBits_append, hpart]
    simp only [List.append_assoc]
  intro hsame
  exact hne
    ((ieeeCrc32_burst (hprefixed _ _ hbytes) (hprefixed _ _ hother) hlength hshort).mp hsame)

theorem computed_of_accepted {raw : RawPacket} {time : Duration} {decoded : DecodedCommon}
    (h : (raw.innerDecode ieeeCrc32 time).run = .ok (.ok decoded)) :
    4 ≤ raw.bytes.length ∧ computedCrc32 raw.bytes = readCrc32 raw.bytes := by
  have hlength := Canonical.length_of_innerDecode h
  refine ⟨hlength, ?_⟩
  by_contra hdiffers
  rw [innerDecode_differs time hlength hdiffers] at h
  rcases run_bind_eq_ok.mp h with ⟨expected, -, hthrow⟩ | ⟨error, -, herror⟩
  · cases hthrow
  · cases herror

theorem refused_of_differs {raw : RawPacket} (time : Duration) (hlength : 4 ≤ raw.bytes.length)
    (hdiffers : computedCrc32 raw.bytes ≠ readCrc32 raw.bytes) :
    (raw.innerDecode ieeeCrc32 time).run = .ok (.error (refusal raw.bytes)) := by
  rw [innerDecode_differs time hlength hdiffers]
  unfold refusal nonZeroU32
  cases NonZeroU32.new (computedCrc32 raw.bytes) <;> rfl

theorem Damaged.differs {sent arrived : List UInt8} (h : Damaged sent arrived)
    (hsent : computedCrc32 sent = readCrc32 sent) : computedCrc32 arrived ≠ readCrc32 arrived := by
  unfold computedCrc32 at hsent ⊢
  rcases h.damage with ⟨hburst, hread⟩ | ⟨hbody, hread⟩
  · rw [hread, ← hsent]
    exact hburst.checksum_ne.symm
  · rw [hbody, hsent]
    exact hread.symm

end Damage

/-- A datagram that would have been accepted and was damaged by a burst of up to 32 bits, or in
its checksum, is refused by either role in every state, and changes nothing there. -/
theorem damaged_datagrams_refused {sent arrived : RawPacket} {sentAt now : Duration}
    {decoded : DecodedCommon}
    (accepted : (sent.innerDecode ieeeCrc32 sentAt).run = .ok (.ok decoded))
    (damaged : Damaged sent.bytes arrived.bytes) :
    (∀ protocol : Protocol Client, protocol.clientReceived ieeeCrc32 arrived now =
      .ok (.error (refusal arrived.bytes), protocol)) ∧
    ∀ (hash : RandomState) (protocol : Protocol Server),
      protocol.serverReceived ieeeCrc32 hash arrived now =
        .ok (.error (refusal arrived.bytes), protocol) := by
  obtain ⟨hlength, hcomputed⟩ := computed_of_accepted accepted
  have hrefused := refused_of_differs now (damaged.length ▸ hlength) (damaged.differs hcomputed)
  have hdecode : ∀ {α : Type} (tryFrom : DecodedCommon → Result α),
      arrived.decode ieeeCrc32 tryFrom now = .ok (.error (refusal arrived.bytes)) := by
    intro α tryFrom
    unfold RawPacket.decode
    rw [hrefused]
    rfl
  constructor
  · intro protocol
    unfold Protocol.clientReceived Client.onReceived
    rw [hdecode]
    rfl
  · intro hash protocol
    unfold Protocol.serverReceived Server.onReceived
    rw [hdecode]
    rfl

def intactHeartbeat : Packet ToSend Heartbeat :=
  ⟨⟨0, ⟨.zero, .v4 1 1⟩⟩, .one, 0, .new .one⟩

def damagedHeartbeat : RawPacket :=
  ⟨.v4 0 0, (intactHeartbeat.datagram ieeeCrc32).bytes.set 4 0x10⟩

theorem damagedHeartbeat_refused :
    refusal damagedHeartbeat.bytes ≠ .intConversion ∧
      ∀ protocol : Protocol Client, protocol.clientReceived ieeeCrc32 damagedHeartbeat .zero =
        .ok (.error (refusal damagedHeartbeat.bytes), protocol) := by
  have haccepted := (Codec.roundTrips_heartbeat ieeeCrc32 intactHeartbeat (.v4 0 0) .zero rfl).1
  have hburst : Burst (bodyOf (intactHeartbeat.datagram ieeeCrc32).bytes)
      (bodyOf damagedHeartbeat.bytes) := by
    let body := bodyOf (intactHeartbeat.datagram ieeeCrc32).bytes
    refine ⟨wireBits (body.take 4), ShiftRegister.digits 1 8 0, ShiftRegister.digits 1 8 0x10,
      wireBits (body.drop 5), ?_, ?_, rfl, by decide, by decide⟩ <;> decide +kernel
  have hdamaged : Damaged (intactHeartbeat.datagram ieeeCrc32).bytes damagedHeartbeat.bytes :=
    ⟨by decide +kernel, .inl ⟨hburst, by decide +kernel⟩⟩
  exact ⟨by decide +kernel, (damaged_datagrams_refused haccepted hdamaged).1⟩

end Antarc.Properties
