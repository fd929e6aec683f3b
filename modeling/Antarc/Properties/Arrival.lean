import Antarc.Properties.Codec
import Antarc.Properties.Receiving
import Antarc.Properties.Traffic

/-! What the receiver reads of a datagram that a driver has sent. A datagram fits the
receive buffer, and the header that is read is the one of the line that was sent. -/
namespace Antarc.Properties

open Library

variable {crc32 : Crc32} {packet : Outgoing} {source : SocketAddr} {time : Duration}

theorem length_datagram [Message M] (packet : Packet ToSend M) :
    (packet.datagram crc32).bytes.length = 4 + 4 + (Message.encoded packet.message).length + 4 := by
  rw [Packet.datagram_bytes]
  simp only [List.length_append, u32.length_encode]
  rfl

theorem length_datagramOf (crc32 : Crc32) (h : (lineOf packet).body.WellFormed) :
    (datagramOf crc32 packet).bytes.length ≤ maxFragmentSize := by
  cases packet with
  | connectionRequest packet =>
    refine (length_datagram packet).trans_le ?_
    simp [Message.encoded, PacketType.toBeBytes, u8.length_encode, u8_width, maxFragmentSize]
  | connectionAccepted packet =>
    refine (length_datagram packet).trans_le ?_
    simp [Message.encoded, PacketType.toBeBytes, u8.length_encode, u8_width, u16.length_encode,
      u16_width, maxFragmentSize]
  | dataTransfer packet =>
    refine (length_datagram packet).trans_le ?_
    have hpayload : packet.message.payload.length ≤ 1483 := h.2
    simp [Message.encoded, PacketType.toBeBytes, u8.length_encode, u8_width, u16.length_encode,
      u16_width, maxFragmentSize]
    omega
  | fragment packet =>
    refine (length_datagram packet).trans_le ?_
    have hpayload : packet.message.payload.length ≤ 1483 := h.2
    simp [Message.encoded, PacketType.toBeBytes, u8.length_encode, u8_width, u16.length_encode,
      u16_width, maxFragmentSize]
    omega
  | heartbeat packet =>
    refine (length_datagram packet).trans_le ?_
    simp [Message.encoded, PacketType.toBeBytes, u8.length_encode, u8_width, u16.length_encode,
      u16_width, maxFragmentSize]

/-- A header that was read of a line: all of it but the connection id. -/
structure ReadOf (line : Line) (source : SocketAddr) (header : Header) : Prop where
  source : header.source = source
  sequence : header.sequence = line.sequence
  ack : header.ack = line.ack

theorem client_takes {decoded : DecodedForClient} (hwellFormed : (lineOf packet).body.WellFormed)
    (h : RawPacket.decode crc32 DecodedForClient.tryFrom
      ⟨source, (datagramOf crc32 packet).bytes⟩ time = .ok (.ok decoded)) :
    ReadOf (lineOf packet) source (forClientHeader decoded) ∧
      ((lineOf packet).body.connection = some (forClientHeader decoded).connectionId ∨
        ∃ message, (lineOf packet).body = .connectionAccepted message ∧
          message.connectionId = (forClientHeader decoded).connectionId) := by
  cases packet with
  | connectionRequest packet =>
    cases (Codec.roundTrips_connectionRequest crc32 packet source time hwellFormed).2.2.symm.trans h
  | connectionAccepted packet =>
    cases (Codec.roundTrips_connectionAccepted crc32 packet source time hwellFormed).2.2.symm.trans h
    exact ⟨⟨rfl, rfl, rfl⟩, .inr ⟨_, rfl, rfl⟩⟩
  | dataTransfer packet =>
    cases (Codec.roundTrips_dataTransfer crc32 packet source time hwellFormed.1).2.2.symm.trans h
    exact ⟨⟨rfl, rfl, rfl⟩, .inl rfl⟩
  | fragment packet =>
    cases (Codec.roundTrips_fragment crc32 packet source time hwellFormed.1).2.2.symm.trans h
    exact ⟨⟨rfl, rfl, rfl⟩, .inl rfl⟩
  | heartbeat packet =>
    cases (Codec.roundTrips_heartbeat crc32 packet source time hwellFormed).2.2.symm.trans h
    exact ⟨⟨rfl, rfl, rfl⟩, .inl rfl⟩

theorem server_takes {decoded : DecodedForServer} (hwellFormed : (lineOf packet).body.WellFormed)
    (h : RawPacket.decode crc32 DecodedForServer.tryFrom
      ⟨source, (datagramOf crc32 packet).bytes⟩ time = .ok (.ok decoded)) :
    (∃ header, forServerHeader decoded = some header ∧ ReadOf (lineOf packet) source header ∧
      (lineOf packet).body.connection = some header.connectionId) ∨
    ∃ request, decoded = .connectionRequest request ∧
      request.delivery.metadata.address = source ∧ request.sequence = (lineOf packet).sequence := by
  cases packet with
  | connectionRequest packet =>
    cases (Codec.roundTrips_connectionRequest crc32 packet source time hwellFormed).2.1.symm.trans h
    exact .inr ⟨_, rfl, rfl, rfl⟩
  | connectionAccepted packet =>
    cases (Codec.roundTrips_connectionAccepted crc32 packet source time hwellFormed).2.1.symm.trans h
  | dataTransfer packet =>
    cases (Codec.roundTrips_dataTransfer crc32 packet source time hwellFormed.1).2.1.symm.trans h
    exact .inl ⟨_, rfl, ⟨rfl, rfl, rfl⟩, rfl⟩
  | fragment packet =>
    cases (Codec.roundTrips_fragment crc32 packet source time hwellFormed.1).2.1.symm.trans h
    exact .inl ⟨_, rfl, ⟨rfl, rfl, rfl⟩, rfl⟩
  | heartbeat packet =>
    cases (Codec.roundTrips_heartbeat crc32 packet source time hwellFormed).2.1.symm.trans h
    exact .inl ⟨_, rfl, ⟨rfl, rfl, rfl⟩, rfl⟩

end Antarc.Properties
