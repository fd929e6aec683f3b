import Antarc.Library.Crc32
import Antarc.Properties.ClientRuns
import Antarc.Properties.Codec

/-! What the application is told of a received data transfer. The server tells it of every
one it takes; the client only of the one that completes its handshake. -/
namespace Antarc.Properties

open Library

/-- `on_received` returns `Ok`, and appends the one event of the packet. -/
def HandsOver [Service S A B E] (service : S) (packet : Packet Received DataTransfer)
    (outcome : Exec (Result α × S)) : Prop :=
  ∃ value next, outcome = .ok (.ok value, next) ∧ (Service.core next).api =
    (Service.core service).api ++
      [.dataTransfer packet.message.connectionId packet.message.payload]

section Receiving

variable {crc32 : Crc32} {raw : RawPacket} {time : Duration}
  {packet : Packet Received DataTransfer}

theorem onReceived_dataTransfer {server : Server} (hash : RandomState) (packetId : PacketId)
    (hdecode : raw.decode crc32 DecodedForServer.tryFrom time = .ok (.ok (.dataTransfer packet)))
    (hknown : packet.message.connectionId ∈ server.connected ∨
      packet.message.connectionId ∈ server.awaitingConnectionAck) :
    ∃ next : Server, server.onReceived crc32 hash raw packetId time = .ok (.ok false, next) ∧
      next.api = server.api ++
        [.dataTransfer packet.message.connectionId packet.message.payload] ∧
      packet.message.connectionId ∈ next.connected := by
  obtain ⟨next, hnext, hapi, hconnected⟩ :=
    acknowledge_of_known packet.sequence packet.ack time hknown
  refine ⟨{ next with api := next.api ++
    [.dataTransfer packet.message.connectionId packet.message.payload] }, ?_, ?_, hconnected⟩
  · unfold Server.onReceived
    rw [hdecode, ok_bind]
    simp only [Server.onDataTransfer, hnext]
    rfl
  · rw [← hapi]

theorem server_handsOver {server : Server} (hash : RandomState) (packetId : PacketId)
    (hdecode : raw.decode crc32 DecodedForServer.tryFrom time = .ok (.ok (.dataTransfer packet)))
    (hknown : packet.message.connectionId ∈ server.connected ∨
      packet.message.connectionId ∈ server.awaitingConnectionAck) :
    HandsOver server packet (server.onReceived crc32 hash raw packetId time) := by
  obtain ⟨next, hreceived, hapi, -⟩ := onReceived_dataTransfer hash packetId hdecode hknown
  exact ⟨false, next, hreceived, hapi⟩

theorem client_handsOver_iff {client : Client}
    (hdecode : raw.decode crc32 DecodedForClient.tryFrom time = .ok (.ok (.dataTransfer packet)))
    (hknown : packet.message.connectionId ∈ client.connected ∨
      packet.delivery.metadata.address ∈ client.awaitingConnectionAck) :
    HandsOver client packet (client.onReceived crc32 raw time) ↔
      packet.message.connectionId ∉ client.connected := by
  have hreceived : client.onReceived crc32 raw time = .ok (client.onDataTransfer packet time) := by
    unfold Client.onReceived
    rw [hdecode]
    rfl
  rw [hreceived]
  unfold Client.onDataTransfer
  dsimp only
  cases hconnected : client.connected.lookup packet.message.connectionId with
  | some peer =>
    have hmem := Finmap.mem_of_lookup_eq_some hconnected
    refine iff_of_false ?_ (not_not_intro hmem)
    rintro ⟨value, next, heq, hapi⟩
    have hsame : (Service.core next).api = client.api := by
      cases heq
      rfl
    rw [hsame] at hapi
    exact absurd (congrArg List.length hapi) (by simp [Service.core])
  | none =>
    have hnone : packet.message.connectionId ∉ client.connected := by
      rw [mem_iff_lookup, hconnected]
      simp
    obtain ⟨peer, hfound⟩ := (mem_iff_lookup _ _).mp (hknown.resolve_left hnone)
    refine iff_of_true ?_ hnone
    simp only [hfound]
    exact ⟨(), _, rfl, rfl⟩

end Receiving

/-- A server hands over every data transfer of a peer that it knows. A client hands it over if
and only if it has no connected peer of that id yet. -/
theorem data_transfer_handed_over_iff (crc32 : Crc32) (raw : RawPacket) (time : Duration)
    (packet : Packet Received DataTransfer) :
    (∀ (server : Server) (hash : RandomState) (packetId : PacketId),
      raw.decode crc32 DecodedForServer.tryFrom time = .ok (.ok (.dataTransfer packet)) →
      packet.message.connectionId ∈ server.connected ∨
        packet.message.connectionId ∈ server.awaitingConnectionAck →
      HandsOver server packet (server.onReceived crc32 hash raw packetId time)) ∧
    ∀ client : Client,
      raw.decode crc32 DecodedForClient.tryFrom time = .ok (.ok (.dataTransfer packet)) →
      packet.message.connectionId ∈ client.connected ∨
        packet.delivery.metadata.address ∈ client.awaitingConnectionAck →
      (HandsOver client packet (client.onReceived crc32 raw time) ↔
        packet.message.connectionId ∉ client.connected) :=
  ⟨fun _ hash packetId hdecode hknown => server_handsOver hash packetId hdecode hknown,
    fun _ hdecode hknown => client_handsOver_iff hdecode hknown⟩

section Lost

def lostTransfer : Packet ToSend DataTransfer :=
  ⟨⟨1, ⟨.zero, .v4 1 1⟩⟩, .two, 1, .new .one [1, 2, 3]⟩

def connectedServer : AntarcNet Server where
  antarc :=
    { packetIdTracker := 1
      service := { Server.new with
        connected := Finmap.singleton .one ⟨.two, 1, 1, .v4 1 1,
          ⟨⟨.zero, 0, .zero⟩, .one, .zero, ∅⟩⟩ }
      reliableTtl := .fromSecs 2 }
  address := .v4 0 0
  socket := [⟨answeringAccept.datagram ieeeCrc32, .connectionAccepted answeringAccept, true⟩]

/-- The client takes a data transfer of its connected peer, and the application never sees it. -/
theorem client_loses_transfer :
    (clientRuns ieeeCrc32).Reachable connectedRun ∧
      (fromServer lostTransfer).decode ieeeCrc32 DecodedForClient.tryFrom .zero =
        .ok (.ok (.dataTransfer (Codec.arrived lostTransfer (.v4 0 0) .zero))) ∧
      lostTransfer.message.connectionId ∈ connectedRun.net.antarc.service.connected ∧
      ¬HandsOver connectedRun.net.antarc.service (Codec.arrived lostTransfer (.v4 0 0) .zero)
        (connectedRun.net.antarc.service.onReceived ieeeCrc32 (fromServer lostTransfer) .zero) := by
  have hdecode :=
    (Codec.roundTrips_dataTransfer ieeeCrc32 lostTransfer (.v4 0 0) .zero rfl).2.2
  have hconnected : lostTransfer.message.connectionId ∈
      connectedRun.net.antarc.service.connected := Finmap.mem_insert.mpr (.inl rfl)
  refine ⟨connectedRun_reachable, hdecode, hconnected, fun h => ?_⟩
  exact (client_handsOver_iff hdecode (.inl hconnected)).mp h hconnected

/-- A server that has the sender connected under this id hands the same transfer over. -/
theorem lostTransfer_handed_over :
    (∀ (hash : RandomState) (packetId : PacketId),
      let server : Server :=
        { Server.new with connected := connectedRun.net.antarc.service.connected }
      HandsOver server (Codec.arrived lostTransfer (.v4 0 0) .zero)
        (server.onReceived ieeeCrc32 hash (fromServer lostTransfer) packetId .zero)) ∧
      (HandsOver connectedRun.net.antarc.service (Codec.arrived lostTransfer (.v4 0 0) .zero)
          (connectedRun.net.antarc.service.onReceived ieeeCrc32 (fromServer lostTransfer) .zero) ↔
        lostTransfer.message.connectionId ∉ connectedRun.net.antarc.service.connected) := by
  have hdecodes := Codec.roundTrips_dataTransfer ieeeCrc32 lostTransfer (.v4 0 0) .zero rfl
  have hconnected : lostTransfer.message.connectionId ∈
      connectedRun.net.antarc.service.connected := Finmap.mem_insert.mpr (.inl rfl)
  obtain ⟨hserver, hclient⟩ := data_transfer_handed_over_iff ieeeCrc32 (fromServer lostTransfer)
    .zero (Codec.arrived lostTransfer (.v4 0 0) .zero)
  exact ⟨fun hash packetId => hserver _ hash packetId hdecodes.2.1 (.inl hconnected),
    hclient _ hdecodes.2.2 (.inl hconnected)⟩

end Lost

end Antarc.Properties
