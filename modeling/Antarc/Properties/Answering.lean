import Antarc.Properties.ClientRuns
import Antarc.Properties.ServerTable

/-! Receiving answers. Once a datagram is decoded the client's handlers always return,
and the server's do until a new peer asks for a number that is not there. -/
namespace Antarc.Properties

open Library

def Returns (returned : α → Prop) (call : Exec α) : Prop :=
  Ensures returned (fun _ => False) call

section Rules

variable {returned : α → Prop} {call : Exec α}

theorem returns_iff : Returns returned call ↔ ∃ value, call = .ok value ∧ returned value := by
  cases call with
  | error panic => exact ⟨fun h => h.elim, fun ⟨_, h, _⟩ => by contradiction⟩
  | ok value =>
    constructor
    · intro h
      exact ⟨value, rfl, h⟩
    · rintro ⟨_, hvalue, h⟩
      cases hvalue
      exact h

theorem returns_expect {message : String} {option : Option α} {value : α}
    (h : option = some value) : Returns (· = value) (expect message option) := by
  rw [h]
  rfl

end Rules

section Reassembly

theorem returns_ofFragments {fragments : List (Packet Received Fragment)} (h : fragments ≠ []) :
    Returns (fun _ => True) (Packet.ofFragments fragments) := by
  unfold Packet.ofFragments
  apply Ensures.bind (returns_expect (List.getLast?_eq_some_getLast h))
  intro last _
  trivial

theorem joinGroup_complete {reassembler next : Reassembler} {packet : Packet Received Fragment}
    (h : joinGroup reassembler packet = (next, true)) :
    ∃ fragments, next.lookup packet.sequence = some (fragments ++ [packet]) := by
  unfold joinGroup at h
  split at h
  · next fragments _ =>
    rw [← (Prod.mk.inj h).1]
    exact ⟨fragments, Finmap.lookup_insert _⟩
  · cases (Prod.mk.inj h).2

theorem returns_reassemble (peer : Peer Connected) (packet : Packet Received Fragment) :
    Returns (fun _ => True) (peer.reassemble packet) := by
  unfold Peer.reassemble
  split
  · trivial
  · next reassembler hjoin =>
    obtain ⟨fragments, hlookup⟩ := joinGroup_complete hjoin
    apply Ensures.bind (returns_expect hlookup)
    rintro group rfl
    have hsorted : (fragments ++ [packet]).mergeSort
        (fun a b => decide (a.sequence.get ≤ b.sequence.get)) ≠ [] := by
      rw [Ne, ← List.length_eq_zero_iff, List.length_mergeSort]
      simp
    apply Ensures.bind (returns_ofFragments hsorted)
    intro whole _
    trivial

end Reassembly

section Client

theorem returns_client_onFragment (client : Client) (packet : Packet Received Fragment) :
    Returns (fun _ => True) (client.onFragment packet) := by
  unfold Client.onFragment
  dsimp only
  split
  · apply Ensures.bind (returns_expect (Finmap.lookup_insert _))
    intro peer _
    apply Ensures.bind (returns_reassemble peer packet)
    rintro ⟨peer, payload⟩ _
    cases payload with
    | none => trivial
    | some payload => trivial
  · trivial

theorem returns_clientReceived {crc32 : Crc32} {raw : RawPacket} {now : Duration}
    {decoded : DecodedCommon} (hdecode : (raw.innerDecode crc32 now).run = .ok (.ok decoded))
    (protocol : Protocol Client) :
    Returns (fun _ => True) (protocol.clientReceived crc32 raw now) := by
  unfold Protocol.clientReceived Client.onReceived RawPacket.decode
  rw [hdecode]
  refine Ensures.bind ?_ (fun _ (_ : True) => trivial)
  cases decoded with
  | connectionRequest packet => trivial
  | connectionAccepted packet => trivial
  | dataTransfer packet => trivial
  | fragment packet => exact returns_client_onFragment protocol.service packet
  | heartbeat packet => trivial

end Client

section Server

/-- The server would have to register the sender of the datagram as a new peer. -/
def AsksForPeer (server : Server) (decoded : DecodedCommon) : Prop :=
  ∃ packet, decoded = .connectionRequest packet ∧
    server.connectionRequestAnotherState packet.delivery.metadata.address = false ∧
    packet.delivery.metadata.address ∉ server.banList

/-- The connection id tracker is at `u16::MAX`. -/
def LastConnectionId (server : Server) : Prop :=
  server.connectionIdTracker.get.toNat + 1 = UInt16.size

/-- The packet id tracker is at `u64::MAX`. -/
def LastPacketId (protocol : Protocol Server) : Prop :=
  protocol.packetIdTracker.toNat + 1 = UInt64.size

def UsesNoPacketId (outcome : Result Bool × Server) : Prop :=
  outcome.1 ≠ .ok true

theorem usesNoPacketId_false (server : Server) : UsesNoPacketId (.ok false, server) := by
  simp [UsesNoPacketId]

theorem usesNoPacketId_error (error : ProtocolError) (server : Server) :
    UsesNoPacketId (.error error, server) := by
  simp [UsesNoPacketId]

variable {server : Server} {crc32 : Crc32} {raw : RawPacket} {now : Duration}
  {packetId : PacketId} {decoded : DecodedCommon}

theorem returns_onDataTransfer (server : Server) (packet : Packet Received DataTransfer)
    (time : Duration) : Returns UsesNoPacketId (server.onDataTransfer packet time) := by
  unfold Server.onDataTransfer
  dsimp only
  split
  · exact usesNoPacketId_false _
  · exact usesNoPacketId_error _ _

theorem returns_server_onFragment (server : Server) (packet : Packet Received Fragment)
    (time : Duration) : Returns UsesNoPacketId (server.onFragment packet time) := by
  unfold Server.onFragment
  dsimp only
  split
  · next acked hacked =>
    obtain ⟨peer, hfound, -, -⟩ :=
      serverHears_of_acknowledge (headerOf Fragment.connectionId packet) hacked
    apply Ensures.bind (returns_expect hfound)
    intro peer _
    apply Ensures.bind (returns_reassemble peer packet)
    rintro ⟨peer, payload⟩ _
    cases payload with
    | none => exact usesNoPacketId_false _
    | some payload => exact usesNoPacketId_false _
  · exact usesNoPacketId_error _ _

theorem returns_onHeartbeat (server : Server) (packet : Packet Received Heartbeat)
    (time : Duration) : Returns UsesNoPacketId (server.onHeartbeat packet time) := by
  unfold Server.onHeartbeat
  dsimp only
  split
  · exact usesNoPacketId_false _
  · exact usesNoPacketId_false _

theorem returns_onConnectionRequest_refused (hash : RandomState)
    (packet : Packet Received ConnectionRequest)
    (hrefused : ¬AsksForPeer server (.connectionRequest packet)) :
    Returns UsesNoPacketId (server.onConnectionRequest hash packet packetId now) := by
  unfold Server.onConnectionRequest
  dsimp only
  split
  · exact usesNoPacketId_error _ _
  · next hexpected =>
    unfold Server.unexpectedConnection at hexpected
    split at hexpected
    · contradiction
    · next hunknown =>
      split at hexpected
      · contradiction
      · next hallowed =>
        exact absurd ⟨packet, rfl, Bool.eq_false_iff.mpr hunknown, hallowed⟩ hrefused

theorem returns_onReceived_other (hash : RandomState) (packetId : PacketId)
    (hdecode : (raw.innerDecode crc32 now).run = .ok (.ok decoded))
    (hother : ¬AsksForPeer server decoded) :
    Returns UsesNoPacketId (server.onReceived crc32 hash raw packetId now) := by
  unfold Server.onReceived RawPacket.decode
  rw [hdecode]
  cases decoded with
  | connectionRequest packet => exact returns_onConnectionRequest_refused hash packet hother
  | connectionAccepted packet => exact usesNoPacketId_error _ _
  | dataTransfer packet => exact returns_onDataTransfer server packet now
  | fragment packet => exact returns_server_onFragment server packet now
  | heartbeat packet => exact returns_onHeartbeat server packet now

theorem onConnectionRequest_overflows (hash : RandomState)
    {packet : Packet Received ConnectionRequest}
    (hrequesting : server.requestingConnection = ∅)
    (hunknown : server.connectionRequestAnotherState packet.delivery.metadata.address = false)
    (hallowed : packet.delivery.metadata.address ∉ server.banList)
    (hlast : LastConnectionId server) :
    server.onConnectionRequest hash packet packetId now = .error .overflow := by
  have hexpected : server.unexpectedConnection packet.delivery.metadata.address = .ok () := by
    rw [Server.unexpectedConnection, if_neg (by simp [hunknown]), if_neg hallowed]
  have hnext : addU16 server.connectionIdTracker.get 1 = .error .overflow := by
    have hsum : server.connectionIdTracker.get.toNat + (1 : UInt16).toNat = UInt16.size := hlast
    rw [addU16, if_neg (by omega)]
  have hnone : (hash.iterate server.requestingConnection).entries.find?
      (fun entry => entry.2.address = packet.delivery.metadata.address) = none := by
    rw [hrequesting, Iteration.entries_empty]
    rfl
  simp only [Server.onConnectionRequest, hexpected, hnone, hnext, error_bind]

theorem onReceived_overflows (hash : RandomState) (packetId : PacketId)
    (hdecode : (raw.innerDecode crc32 now).run = .ok (.ok decoded))
    (hrequesting : server.requestingConnection = ∅) (hasks : AsksForPeer server decoded)
    (hlast : LastConnectionId server) :
    server.onReceived crc32 hash raw packetId now = .error .overflow := by
  obtain ⟨packet, rfl, hunknown, hallowed⟩ := hasks
  unfold Server.onReceived RawPacket.decode
  rw [hdecode]
  exact onConnectionRequest_overflows hash hrequesting hunknown hallowed hlast

theorem onReceived_registers (hash : RandomState) (packetId : PacketId)
    (hdecode : (raw.innerDecode crc32 now).run = .ok (.ok decoded))
    (hrequesting : server.requestingConnection = ∅) (hasks : AsksForPeer server decoded)
    (hmore : ¬LastConnectionId server) :
    ∃ next, server.onReceived crc32 hash raw packetId now = .ok (.ok true, next) := by
  obtain ⟨packet, rfl, hunknown, hallowed⟩ := hasks
  have hbound := server.connectionIdTracker.get.toNat_lt
  have hnext : server.connectionIdTracker.get.toNat + 1 < 2 ^ 16 :=
    Nat.lt_of_le_of_ne hbound hmore
  obtain ⟨tracker, htracker⟩ := exists_id (Nat.le_add_left 1 _) hnext
  refine ⟨admitting server packet packetId now tracker, ?_⟩
  unfold Server.onReceived RawPacket.decode
  rw [hdecode]
  exact server_onConnectionRequest_registers hash packet packetId now tracker hrequesting hunknown
    hallowed htracker

/-- The service answers everything but the request of a new peer after the last id. -/
theorem onReceived_returns_iff (hash : RandomState)
    (hdecode : (raw.innerDecode crc32 now).run = .ok (.ok decoded))
    (hrequesting : server.requestingConnection = ∅) :
    (∃ result next, server.onReceived crc32 hash raw packetId now = .ok (result, next)) ↔
      ¬(AsksForPeer server decoded ∧ LastConnectionId server) := by
  by_cases hasks : AsksForPeer server decoded
  · by_cases hlast : LastConnectionId server
    · rw [onReceived_overflows hash _ hdecode hrequesting hasks hlast]
      simp [hasks, hlast]
    · obtain ⟨next, hnext⟩ :=
        onReceived_registers hash packetId hdecode hrequesting hasks hlast
      simp [hnext, hlast]
  · obtain ⟨⟨result, next⟩, hreturns, -⟩ :=
      returns_iff.mp (returns_onReceived_other hash packetId hdecode hasks)
    simp [hreturns, hasks]

theorem addU64_one_iff {n : UInt64} :
    (∃ sum, addU64 n 1 = .ok sum) ↔ ¬n.toNat + 1 = UInt64.size := by
  have hbound : n.toNat < UInt64.size := n.toNat_lt
  have hone : (1 : UInt64).toNat = 1 := rfl
  unfold addU64
  rw [hone]
  split
  · next hlt => simp; omega
  · next hge => simp; omega

theorem serverReceived_returns_iff {protocol : Protocol Server} (hash : RandomState)
    (hdecode : (raw.innerDecode crc32 now).run = .ok (.ok decoded))
    (hrequesting : protocol.service.requestingConnection = ∅) :
    (∃ result next, protocol.serverReceived crc32 hash raw now = .ok (result, next)) ↔
      ¬(AsksForPeer protocol.service decoded ∧
        (LastConnectionId protocol.service ∨ LastPacketId protocol)) := by
  unfold Protocol.serverReceived
  by_cases hasks : AsksForPeer protocol.service decoded
  · by_cases hlast : LastConnectionId protocol.service
    · rw [onReceived_overflows hash _ hdecode hrequesting hasks hlast]
      simp [hasks, hlast]
    · obtain ⟨next, hnext⟩ :=
        onReceived_registers hash protocol.packetIdTracker hdecode hrequesting hasks hlast
      rw [hnext]
      simp only [ok_bind, hasks, hlast, true_and, false_or]
      rw [LastPacketId, ← addU64_one_iff]
      cases hcount : addU64 protocol.packetIdTracker 1 with
      | error panic => simp
      | ok counter => simp [pure, Except.pure]
  · obtain ⟨⟨result, next⟩, hreturns, huses⟩ :=
      returns_iff.mp (returns_onReceived_other hash protocol.packetIdTracker hdecode hasks)
    rw [hreturns]
    simp only [ok_bind, hasks, false_and, not_false_iff, iff_true]
    rcases result with error | updatePacketId
    · exact ⟨_, _, rfl⟩
    · cases updatePacketId with
      | false => exact ⟨_, _, rfl⟩
      | true => exact absurd rfl huses

end Server

/-- Receiving a decoded datagram comes back with an answer: of a client always, of a server
unless a new peer asks after the last connection id or the last packet id. -/
theorem received_returns_iff (crc32 : Crc32) :
    (∀ (protocol : Protocol Client) raw now decoded,
      (raw.innerDecode crc32 now).run = .ok (.ok decoded) →
      ∃ result next, protocol.clientReceived crc32 raw now = .ok (result, next)) ∧
    ∀ protocol, (serverCalls crc32).Reachable protocol → ∀ hash raw now decoded,
      (raw.innerDecode crc32 now).run = .ok (.ok decoded) →
      ((∃ result next, protocol.service.onReceived crc32 hash raw protocol.packetIdTracker now =
          .ok (result, next)) ↔
        ¬(AsksForPeer protocol.service decoded ∧ LastConnectionId protocol.service)) ∧
      ((∃ result next, protocol.serverReceived crc32 hash raw now = .ok (result, next)) ↔
        ¬(AsksForPeer protocol.service decoded ∧
          (LastConnectionId protocol.service ∨ LastPacketId protocol))) := by
  constructor
  · intro protocol raw now decoded hdecode
    obtain ⟨⟨result, next⟩, hreturns, -⟩ :=
      returns_iff.mp (returns_clientReceived hdecode protocol)
    exact ⟨result, next, hreturns⟩
  · intro protocol h hash raw now decoded hdecode
    obtain ⟨registry, table⟩ := serverTable_reachable h
    constructor
    · exact onReceived_returns_iff hash hdecode table.requesting
    · exact serverReceived_returns_iff hash hdecode table.requesting

section Flood

def requestOf (n : Nat) : Packet Received ConnectionRequest :=
  ⟨⟨⟨.zero, .v4 (BitVec.ofNat 32 n) 0⟩⟩, .one, 0, ⟨⟨connectionRequest⟩⟩⟩

def requestDatagram (n : Nat) : RawPacket :=
  requestFrom (.v4 (BitVec.ofNat 32 n) 0)

theorem requestDatagram_decodes (n : Nat) :
    ((requestDatagram n).innerDecode ieeeCrc32 .zero).run =
      .ok (.ok (.connectionRequest (requestOf n))) :=
  (Codec.roundTrips_connectionRequest ieeeCrc32 askingPacket _ .zero rfl).1

def idOf (n : Nat) : ConnectionId :=
  (NonZeroU16.new (UInt16.ofNat n)).getD .one

theorem idOf_get {n : Nat} (hpositive : 1 ≤ n) (hsmall : n < 2 ^ 16) : (idOf n).get.toNat = n := by
  obtain ⟨id, hid⟩ := exists_id hpositive hsmall
  have hget : UInt16.ofNat n = id.get := by
    rw [← hid]
    exact UInt16.ofNat_toNat
  rw [idOf, hget, NonZeroU16.new_get, Option.getD_some, hid]

theorem addU64_ofNat {n : Nat} (hsmall : n + 1 < UInt64.size) :
    addU64 (UInt64.ofNat n) 1 = .ok (UInt64.ofNat (n + 1)) := by
  have hn : (UInt64.ofNat n).toNat = n := UInt64.toNat_ofNat_of_lt' (Nat.lt_of_succ_lt hsmall)
  have hone : (1 : UInt64).toNat = 1 := rfl
  rw [addU64, hn, hone, if_pos hsmall, UInt64.ofNat_add]
  rfl

def floodedServer : Nat → Protocol Server
  | 0 => .newServer .zero
  | n + 1 =>
      let server := floodedServer n
      { packetIdTracker := UInt64.ofNat (n + 1)
        service := admitting server.service (requestOf n) server.packetIdTracker .zero (idOf (n + 2))
        reliableTtl := server.reliableTtl }

theorem known_admitting {server : Server} {packet : Packet Received ConnectionRequest}
    {packetId : PacketId} {time : Duration} {tracker : ConnectionId} {address : SocketAddr}
    (h : (admitting server packet packetId time tracker).connectionRequestAnotherState address =
      true) :
    address = packet.delivery.metadata.address ∨
      server.connectionRequestAnotherState address = true := by
  unfold Server.connectionRequestAnotherState at h ⊢
  rw [Bool.or_eq_true, anyValue_iff, anyValue_iff] at h ⊢
  rcases h with ⟨id, peer, hfound, haddress⟩ | hconnected
  · simp only [admitting, lookup_insert_eq] at hfound
    split at hfound
    · cases hfound
      left
      simpa [Peer.awaitConnectionAck, Peer.new, eq_comm] using haddress
    · exact .inr (.inl ⟨id, peer, hfound, haddress⟩)
  · exact .inr (.inr hconnected)

structure Flooded (n : Nat) (protocol : Protocol Server) : Prop where
  reachable : (serverCalls ieeeCrc32).Reachable protocol
  connectionIds : protocol.service.connectionIdTracker.get.toNat = n + 1
  packetIds : protocol.packetIdTracker = UInt64.ofNat n
  allowed : protocol.service.banList = []
  known : ∀ address, protocol.service.connectionRequestAnotherState address = true →
    ∃ k, k < n ∧ address = .v4 (BitVec.ofNat 32 k) 0

theorem Flooded.unknown {n : Nat} {protocol : Protocol Server} (h : Flooded n protocol)
    (hsmall : n < 2 ^ 32) :
    protocol.service.connectionRequestAnotherState (.v4 (BitVec.ofNat 32 n) 0) = false := by
  rw [Bool.eq_false_iff]
  intro hknown
  obtain ⟨k, hk, haddress⟩ := h.known _ hknown
  have hsame : BitVec.ofNat 32 n = BitVec.ofNat 32 k := (SocketAddr.v4.inj haddress).1
  have heq := congrArg BitVec.toNat hsame
  rw [BitVec.toNat_ofNat, BitVec.toNat_ofNat, Nat.mod_eq_of_lt hsmall,
    Nat.mod_eq_of_lt (Nat.lt_trans hk hsmall)] at heq
  omega

theorem floodedServer_flooded (n : Nat) (hsmall : n + 1 < 2 ^ 16) : Flooded n (floodedServer n) := by
  induction n with
  | zero =>
    refine ⟨.start ⟨.zero, rfl⟩, rfl, rfl, rfl, fun address hknown => ?_⟩
    unfold Server.connectionRequestAnotherState at hknown
    rw [Bool.or_eq_true, anyValue_iff, anyValue_iff] at hknown
    rcases hknown with ⟨id, peer, hfound, -⟩ | ⟨id, peer, hfound, -⟩
    · cases (Finmap.lookup_empty id).symm.trans hfound
    · cases (Finmap.lookup_empty id).symm.trans hfound
  | succ n ih =>
    have flooded := ih (by omega)
    have htracker : (idOf (n + 2)).get.toNat = n + 1 + 1 := idOf_get (by omega) hsmall
    have hunknown := flooded.unknown (by omega)
    obtain ⟨registry, table⟩ := serverTable_reachable flooded.reachable
    refine ⟨?_, htracker, rfl, flooded.allowed, ?_⟩
    · refine flooded.reachable.next (.received (Classical.arbitrary RandomState)
        (requestDatagram n) .zero (.ok ()) ?_)
      refine serverReceived_registers ?_ table.requesting hunknown ?_ ?_ ?_
      · exact (Codec.roundTrips_connectionRequest ieeeCrc32 askingPacket _ .zero rfl).2.1
      · rw [flooded.allowed]
        exact List.not_mem_nil
      · rw [htracker, flooded.connectionIds]
      · rw [flooded.packetIds]
        exact addU64_ofNat (by unfold UInt64.size; omega)
    · intro address hknown
      rcases known_admitting hknown with rfl | hold
      · exact ⟨n, Nat.lt_succ_self n, rfl⟩
      · obtain ⟨k, hk, rfl⟩ := flooded.known address hold
        exact ⟨k, Nat.lt_succ_of_lt hk, rfl⟩

/-- After requests from 65534 addresses, the request of one more overflows the tracker. -/
theorem floodedServer_panics :
    (serverCalls ieeeCrc32).Reachable (floodedServer 65534) ∧
      ((requestDatagram 65534).innerDecode ieeeCrc32 .zero).run =
        .ok (.ok (.connectionRequest (requestOf 65534))) ∧
      ∀ hash, (floodedServer 65534).serverReceived ieeeCrc32 hash (requestDatagram 65534) .zero =
        .error .overflow := by
  have flooded := floodedServer_flooded 65534 (by omega)
  obtain ⟨registry, table⟩ := serverTable_reachable flooded.reachable
  refine ⟨flooded.reachable, requestDatagram_decodes 65534, fun hash => ?_⟩
  have hasks : AsksForPeer (floodedServer 65534).service (.connectionRequest (requestOf 65534)) := by
    refine ⟨_, rfl, flooded.unknown (by omega), ?_⟩
    rw [flooded.allowed]
    exact List.not_mem_nil
  have hlast : LastConnectionId (floodedServer 65534).service := by
    rw [LastConnectionId, flooded.connectionIds]
  unfold Protocol.serverReceived
  rw [onReceived_overflows hash _ (requestDatagram_decodes 65534) table.requesting hasks hlast]
  exact error_bind _ _

/-- A server that has been asked once answers a second address, and the client answers
whatever it decodes. -/
theorem requestedServer_answers :
    (∃ result next, askedRun.net.antarc.clientReceived ieeeCrc32 (requestDatagram 1) .zero =
      .ok (result, next)) ∧
    (∃ result next, requestedServer.serverReceived ieeeCrc32 (Classical.arbitrary RandomState)
      (requestDatagram 1) .zero = .ok (result, next)) := by
  constructor
  · exact (received_returns_iff ieeeCrc32).1 askedRun.net.antarc _ .zero _
      (requestDatagram_decodes 1)
  · refine (((received_returns_iff ieeeCrc32).2 requestedServer requestedServer_reachable _ _ .zero _
      (requestDatagram_decodes 1)).2).mpr ?_
    rintro ⟨-, hlast | hlast⟩
    · exact absurd hlast (by unfold LastConnectionId; decide)
    · exact absurd hlast (by unfold LastPacketId; decide)

end Flood

end Antarc.Properties
