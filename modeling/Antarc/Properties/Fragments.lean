import Antarc.Properties.Groups

/-! Fragments on an ideal link. What the receiver puts together lacks the last fragment, so
no payload that was cut arrives whole. -/
namespace Antarc.Properties

open Library

section Receiver

variable {T A B E : Type} [Service T A B E] {crc32 : Crc32} {id : ConnectionId}

/-- Of fragments that carry so many bytes, the application is told of payloads of fewer. -/
theorem receiveEach_short {receive : Duration → RawPacket → Protocol T → Exec (Protocol T)}
    (hreceive : ReceivesFragments crc32 id receive) {start bytes : Nat} {source : SocketAddr}
    {packets : List (Packet ToSend Fragment)} {clock : Nat → Duration}
    {protocol after : Protocol T} {peer : Peer Connected}
    (hpackets : ∀ packet ∈ packets, packet.message.metadata = ⟨fragment⟩ ∧
      packet.message.connectionId = id ∧ packet.message.payload ≠ [] ∧
      start ≤ packet.sequence.get.toNat)
    (hfound : protocol.core.connected.lookup id = some peer)
    (hkept : KeepsShort start bytes peer.connection.reassembler)
    (h : receiveEach receive clock
      (packets.map fun packet => ⟨source, (packet.datagram crc32).bytes⟩) protocol = .ok after) :
    ∃ payloads : List Payload, after.core.api =
        protocol.core.api ++ payloads.map (.dataTransfer id) ∧
      ∀ payload ∈ payloads,
        payload.length < bytes + (packets.map fun packet => packet.message.payload.length).sum := by
  induction packets generalizing protocol peer bytes clock with
  | nil =>
    cases h
    exact ⟨[], (List.append_nil _).symm, fun _ hmem => by contradiction⟩
  | cons packet rest ih =>
    obtain ⟨hmetadata, hid, hpayload, hstart⟩ := hpackets packet List.mem_cons_self
    obtain ⟨middle, hturn, h⟩ := bind_eq_ok.mp h
    rw [hreceive protocol peer packet source (clock 0) hmetadata hid hfound] at hturn
    obtain ⟨⟨reassembled, whole⟩, hreassemble, rfl⟩ := map_eq_ok.mp hturn
    obtain ⟨hshort, hwhole⟩ := reassemble_short hreassemble hkept hstart hpayload
    obtain ⟨payloads, hevents, hpayloads⟩ := ih
      (fun other hmem => hpackets other (List.mem_cons_of_mem _ hmem))
      (by rw [core_reassembledFor]; exact Finmap.lookup_insert _) hshort h
    refine ⟨whole.toList ++ payloads, ?_, ?_⟩
    · rw [hevents, core_reassembledFor, List.map_append, List.append_assoc]
    · intro payload hmem
      rw [List.map_cons, List.sum_cons]
      rcases List.mem_append.mp hmem with hmem | hmem
      · have hlt := hwhole payload (Option.mem_toList.mp hmem)
        simp only [Codec.arrived] at hlt
        omega
      · have hlt := hpayloads payload hmem
        simp only [Codec.arrived] at hlt
        omega

end Receiver

section Chunks

theorem numberedChunks_bytes (payload : Payload) :
    ((numberedChunks payload).map fun chunk => chunk.1.length).sum = payload.length ∧
      ∀ chunk ∈ numberedChunks payload, chunk.1 ≠ [] := by
  have hsize : 0 < maxFragmentSize - Message.headerSize Fragment := by decide
  have hfst : (numberedChunks payload).map Prod.fst =
      chunks (maxFragmentSize - Message.headerSize Fragment) payload := List.zipIdx_map_fst 0 _
  constructor
  · have hlength := congrArg List.length (flatten_chunks hsize payload)
    rw [List.length_flatten, ← hfst, List.map_map] at hlength
    exact hlength
  · intro chunk hmem
    have hchunk := List.mem_map_of_mem (f := Prod.fst) hmem
    rw [hfst] at hchunk
    exact chunk_ne_nil hsize hchunk

theorem two_le_numberedChunks {payload : Payload}
    (hlong : maxFragmentSize - Message.headerSize Fragment < payload.length) :
    1 < (numberedChunks payload).length := by
  unfold numberedChunks
  rw [List.length_zipIdx, length_chunks, chunkCount]
  change 1483 < payload.length at hlong
  change 1 < (payload.length + 1483 - 1) / 1483
  omega

theorem completes_fragment {total index : Nat} (id : ConnectionId) (payload : Payload)
    (htotal : total < 256) (hindex : index < total) :
    Carried.completes (fragmentMessage total id (payload, index)) =
      .ok (decide (index + 1 = total)) := by
  have htotalNat : (UInt8.ofNat total).toNat = total := UInt8.toNat_ofNat_of_lt htotal
  have hindexNat : (UInt8.ofNat index).toNat = index := UInt8.toNat_ofNat_of_lt (hindex.trans htotal)
  have hle : (1 : UInt8) ≤ UInt8.ofNat total := by
    rw [UInt8.le_iff_toNat_le, htotalNat]
    change 1 ≤ total
    omega
  have hsub : subU8 (UInt8.ofNat total) 1 = .ok (UInt8.ofNat total - 1) := if_pos hle
  have heq : UInt8.ofNat index = UInt8.ofNat total - 1 ↔ index + 1 = total := by
    rw [← UInt8.toNat_inj, UInt8.toNat_sub_of_le _ _ hle, htotalNat, hindexNat]
    change index = total - 1 ↔ _
    omega
  change (subU8 (UInt8.ofNat total) 1 >>= fun last =>
    pure (decide (UInt8.ofNat index = last))) = _
  rw [hsub]
  exact congrArg Except.ok (decide_eq_decide.mpr heq)

end Chunks

section Whole

variable {S A B E : Type} [Service S A B E] {T C D F : Type} [Service T C D F]

def isTransferOf (id : ConnectionId) : ProtocolEvent F → Bool
  | .dataTransfer connectionId _ => connectionId = id
  | _ => false

def sendFragments (crc32 : Crc32) (reliability : ReliabilityType) (clock : Nat → Duration)
    (before net : AntarcNet S) : Drive (AntarcNet S) :=
  match reliability with
  | .reliable => AntarcNet.sendEach crc32 Protocol.createReliableFragment
      (fun protocol packet now => protocol.sent packet .reliable now) clock
      (newEntries Reliable Fragment before net) net
  | .unreliable => AntarcNet.sendEach crc32 Protocol.createUnreliableFragment
      (fun protocol packet now => protocol.sent packet .unreliable now) clock
      (newEntries Unreliable Fragment before net) net

/-- The payload is scheduled, its fragments are sent and then received, once each and in
order, and the receiver tells its application of this payload and of no other. -/
def FragmentsArrive (crc32 : Crc32) (receive : Duration → RawPacket → Protocol T → Exec (Protocol T))
    (id : ConnectionId) (hash : RandomState) (reliability : ReliabilityType) (sendTo : SendTo)
    (payload : Payload) (now : Duration) (sending receiving : Nat → Duration)
    (sender : AntarcNet S) (receiver : Protocol T) : Prop :=
  ∃ packetId scheduled sent after events,
    sender.schedule hash reliability sendTo payload now = .ok (.ok packetId, scheduled) ∧
    sendFragments crc32 reliability sending sender scheduled = .ok sent ∧
    receiveEach receive receiving (arriving sender sent) receiver = .ok after ∧
    after.core.api = receiver.core.api ++ events ∧
    events.filter (isTransferOf id) = [.dataTransfer id payload]

/-- On a link that has been ideal so far, the receiver holds fragments of those sequences only
that the sender has moved on from. -/
def IdealSoFar (sender receiver : Peer Connected) : Prop :=
  ∀ sequence ∈ receiver.connection.reassembler,
    sequence.get.toNat < sender.sequenceTracker.get.toNat

theorem IdealSoFar.keepsShort {sender receiver : Peer Connected} (h : IdealSoFar sender receiver) :
    KeepsShort sender.sequenceTracker.get.toNat 0 receiver.connection.reassembler := by
  intro sequence fragments hfound hstart
  have hlt := h sequence (Finmap.mem_of_lookup_eq_some hfound)
  omega

section Cut

variable {crc32 : Crc32} {receive : Duration → RawPacket → Protocol T → Exec (Protocol T)}
  {id : ConnectionId} {peer other : Peer Connected} {payload : Payload} {packetId : PacketId}
  {now : Duration} {sending receiving : Nat → Duration} {sender scheduled sent : AntarcNet S}
  {receiver after : Protocol T}

theorem chunks_arrive_short {R : Type} {reliability : ReliabilityType} {own : R} {total : Nat}
    {create : Protocol S → Scheduled R Fragment → Duration → Exec (Packet ToSend Fragment)}
    {message : String} (hcreate : ∀ protocol scheduled now,
      create protocol scheduled now = protocol.core.createCarried message scheduled now)
    (hreceive : ReceivesFragments crc32 id receive)
    (hsender : scheduled.antarc.core.connected.lookup id = some peer)
    (hstays : StaysPut scheduled.antarc.service peer.address)
    (hreceiver : receiver.core.connected.lookup id = some other) (hideal : IdealSoFar peer other)
    (hsent : AntarcNet.sendEach crc32 create
      (fun protocol packet now => protocol.sent packet reliability now) sending
      (entriesFor own (fragmentMessage total) packetId now [(id, peer.address)]
        (numberedChunks payload)) scheduled = .ok sent)
    (hafter : receiveEach receive receiving (arriving scheduled sent) receiver = .ok after) :
    ∃ payloads : List Payload,
      after.core.api = receiver.core.api ++ payloads.map (.dataTransfer id) ∧
      ∀ whole ∈ payloads, whole.length < payload.length := by
  rw [entriesFor_one] at hsent
  obtain ⟨packets, hsocket, hmessages, hsequences⟩ := sendEach_sends hcreate (by
    intro entry hmem
    obtain ⟨chunk, -, rfl⟩ := List.mem_map.mp hmem
    exact ⟨rfl, rfl⟩) hsender hstays hsent
  rw [List.map_map] at hmessages
  obtain ⟨hbytes, hnonempty⟩ := numberedChunks_bytes payload
  have hcarried : (packets.map fun packet => packet.message.payload.length).sum =
      payload.length := by
    have hlengths := congrArg (List.map fun message => message.payload.length) hmessages
    rw [List.map_map, List.map_map] at hlengths
    rw [← hbytes]
    exact congrArg List.sum hlengths
  have hpackets : ∀ packet ∈ packets, packet.message.metadata = ⟨fragment⟩ ∧
      packet.message.connectionId = id ∧ packet.message.payload ≠ [] ∧
      peer.sequenceTracker.get.toNat ≤ packet.sequence.get.toNat := by
    intro packet hmem
    have hmessage := List.mem_map_of_mem (f := Packet.message) hmem
    rw [hmessages] at hmessage
    obtain ⟨chunk, hchunk, heq⟩ := List.mem_map.mp hmessage
    rw [← heq]
    exact ⟨rfl, rfl, hnonempty chunk hchunk, hsequences packet hmem⟩
  rw [arriving_firstSendings hsocket] at hafter
  obtain ⟨payloads, hapi, hshort⟩ :=
    receiveEach_short hreceive hpackets hreceiver hideal.keepsShort hafter
  rw [hcarried, Nat.zero_add] at hshort
  exact ⟨payloads, hapi, hshort⟩

theorem not_fragmentsArrive (hreceive : ReceivesFragments crc32 id receive)
    (hone : sender.antarc.core.connected = Finmap.singleton id peer)
    (hstays : StaysPut sender.antarc.service peer.address)
    (hreceiver : receiver.core.connected.lookup id = some other) (hideal : IdealSoFar peer other)
    (hlong : maxFragmentSize - Message.headerSize Fragment < payload.length)
    (hash : RandomState) (reliability : ReliabilityType) (sendTo : SendTo) :
    ¬FragmentsArrive crc32 receive id hash reliability sendTo payload now sending receiving
      sender receiver := by
  rintro ⟨packetId, scheduled, sent, after, events, hschedule, hsent, hafter, hapi, hevents⟩
  have hcut := two_le_numberedChunks hlong
  have hpayload : payload ≠ [] := List.ne_nil_of_length_pos (by omega)
  obtain ⟨⟨_, antarc⟩, hcall, hpure⟩ := bind_eq_ok.mp hschedule
  cases hpure
  obtain ⟨-, rfl⟩ := schedule_to_one hone hpayload (attempt_eq_ok.mp hcall)
  let scheduled : AntarcNet S := { sender with
    antarc := queuedForOne sender.antarc reliability (id, peer.address) payload now packetId }
  have hconnected : scheduled.antarc.core.connected.lookup id = some peer := by
    rw [core_queuedForOne, hone]
    exact Finmap.lookup_singleton_eq
  have hstays : StaysPut scheduled.antarc.service peer.address := hstays.setCore _
  have hshort : ∃ payloads : List Payload,
      after.core.api = receiver.core.api ++ payloads.map (.dataTransfer id) ∧
      ∀ whole ∈ payloads, whole.length < payload.length := by
    change sendFragments crc32 reliability sending sender scheduled = .ok sent at hsent
    change receiveEach receive receiving (arriving scheduled sent) receiver = .ok after at hafter
    unfold sendFragments newEntries at hsent
    rw [core_queuedForOne] at hsent
    unfold queued at hsent
    rw [if_pos hcut] at hsent
    cases reliability with
    | reliable =>
      simp only [queue_pushAll, List.drop_left] at hsent
      exact chunks_arrive_short (fun _ _ _ => rfl) hreceive hconnected hstays hreceiver hideal
        hsent hafter
    | unreliable =>
      simp only [queue_pushAll, List.drop_left] at hsent
      exact chunks_arrive_short (fun _ _ _ => rfl) hreceive hconnected hstays hreceiver hideal
        hsent hafter
  obtain ⟨payloads, hpushed, hlt⟩ := hshort
  have hsame : events = payloads.map (.dataTransfer id) :=
    List.append_cancel_left (hapi.symm.trans hpushed)
  have hmem : ProtocolEvent.dataTransfer id payload ∈ events := by
    apply List.mem_of_mem_filter
    rw [hevents]
    exact List.mem_singleton_self _
  rw [hsame] at hmem
  obtain ⟨whole, hwhole, heq⟩ := List.mem_map.mp hmem
  cases heq
  exact absurd (hlt payload hwhole) (Nat.lt_irrefl _)

/-- What arrives of a group that is sent under one sequence is all of it but its last part. -/
theorem chunks_arrive {R : Type} {reliability : ReliabilityType} {own : R}
    {create : Protocol S → Scheduled R Fragment → Duration → Exec (Packet ToSend Fragment)}
    {message : String} (hcreate : ∀ protocol scheduled now,
      create protocol scheduled now = protocol.core.createCarried message scheduled now)
    (hreceive : ReceivesFragments crc32 id receive)
    (hsender : scheduled.antarc.core.connected.lookup id = some peer)
    (hstays : StaysPut scheduled.antarc.service peer.address)
    (hreceiver : receiver.core.connected.lookup id = some other) (hideal : IdealSoFar peer other)
    {before : List (Payload × Nat)} {last : Payload} {sequence : Sequence}
    (hbefore : ∀ chunk ∈ before, chunk.2 < before.length) (hsome : before ≠ [])
    (hcount : before.length + 1 < 256)
    (hnext : peer.sequenceTracker.checkedAdd 1 = some sequence)
    (hchecksums : ∀ chunk ∈ before ++ [(last, before.length)],
      checksumOf crc32 peer.sequenceTracker peer.remoteAckTracker
        (fragmentMessage (before.length + 1) id chunk) ≠ 0) :
    ∃ sent after, AntarcNet.sendEach crc32 create
        (fun protocol packet now => protocol.sent packet reliability now) sending
        (entriesFor own (fragmentMessage (before.length + 1)) packetId now [(id, peer.address)]
          (before ++ [(last, before.length)])) scheduled = .ok sent ∧
      receiveEach receive receiving (arriving scheduled sent) receiver = .ok after ∧
      after.core.api = receiver.core.api ++
        [.dataTransfer id (before.map Prod.fst).flatten] := by
  let entry (chunk : Payload × Nat) : Scheduled R Fragment :=
    ⟨packetId, peer.address, now, own, fragmentMessage (before.length + 1) id chunk⟩
  have hfor : AllFor id peer.address (before.map entry ++ [entry (last, before.length)]) := by
    rw [← List.map_singleton, ← List.map_append]
    intro scheduled hmem
    obtain ⟨chunk, -, rfl⟩ := List.mem_map.mp hmem
    exact ⟨rfl, rfl⟩
  have hparts : ∀ part ∈ before.map entry, Carried.completes part.message = .ok false := by
    intro part hmem
    obtain ⟨chunk, hchunk, rfl⟩ := List.mem_map.mp hmem
    have hlt := hbefore chunk hchunk
    refine (completes_fragment id chunk.1 hcount (by omega)).trans ?_
    exact congrArg Except.ok (decide_eq_false (by omega))
  have hlast : Carried.completes (entry (last, before.length)).message = .ok true :=
    (completes_fragment id last hcount (Nat.lt_succ_self _)).trans
      (congrArg Except.ok (decide_eq_true rfl))
  have hnonzero : ∀ scheduled ∈ before.map entry ++ [entry (last, before.length)],
      checksumOf crc32 peer.sequenceTracker peer.remoteAckTracker scheduled.message ≠ 0 := by
    rw [← List.map_singleton, ← List.map_append]
    intro scheduled hmem
    obtain ⟨chunk, hchunk, rfl⟩ := List.mem_map.mp hmem
    exact hchecksums chunk hchunk
  obtain ⟨sent, packets, hsent, hsocket, hmessages, hsequences⟩ := sendEach_group reliability
    hcreate sending hparts hlast hfor hsender hstays hnext hnonzero
  have hcarried : packets.map Packet.message = (before ++ [(last, before.length)]).map
      (fragmentMessage (before.length + 1) id) := by
    rw [hmessages, ← List.map_singleton, ← List.map_append, List.map_map]
    rfl
  have hlength : packets.length = before.length + 1 := by
    have hlengths := congrArg List.length hcarried
    rwa [List.length_map, List.length_map, List.length_append, List.length_singleton] at hlengths
  have hmany : 2 ≤ packets.length := by
    have hpositive := List.length_pos_of_ne_nil hsome
    omega
  let arrivals := packets.map fun packet => (⟨packet, scheduled.address⟩ : Arrival)
  have hbelongs : ∀ arrival ∈ arrivals,
      Belongs id peer.sequenceTracker packets.length arrival.packet := by
    intro arrival harrival
    obtain ⟨packet, hmem, rfl⟩ := List.mem_map.mp harrival
    have hmessage := List.mem_map_of_mem (f := Packet.message) hmem
    rw [hcarried] at hmessage
    obtain ⟨chunk, -, heq⟩ := List.mem_map.mp hmessage
    constructor
    · rw [← heq]
      rfl
    · rw [← heq]
      rfl
    · exact hsequences packet hmem
    · rw [hlength, ← heq]
      exact UInt8.toNat_ofNat_of_lt hcount
  have hnone : peer.sequenceTracker ∉ other.connection.reassembler :=
    fun hmem => Nat.lt_irrefl _ (hideal _ hmem)
  obtain ⟨after, hafter, hevents, -⟩ := receiveEach_completes hreceive hbelongs hmany
    (List.length_map _) receiving ⟨other, hreceiver, hnone⟩
  rw [List.map_map] at hafter
  refine ⟨sent, after, ?_, arriving_firstSendings hsocket ▸ hafter, ?_⟩
  · rw [entriesFor_one, List.map_append, List.map_singleton]
    exact hsent
  · have hpayloads := congrArg (List.map Fragment.payload) (congrArg List.dropLast hcarried)
    rw [← List.map_dropLast, List.map_map, List.map_append, List.map_singleton,
      List.dropLast_concat, List.map_map] at hpayloads
    have hword : wordOf Arrival.payload arrivals =
        (packets.dropLast.map fun packet => packet.message.payload).flatten := by
      rw [wordOf, ← List.map_dropLast, List.map_map]
      rfl
    rw [hevents, hword]
    exact congrArg (fun payloads : List Payload => receiver.core.api ++
      [.dataTransfer id payloads.flatten]) hpayloads

theorem cut_payload_arrives_short (hreceive : ReceivesFragments crc32 id receive)
    (hone : sender.antarc.core.connected = Finmap.singleton id peer)
    (hstays : StaysPut sender.antarc.service peer.address)
    (hreceiver : receiver.core.connected.lookup id = some other) (hideal : IdealSoFar peer other)
    {before : List (Payload × Nat)} {last : Payload} {sequence : Sequence}
    (hsplit : numberedChunks payload = before ++ [(last, before.length)])
    (hbefore : ∀ chunk ∈ before, chunk.2 < before.length) (hsome : before ≠ [])
    (hcount : before.length + 1 < 256)
    (hcounted : addU64 sender.antarc.packetIdTracker 1 = .ok packetId)
    (hnext : peer.sequenceTracker.checkedAdd 1 = some sequence)
    (hchecksums : ∀ chunk ∈ numberedChunks payload,
      checksumOf crc32 peer.sequenceTracker peer.remoteAckTracker
        (fragmentMessage (before.length + 1) id chunk) ≠ 0)
    (hash : RandomState) (reliability : ReliabilityType) {sendTo : SendTo}
    (hsendTo : sendTo = .single id ∨ sendTo = .broadcast) :
    ∃ scheduled sent after,
      sender.schedule hash reliability sendTo payload now = .ok (.ok packetId, scheduled) ∧
      sendFragments crc32 reliability sending sender scheduled = .ok sent ∧
      receiveEach receive receiving (arriving sender sent) receiver = .ok after ∧
      after.core.api = receiver.core.api ++
        [.dataTransfer id (before.map Prod.fst).flatten] := by
  let scheduled : AntarcNet S := { sender with
    antarc := queuedForOne sender.antarc reliability (id, peer.address) payload now packetId }
  have hschedule : sender.schedule hash reliability sendTo payload now =
      .ok (.ok packetId, scheduled) := by
    unfold AntarcNet.schedule AntarcNet.forward
    rw [schedule_one hone hsendTo, hcounted]
    rfl
  have hconnected : scheduled.antarc.core.connected.lookup id = some peer := by
    rw [core_queuedForOne, hone]
    exact Finmap.lookup_singleton_eq
  have hstays : StaysPut scheduled.antarc.service peer.address := hstays.setCore _
  have hlength : (numberedChunks payload).length = before.length + 1 := by
    rw [hsplit, List.length_append, List.length_singleton]
  have hcut : before.length + 1 > 1 := by
    have hpositive := List.length_pos_of_ne_nil hsome
    omega
  rw [hsplit] at hchecksums
  have hsent : ∃ sent after, sendFragments crc32 reliability sending sender scheduled = .ok sent ∧
      receiveEach receive receiving (arriving scheduled sent) receiver = .ok after ∧
      after.core.api = receiver.core.api ++
        [.dataTransfer id (before.map Prod.fst).flatten] := by
    unfold sendFragments newEntries
    rw [core_queuedForOne, hlength]
    unfold queued
    rw [if_pos hcut, hsplit]
    cases reliability with
    | reliable =>
      simp only [queue_pushAll, List.drop_left]
      exact chunks_arrive (fun _ _ _ => rfl) hreceive hconnected hstays hreceiver hideal hbefore
        hsome hcount hnext hchecksums
    | unreliable =>
      simp only [queue_pushAll, List.drop_left]
      exact chunks_arrive (fun _ _ _ => rfl) hreceive hconnected hstays hreceiver hideal hbefore
        hsome hcount hnext hchecksums
  obtain ⟨sent, after, hsent, harrives⟩ := hsent
  exact ⟨scheduled, sent, after, hschedule, hsent, harrives⟩

end Cut

end Whole

/-- No payload that is cut arrives, at either service. -/
theorem cut_payload_never_arrives (crc32 : Crc32) (hash : RandomState)
    (reliability : ReliabilityType) (sendTo : SendTo) (payload : Payload) (now : Duration)
    (sending receiving : Nat → Duration) (id : ConnectionId) (peer other : Peer Connected)
    (hlong : maxFragmentSize - Message.headerSize Fragment < payload.length)
    (hideal : IdealSoFar peer other) :
    (∀ (sender : AntarcNet Client) (receiver : Protocol Server) (serverHash : RandomState),
      sender.antarc.core.connected = Finmap.singleton id peer →
      peer.address ∉ sender.antarc.service.awaitingConnectionAck →
      receiver.core.connected.lookup id = some other →
      ¬FragmentsArrive crc32 (receiveAtServer crc32 serverHash) id hash reliability sendTo payload
        now sending receiving sender receiver) ∧
    ∀ (sender : AntarcNet Server) (receiver : Protocol Client),
      sender.antarc.core.connected = Finmap.singleton id peer →
      receiver.core.connected.lookup id = some other →
      ¬FragmentsArrive crc32 (receiveAtClient crc32) id hash reliability sendTo payload
        now sending receiving sender receiver := by
  constructor
  · intro sender receiver serverHash hone hnotAwaiting hreceiver
    exact not_fragmentsArrive (server_receivesFragments serverHash id) hone
      (staysPut_client hnotAwaiting) hreceiver hideal hlong hash reliability sendTo
  · intro sender receiver hone hreceiver
    exact not_fragmentsArrive (client_receivesFragments id) hone (staysPut_server _ _) hreceiver
      hideal hlong hash reliability sendTo

section Lost

def cutPayload : Payload := List.replicate 1484 7

theorem connected_idealSoFar (address other : SocketAddr) :
    IdealSoFar ⟨⟨2, by decide⟩, 1, 1, address, ⟨⟨.zero, 0, .zero⟩, ⟨1, by decide⟩, .zero, ∅⟩⟩
      ⟨⟨2, by decide⟩, 1, 1, other, ⟨⟨.zero, 0, .zero⟩, ⟨1, by decide⟩, .zero, ∅⟩⟩ :=
  fun _ hmem => absurd hmem Finmap.notMem_empty

theorem numberedChunks_cutPayload :
    numberedChunks cutPayload = [(List.replicate 1483 7, 0)] ++ [([7], 1)] := by
  have hcount : chunkCount 1483 cutPayload.length = 2 := by
    rw [cutPayload, List.length_replicate]
    decide
  change (chunks 1483 cutPayload).zipIdx = _
  unfold chunks
  rw [hcount]
  change [((List.replicate 1484 7).drop (0 * 1483)).take 1483,
    ((List.replicate 1484 7).drop (1 * 1483)).take 1483].zipIdx = _
  rw [List.drop_replicate, List.drop_replicate, List.take_replicate, List.take_replicate]
  rfl

set_option maxRecDepth 20000 in
theorem cutPayload_checksums : ∀ chunk ∈ numberedChunks cutPayload,
    checksumOf ieeeCrc32 ⟨2, by decide⟩ 1 (fragmentMessage 2 ⟨1, by decide⟩ chunk) ≠ 0 := by
  rw [numberedChunks_cutPayload]
  intro chunk hmem
  rcases List.mem_cons.mp hmem with rfl | hmem
  · decide +kernel
  · rw [List.mem_singleton.mp hmem]
    decide +kernel

/-- All is sent and received, and 1483 of the 1484 bytes arrive. -/
theorem cutPayload_lost :
    (clientRuns ieeeCrc32).Reachable connectedRun ∧
      maxFragmentSize - Message.headerSize Fragment < cutPayload.length ∧
      ∀ hash : RandomState,
        (∃ scheduled sent after, connectedRun.net.schedule hash .reliable (.single ⟨1, by decide⟩)
            cutPayload .zero = .ok (.ok 2, scheduled) ∧
          sendFragments ieeeCrc32 .reliable (fun _ => .zero) connectedRun.net scheduled = .ok sent ∧
          receiveEach (receiveAtServer ieeeCrc32 hash) (fun _ => .zero)
            (arriving connectedRun.net sent) connectedServer.antarc = .ok after ∧
          after.core.api = [.dataTransfer ⟨1, by decide⟩ (List.replicate 1483 7)]) ∧
        ¬FragmentsArrive ieeeCrc32 (receiveAtServer ieeeCrc32 hash) ⟨1, by decide⟩ hash .reliable
          (.single ⟨1, by decide⟩) cutPayload .zero (fun _ => .zero) (fun _ => .zero)
          connectedRun.net connectedServer.antarc := by
  have hlong : maxFragmentSize - Message.headerSize Fragment < cutPayload.length := by
    rw [cutPayload, List.length_replicate]
    decide
  have hideal := connected_idealSoFar (.v4 0 0) (.v4 1 1)
  have hindices : ∀ chunk ∈ [((List.replicate 1483 7, 0) : Payload × Nat)], chunk.2 < 1 := by
    intro chunk hmem
    rw [List.mem_singleton.mp hmem]
    decide
  have hreceiver : connectedServer.antarc.core.connected.lookup ⟨1, by decide⟩ = some _ :=
    Finmap.lookup_singleton_eq
  have hcounted : addU64 connectedRun.net.antarc.packetIdTracker 1 = .ok 2 := rfl
  have hnext : (⟨2, by decide⟩ : Sequence).checkedAdd 1 = some ⟨3, by decide⟩ := rfl
  refine ⟨connectedRun_reachable, hlong, fun hash => ⟨?_, ?_⟩⟩
  · obtain ⟨scheduled, sent, after, hschedule, hsent, hafter, hapi⟩ :=
      cut_payload_arrives_short (server_receivesFragments hash _) rfl
        (staysPut_client Finmap.notMem_empty) hreceiver hideal numberedChunks_cutPayload hindices
        (List.cons_ne_nil _ _) (by decide) hcounted hnext cutPayload_checksums hash .reliable
        (.inl rfl)
    refine ⟨scheduled, sent, after, hschedule, hsent, hafter, hapi.trans ?_⟩
    rw [List.map_singleton, List.flatten_singleton]
    rfl
  · exact not_fragmentsArrive (server_receivesFragments hash _) rfl
      (staysPut_client Finmap.notMem_empty) hreceiver hideal hlong hash _ _

/-- Nor does it arrive at the client, when the server sends it. -/
theorem cutPayload_lost_at_client :
    maxFragmentSize - Message.headerSize Fragment < cutPayload.length ∧
      ∀ hash : RandomState, ¬FragmentsArrive ieeeCrc32 (receiveAtClient ieeeCrc32)
        ⟨1, by decide⟩ hash .reliable (.single ⟨1, by decide⟩) cutPayload .zero (fun _ => .zero)
        (fun _ => .zero) connectedServer connectedRun.net.antarc := by
  have hlong : maxFragmentSize - Message.headerSize Fragment < cutPayload.length := by
    rw [cutPayload, List.length_replicate]
    decide
  refine ⟨hlong, fun hash => ?_⟩
  exact (cut_payload_never_arrives ieeeCrc32 hash .reliable (.single ⟨1, by decide⟩) cutPayload
    .zero (fun _ => .zero) (fun _ => .zero) ⟨1, by decide⟩ _ _ hlong
    (connected_idealSoFar (.v4 1 1) (.v4 0 0))).2 connectedServer connectedRun.net.antarc rfl rfl

end Lost

end Antarc.Properties
