import Antarc.Net.Drivers
import Antarc.Properties.Accounting
import Antarc.Properties.Passes
import Antarc.Properties.Scheduling

/-! A link on which nothing is lost: what one driver sends to its one connected peer is
received there, once each and in order. What a loop sends is said here for any kind of
message; what arrives of it is said for fragments and for data transfers apart. -/
namespace Antarc.Properties

open Library

section Link

variable {S A B E : Type} [Service S A B E]

def newEntries (R M : Type) [Queued R M] (before after : AntarcNet S) : List (Scheduled R M) :=
  (Queued.queue after.antarc.core.scheduler).drop
    (Queued.queue before.antarc.core.scheduler : List (Scheduled R M)).length

/-- What a driver has sent since, as it arrives from its address. -/
def arriving (before after : AntarcNet S) : List RawPacket :=
  (after.socket.drop before.socket.length).map fun transmission =>
    ⟨before.address, transmission.raw.bytes⟩

def receiveEach (receive : Duration → RawPacket → S → Exec S) :
    (Nat → Duration) → List RawPacket → S → Exec S
  | _, [], state => pure state
  | clock, raw :: rest, state => do
      let state ← receive (clock 0) raw state
      receiveEach receive (fun reading => clock (reading + 1)) rest state

def receiveAtServer (crc32 : Crc32) (hash : RandomState) (now : Duration) (raw : RawPacket)
    (protocol : Protocol Server) : Exec (Protocol Server) :=
  Prod.snd <$> protocol.serverReceived crc32 hash raw now

def receiveAtClient (crc32 : Crc32) (now : Duration) (raw : RawPacket)
    (protocol : Protocol Client) : Exec (Protocol Client) :=
  Prod.snd <$> protocol.clientReceived crc32 raw now

end Link

section Checksums

variable {M : Type} [Message M]

def checksumOf (crc32 : Crc32) (sequence : Sequence) (ack : Ack) (message : M) : UInt32 :=
  crc32 (protocolIdBytes ++ u32.encode sequence.get ++ u32.encode ack ++ Message.encoded message)

end Checksums

section Targets

variable {A B E : Type} {core : ServiceCore A B E} {hash : RandomState} {sendTo : SendTo}
  {id : ConnectionId} {peer : Peer Connected}

theorem targets_singleton {targets : List Target} (hone : core.connected = Finmap.singleton id peer)
    (h : core.targets hash sendTo = .ok targets) : targets = [(id, peer.address)] := by
  unfold ServiceCore.targets at h
  cases sendTo with
  | broadcast =>
    cases h
    rw [hone, Iteration.entries_singleton]
    rfl
  | single other =>
    dsimp only at h
    split at h
    · next found hfound =>
      cases h
      rw [hone] at hfound
      obtain rfl : other = id :=
        Finmap.mem_singleton _ _ _ |>.mp (Finmap.mem_of_lookup_eq_some hfound)
      rw [Finmap.lookup_singleton_eq] at hfound
      cases hfound
      rfl
    · contradiction

theorem targets_one (hone : core.connected = Finmap.singleton id peer)
    (hsendTo : sendTo = .single id ∨ sendTo = .broadcast) :
    core.targets hash sendTo = .ok [(id, peer.address)] := by
  unfold ServiceCore.targets
  rcases hsendTo with rfl | rfl
  · simp only [hone, Finmap.lookup_singleton_eq]
  · dsimp only
    rw [hone, Iteration.entries_singleton]
    rfl

end Targets

section Queueing

variable {S A B E : Type} [Service S A B E] {protocol next : Protocol S} {hash : RandomState}
  {reliability : ReliabilityType} {sendTo : SendTo} {payload : Payload} {now : Duration}
  {id : ConnectionId} {peer : Peer Connected} {packetId : PacketId}

def queuedForOne (protocol : Protocol S) (reliability : ReliabilityType) (target : Target)
    (payload : Payload) (now : Duration) (packetId : PacketId) : Protocol S :=
  { protocol.setCore { protocol.core with
      scheduler := queued protocol.core.scheduler reliability protocol.packetIdTracker now [target]
        (numberedChunks payload).length (numberedChunks payload) } with
    packetIdTracker := packetId }

theorem core_queuedForOne (target : Target) : (queuedForOne protocol reliability target payload now
    packetId).core = { protocol.core with
      scheduler := queued protocol.core.scheduler reliability protocol.packetIdTracker now [target]
        (numberedChunks payload).length (numberedChunks payload) } :=
  core_setCore _ _

theorem schedule_to_one (hone : protocol.core.connected = Finmap.singleton id peer)
    (hpayload : payload ≠ [])
    (h : protocol.schedule hash reliability sendTo payload now = .ok (.ok packetId, next)) :
    addU64 protocol.packetIdTracker 1 = .ok packetId ∧
      next = queuedForOne protocol reliability (id, peer.address) payload now packetId := by
  rcases schedule_cases h with
    ⟨_, hfailed, -⟩ | ⟨targets, tracker, -, htargets, htracker, hresult, rfl⟩
  · contradiction
  · cases hresult
    rcases htargets with hnone | htargets
    · have hcount := congrArg List.length hnone
      have hpositive := List.length_pos_of_ne_nil hpayload
      rw [numberedChunks, List.length_zipIdx, length_chunks, chunkCount] at hcount
      change (payload.length + 1483 - 1) / 1483 = 0 at hcount
      omega
    · obtain rfl := targets_singleton hone htargets
      exact ⟨htracker, rfl⟩

theorem schedule_one (hone : protocol.core.connected = Finmap.singleton id peer)
    (hsendTo : sendTo = .single id ∨ sendTo = .broadcast) :
    protocol.schedule hash reliability sendTo payload now =
      (addU64 protocol.packetIdTracker 1 >>= fun packetId =>
        pure (.ok packetId, queuedForOne protocol reliability (id, peer.address) payload
          now packetId)) := by
  have hnotEmpty : isEmpty protocol.core.connected = false := by
    rw [hone]
    rfl
  exact schedule_counts hnotEmpty (.inr (targets_one hone hsendTo))

end Queueing

section Sender

variable {S A B E : Type} [Service S A B E] {M : Type} [Carried M]

/-- Accounting a packet for this address moves no peer that awaits an ack. -/
def StaysPut (service : S) (address : SocketAddr) : Prop :=
  ∀ (core : ServiceCore A B E) id time,
    Service.promoteAwaiting (Service.setCore service core) address id time =
      Service.setCore service core

theorem StaysPut.setCore {service : S} {address : SocketAddr} (h : StaysPut service address)
    (core : ServiceCore A B E) : StaysPut (Service.setCore service core) address := by
  intro core' id time
  rw [Service.setCore_setCore]
  exact h core' id time

theorem StaysPut.promoted {service : S} {address : SocketAddr} (h : StaysPut service address)
    (id : ConnectionId) (time : Duration) :
    Service.promoteAwaiting service address id time = service := by
  have hsame := h (Service.core service) id time
  rwa [Service.setCore_core] at hsame

theorem staysPut_server (server : Server) (address : SocketAddr) : StaysPut server address :=
  fun _ _ _ => rfl

theorem staysPut_client {client : Client} {address : SocketAddr}
    (h : address ∉ client.awaitingConnectionAck) : StaysPut client address := by
  intro core id time
  have hnone : client.awaitingConnectionAck.lookup address = none := Finmap.lookup_eq_none.mpr h
  change Client.promoteAwaiting { client with toServiceCore := core } address id time = _
  simp only [Client.promoteAwaiting, hnone]
  rfl

theorem sent_eq_ok {protocol next : Protocol S} {packet : Packet ToSend M}
    {reliability : ReliabilityType} {now : Duration} {peer : Peer Connected}
    (hfound : protocol.core.connected.lookup (Carried.connectionId packet.message) = some peer)
    (hstays : StaysPut protocol.service packet.delivery.metadata.address) :
    protocol.sent packet reliability now = .ok next ↔
      ∃ completes moved, Carried.completes packet.message = .ok completes ∧
        (if completes then peer.advance else .ok peer) = .ok moved ∧
        next = protocol.setCore { protocol.core with
          connected := protocol.core.connected.insert (Carried.connectionId packet.message) moved
          reliabilityHandler := protocol.core.reliabilityHandler.keep reliability
            (packet.sent now protocol.reliableTtl) } := by
  have hpromoted := hstays.promoted (Carried.connectionId packet.message) now
  have hfound' : (Service.core protocol.service).connected.lookup
      (Carried.connectionId packet.message) = some peer := hfound
  have hinsert : (Service.core protocol.service).connected.insert
      (Carried.connectionId packet.message) peer = (Service.core protocol.service).connected :=
    insert_of_lookup hfound'
  constructor
  · intro h
    obtain ⟨completes, core, hcompletes, hcore, rfl⟩ := sent_frame h
    simp only [hpromoted] at hcore ⊢
    cases completes with
    | false =>
      cases hcore
      refine ⟨false, peer, hcompletes, rfl, ?_⟩
      simp only [Protocol.setCore, Protocol.core, hinsert]
    | true =>
      rcases advanceConnected_cases hcore with ⟨hnone, -⟩ | ⟨found, moved, hlookup, hmoved, rfl⟩
      · cases hnone.symm.trans hfound'
      · cases hlookup.symm.trans hfound'
        exact ⟨true, moved, hcompletes, hmoved, rfl⟩
  · rintro ⟨completes, moved, hcompletes, hmoved, rfl⟩
    unfold Protocol.sent sentCarried
    simp only [Packet.sent, hpromoted, hcompletes, ok_bind]
    cases completes with
    | false =>
      cases hmoved
      simp only [Protocol.setCore, Protocol.core, hinsert]
      rfl
    | true =>
      have hadvance : (Service.core protocol.service).advanceConnected
          (Carried.connectionId packet.message) = .ok { Service.core protocol.service with
            connected := (Service.core protocol.service).connected.insert
              (Carried.connectionId packet.message) moved } := by
        unfold ServiceCore.advanceConnected
        rw [hfound']
        rw [if_pos rfl] at hmoved
        simp only [hmoved, ok_bind]
        rfl
      simp only [if_true, hadvance, ok_bind]
      rfl

section Loop

variable [Sendable M] {R : Type} {crc32 : Crc32} {reliability : ReliabilityType}
  {create : Protocol S → Scheduled R M → Duration → Exec (Packet ToSend M)} {message : String}
  {net next : AntarcNet S} {id : ConnectionId} {address : SocketAddr} {peer : Peer Connected}

def firstSending (crc32 : Crc32) (packet : Packet ToSend M) : Transmission :=
  ⟨packet.datagram crc32, Sendable.outgoing packet, true⟩

omit [Carried M] in
theorem arriving_firstSendings {packets : List (Packet ToSend M)}
    (hsocket : next.socket = net.socket ++ packets.map (firstSending crc32)) :
    arriving net next =
      packets.map fun packet => ⟨net.address, (packet.datagram crc32).bytes⟩ := by
  rw [arriving, hsocket, List.drop_left, List.map_map]
  rfl

def afterTurn (crc32 : Crc32) (reliability : ReliabilityType) (net : AntarcNet S)
    (packet : Packet ToSend M) (moved : Peer Connected) (accounted : Duration) : AntarcNet S :=
  { net with
    antarc := net.antarc.setCore { net.antarc.core with
      connected := net.antarc.core.connected.insert (Carried.connectionId packet.message) moved
      reliabilityHandler := net.antarc.core.reliabilityHandler.keep reliability
        (packet.sent accounted net.antarc.reliableTtl) }
    socket := net.socket ++ [firstSending crc32 packet] }

theorem lookup_afterTurn (packet : Packet ToSend M) (moved : Peer Connected)
    (accounted : Duration) :
    (afterTurn crc32 reliability net packet moved accounted).antarc.core.connected.lookup
      (Carried.connectionId packet.message) = some moved := by
  unfold afterTurn
  rw [core_setCore]
  exact Finmap.lookup_insert _

theorem StaysPut.afterTurn (packet : Packet ToSend M) (moved : Peer Connected)
    (accounted : Duration) (h : StaysPut net.antarc.service address) :
    StaysPut (afterTurn crc32 reliability net packet moved accounted).antarc.service address :=
  h.setCore _

/-- A turn of the loop sends the packet that the connected peer's trackers make of its entry,
unless the checksum of that packet is zero. -/
theorem sendScheduled_eq_ok {scheduled : Scheduled R M} (created accounted : Duration)
    (hcreate : ∀ protocol scheduled now,
      create protocol scheduled now = protocol.core.createCarried message scheduled now)
    (hfound : net.antarc.core.connected.lookup (Carried.connectionId scheduled.message) = some peer)
    (hstays : StaysPut net.antarc.service scheduled.address) :
    let packet := scheduled.intoPacket peer.sequenceTracker peer.remoteAckTracker created
    net.sendScheduled crc32 create (fun protocol packet now => protocol.sent packet reliability now)
        scheduled created accounted = .ok next ↔
      packet.checksum crc32 ≠ 0 ∧
        ∃ completes moved, Carried.completes scheduled.message = .ok completes ∧
          (if completes then peer.advance else .ok peer) = .ok moved ∧
          next = afterTurn crc32 reliability net packet moved accounted := by
  intro packet
  have hpacket : create net.antarc scheduled created = .ok packet := by
    rw [hcreate, ServiceCore.createCarried, hfound]
    rfl
  refine turn_eq_ok.trans ?_
  constructor
  · rintro ⟨created', antarc, hcreated, hchecksum, hsent, rfl⟩
    cases hcreated.symm.trans hpacket
    obtain ⟨completes, moved, hcompletes, hmoved, rfl⟩ := (sent_eq_ok hfound hstays).mp hsent
    exact ⟨hchecksum, completes, moved, hcompletes, hmoved, rfl⟩
  · rintro ⟨hchecksum, completes, moved, hcompletes, hmoved, rfl⟩
    have hsent : net.antarc.sent packet reliability accounted = .ok _ :=
      (sent_eq_ok hfound hstays).mpr ⟨completes, moved, hcompletes, hmoved, rfl⟩
    exact ⟨packet, _, hpacket, hchecksum, hsent, rfl⟩

theorem sendScheduled_moved (reliability : ReliabilityType) {scheduled : Scheduled R M}
    {completes : Bool} {moved : Peer Connected} (created accounted : Duration)
    (hcreate : ∀ protocol scheduled now,
      create protocol scheduled now = protocol.core.createCarried message scheduled now)
    (hfound : net.antarc.core.connected.lookup (Carried.connectionId scheduled.message) = some peer)
    (hstays : StaysPut net.antarc.service scheduled.address)
    (hcompletes : Carried.completes scheduled.message = .ok completes)
    (hmoved : (if completes then peer.advance else .ok peer) = .ok moved) :
    let packet := scheduled.intoPacket peer.sequenceTracker peer.remoteAckTracker created
    net.sendScheduled crc32 create (fun protocol packet now => protocol.sent packet reliability now)
        scheduled created accounted = .ok next ↔
      checksumOf crc32 peer.sequenceTracker peer.remoteAckTracker scheduled.message ≠ 0 ∧
        next = afterTurn crc32 reliability net packet moved accounted := by
  intro packet
  refine (sendScheduled_eq_ok created accounted hcreate hfound hstays).trans ?_
  constructor
  · rintro ⟨hchecksum, completes', moved', hcompletes', hmoved', rfl⟩
    cases hcompletes'.symm.trans hcompletes
    cases hmoved'.symm.trans hmoved
    exact ⟨hchecksum, rfl⟩
  · rintro ⟨hchecksum, rfl⟩
    exact ⟨hchecksum, completes, moved, hcompletes, hmoved, rfl⟩

def AllFor (id : ConnectionId) (address : SocketAddr) (entries : List (Scheduled R M)) : Prop :=
  ∀ scheduled ∈ entries,
    Carried.connectionId scheduled.message = id ∧ scheduled.address = address

theorem sendEach_sends
    (hcreate : ∀ protocol scheduled now,
      create protocol scheduled now = protocol.core.createCarried message scheduled now)
    {entries : List (Scheduled R M)} {clock : Nat → Duration}
    (hentries : AllFor id address entries)
    (hfound : net.antarc.core.connected.lookup id = some peer)
    (hstays : StaysPut net.antarc.service address)
    (h : AntarcNet.sendEach crc32 create (fun protocol packet now =>
      protocol.sent packet reliability now) clock entries net = .ok next) :
    ∃ packets : List (Packet ToSend M),
      next.socket = net.socket ++ packets.map (firstSending crc32) ∧
      packets.map Packet.message = entries.map Scheduled.message ∧
      ∀ packet ∈ packets,
        peer.sequenceTracker.get.toNat ≤ packet.sequence.get.toNat := by
  induction entries generalizing net peer clock with
  | nil =>
    cases h
    exact ⟨[], (List.append_nil _).symm, rfl, fun _ hmem => by contradiction⟩
  | cons scheduled rest ih =>
    obtain ⟨hid, haddress⟩ := hentries scheduled List.mem_cons_self
    obtain ⟨middle, hturn, h⟩ := bind_eq_ok.mp h
    rw [← hid] at hfound
    rw [← haddress] at hstays
    obtain ⟨-, completes, moved, -, hmoved, rfl⟩ :=
      (sendScheduled_eq_ok _ _ hcreate hfound hstays).mp hturn
    let packet := scheduled.intoPacket peer.sequenceTracker peer.remoteAckTracker (clock 0)
    have hle : peer.sequenceTracker.get.toNat ≤ moved.sequenceTracker.get.toNat := by
      cases completes with
      | false =>
        cases hmoved
        exact Nat.le_refl _
      | true =>
        obtain ⟨sequence, hsequence, rfl⟩ := advance_eq_ok.mp hmoved
        rw [NonZeroU32.checkedAdd_one hsequence]
        exact Nat.le_succ _
    obtain ⟨packets, hsocket, hmessages, hsequences⟩ := ih
      (fun other hmem => hentries other (List.mem_cons_of_mem _ hmem))
      (hid ▸ lookup_afterTurn packet moved (clock 1)) (haddress ▸ hstays.afterTurn packet moved _) h
    refine ⟨packet :: packets, ?_, ?_, ?_⟩
    · rw [hsocket]
      exact List.append_assoc net.socket _ _
    · rw [List.map_cons, List.map_cons, hmessages]
      rfl
    · intro packet hmem
      rcases List.mem_cons.mp hmem with rfl | hmem
      · exact Nat.le_refl _
      · exact hle.trans (hsequences packet hmem)

/-- A group, of which the last part alone ends the sequence, is sent under that sequence. -/
theorem sendEach_group (reliability : ReliabilityType)
    (hcreate : ∀ protocol scheduled now,
      create protocol scheduled now = protocol.core.createCarried message scheduled now)
    {parts : List (Scheduled R M)} {last : Scheduled R M} {sequence : Sequence}
    (clock : Nat → Duration)
    (hparts : ∀ part ∈ parts, Carried.completes part.message = .ok false)
    (hlast : Carried.completes last.message = .ok true)
    (hentries : AllFor id address (parts ++ [last]))
    (hfound : net.antarc.core.connected.lookup id = some peer)
    (hstays : StaysPut net.antarc.service address)
    (hnext : peer.sequenceTracker.checkedAdd 1 = some sequence)
    (hchecksums : ∀ scheduled ∈ parts ++ [last],
      checksumOf crc32 peer.sequenceTracker peer.remoteAckTracker scheduled.message ≠ 0) :
    ∃ (sent : AntarcNet S) (packets : List (Packet ToSend M)),
      AntarcNet.sendEach crc32 create (fun protocol packet now =>
        protocol.sent packet reliability now) clock (parts ++ [last]) net = .ok sent ∧
      sent.socket = net.socket ++ packets.map (firstSending crc32) ∧
      packets.map Packet.message = (parts ++ [last]).map Scheduled.message ∧
      ∀ packet ∈ packets, packet.sequence = peer.sequenceTracker := by
  induction parts generalizing net clock with
  | nil =>
    obtain ⟨hid, haddress⟩ := hentries last List.mem_cons_self
    rw [← hid] at hfound
    rw [← haddress] at hstays
    let moved : Peer Connected := { peer with sequenceTracker := sequence }
    have hmoved : peer.advance = .ok moved := advance_eq_ok.mpr ⟨sequence, hnext, rfl⟩
    let packet := last.intoPacket peer.sequenceTracker peer.remoteAckTracker (clock 0)
    have hturn := (sendScheduled_moved reliability (clock 0) (clock 1) hcreate hfound hstays hlast
      hmoved).mpr ⟨hchecksums last List.mem_cons_self, rfl⟩
    refine ⟨afterTurn crc32 reliability net packet moved (clock 1), [packet], ?_, rfl, rfl, ?_⟩
    · rw [List.nil_append, AntarcNet.sendEach, hturn]
      rfl
    · intro other hmem
      rw [List.mem_singleton.mp hmem]
      rfl
  | cons part rest ih =>
    obtain ⟨hid, haddress⟩ := hentries part List.mem_cons_self
    rw [← hid] at hfound
    rw [← haddress] at hstays
    let packet := part.intoPacket peer.sequenceTracker peer.remoteAckTracker (clock 0)
    have hturn := (sendScheduled_moved reliability (clock 0) (clock 1) hcreate hfound hstays
      (hparts part List.mem_cons_self) rfl).mpr ⟨hchecksums part List.mem_cons_self, rfl⟩
    obtain ⟨sent, packets, hsent, hsocket, hmessages, hsequences⟩ := ih
      (fun reading => clock (reading + 2))
      (fun other hmem => hparts other (List.mem_cons_of_mem _ hmem))
      (fun other hmem => hentries other (List.mem_cons_of_mem _ hmem))
      (hid ▸ lookup_afterTurn packet peer (clock 1)) (haddress ▸ hstays.afterTurn packet peer _)
      (fun other hmem => hchecksums other (List.mem_cons_of_mem _ hmem))
    refine ⟨sent, packet :: packets, ?_, ?_, ?_, ?_⟩
    · rw [List.cons_append, AntarcNet.sendEach, hturn, ok_bind, hsent]
    · rw [hsocket]
      exact List.append_assoc net.socket _ _
    · rw [List.map_cons, hmessages]
      rfl
    · intro other hmem
      rcases List.mem_cons.mp hmem with rfl | hmem
      · rfl
      · exact hsequences other hmem

end Loop

end Sender

end Antarc.Properties
