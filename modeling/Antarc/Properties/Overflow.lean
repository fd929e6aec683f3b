import Mathlib.Data.Int.CardIntervalMod
import Antarc.Properties.Appended
import Antarc.Properties.Acknowledged
import Antarc.Properties.IdealLink

/-! Which payloads can be scheduled, created and accounted without arithmetic that leaves its
range. The number of chunks is cast to `u8`: at every multiple of 256 it becomes zero, and
the last index of a group is that number less one. -/
namespace Antarc.Properties

open Library

section Walks

def advanceIf (peer : Peer Connected) (completes : Exec Bool) : Exec (Peer Connected) := do
  if ← completes then peer.advance else pure peer

/-- Out of range: an operator that overflows, or `checked_add` that has nothing to unwrap. -/
def OutOfRange {α : Type} (outcome : Exec α) : Prop :=
  outcome = .error .overflow ∨ outcome = .error .unwrap

theorem advance_error {peer : Peer Connected}
    (h : UInt32.size ≤ peer.sequenceTracker.get.toNat + 1) :
    peer.advance = .error .unwrap := by
  have hlt : ¬peer.sequenceTracker.get.toNat + (1 : UInt32).toNat < UInt32.size := Nat.not_lt.mpr h
  unfold Peer.advance NonZeroU32.checkedAdd
  rw [dif_neg hlt]
  rfl

theorem advance_ok {peer : Peer Connected}
    (h : peer.sequenceTracker.get.toNat + 1 < UInt32.size) :
    ∃ moved, peer.advance = .ok moved ∧
      moved.sequenceTracker.get.toNat = peer.sequenceTracker.get.toNat + 1 := by
  obtain ⟨sequence, hsequence⟩ := NonZeroU32.checkedAdd_one_isSome h
  exact ⟨_, advance_eq_ok.mpr ⟨sequence, hsequence, rfl⟩, NonZeroU32.checkedAdd_one hsequence⟩

theorem advances_ok {ends : List Bool} {peer : Peer Connected}
    (h : peer.sequenceTracker.get.toNat + ends.count true < UInt32.size) :
    ∃ moved, (ends.map Except.ok).foldlM advanceIf peer = .ok moved := by
  induction ends generalizing peer with
  | nil => exact ⟨peer, rfl⟩
  | cons ended rest ih =>
    cases ended with
    | false => exact ih h
    | true =>
      rw [List.count_cons_self] at h
      have hroom : peer.sequenceTracker.get.toNat + 1 < UInt32.size := by omega
      obtain ⟨moved, hmoved, hsequence⟩ := advance_ok hroom
      have hrest : moved.sequenceTracker.get.toNat + rest.count true < UInt32.size := by omega
      obtain ⟨last, hlast⟩ := ih hrest
      refine ⟨last, ?_⟩
      rw [List.map_cons, List.foldlM_cons, advanceIf, ok_bind, if_pos rfl, hmoved, ok_bind, hlast]

theorem advances_error {ends : List Bool} {peer : Peer Connected}
    (h : UInt32.size ≤ peer.sequenceTracker.get.toNat + ends.count true) :
    (ends.map Except.ok).foldlM advanceIf peer = .error .unwrap := by
  induction ends generalizing peer with
  | nil => exact absurd h (Nat.not_le.mpr peer.sequenceTracker.get.toNat_lt)
  | cons ended rest ih =>
    cases ended with
    | false => exact ih h
    | true =>
      rw [List.map_cons, List.foldlM_cons, advanceIf, ok_bind, if_pos rfl]
      by_cases hroom : peer.sequenceTracker.get.toNat + 1 < UInt32.size
      · obtain ⟨moved, hmoved, hsequence⟩ := advance_ok hroom
        rw [hmoved, ok_bind]
        refine ih ?_
        rw [List.count_cons_self] at h
        omega
      · rw [advance_error (Nat.not_lt.mp hroom)]
        rfl

theorem completes_fragmentMessage {total : Nat} (htotal : total % 256 ≠ 0) (id : ConnectionId)
    (chunk : Payload × Nat) :
    Carried.completes (fragmentMessage total id chunk) =
      .ok (decide (chunk.2 % 256 = total % 256 - 1)) := by
  have hle : (1 : UInt8) ≤ UInt8.ofNat total := by
    rw [UInt8.le_iff_toNat_le, UInt8.toNat_ofNat']
    change 1 ≤ total % 2 ^ 8
    omega
  change (subU8 (UInt8.ofNat total) 1 >>= fun last =>
    pure (decide (UInt8.ofNat chunk.2 = last))) = _
  rw [subU8, if_pos hle, ok_bind]
  refine congrArg Except.ok (decide_eq_decide.mpr ?_)
  rw [← UInt8.toNat_inj, UInt8.toNat_sub_of_le _ _ hle, UInt8.toNat_ofNat', UInt8.toNat_ofNat']
  rfl

/-- Where the number of chunks is cast to zero, the subtraction underflows. -/
theorem completes_of_zero {total : Nat} (htotal : total % 256 = 0) (id : ConnectionId)
    (chunk : Payload × Nat) :
    Carried.completes (fragmentMessage total id chunk) = .error .overflow := by
  have hzero : UInt8.ofNat total = 0 := by
    rw [← UInt8.toNat_inj, UInt8.toNat_ofNat']
    exact htotal
  change (subU8 (UInt8.ofNat total) 1 >>= fun last =>
    pure (decide (UInt8.ofNat chunk.2 = last))) = _
  rw [hzero]
  rfl

theorem count_map_range (p : Nat → Prop) [DecidablePred p] (n : Nat) :
    ((List.range n).map fun i => decide (p i)).count true = n.count p := by
  induction n with
  | zero => rfl
  | succ n ih =>
    rw [List.range_succ, List.map_append, List.count_append, ih, Nat.count_succ]
    by_cases h : p n <;> simp [h]

/-- With `n` chunks, one in every 256 fragments ends a sequence, and one more. -/
theorem count_ends {n : Nat} (hn : n % 256 ≠ 0) :
    ((List.range n).map fun i => decide (i % 256 = n % 256 - 1)).count true = n / 256 + 1 := by
  have hmod : (n % 256 - 1) % 256 = n % 256 - 1 := Nat.mod_eq_of_lt (by omega)
  have hends : (fun i => decide (i % 256 = n % 256 - 1)) =
      fun i => decide (i ≡ n % 256 - 1 [MOD 256]) := by
    funext i
    simp only [Nat.ModEq, hmod]
  have hpositive : 0 < 256 := by omega
  rw [hends, count_map_range, Nat.count_modEq_card n hpositive, hmod, if_pos (by omega)]

end Walks

section Reports

variable {S A B E : Type} [Service S A B E] {R M : Type} [Carried M] {protocol : Protocol S}
  {id : ConnectionId} {address : SocketAddr} {peer : Peer Connected}

def reportEach (create : Protocol S → Scheduled R M → Duration → Exec (Packet ToSend M))
    (reliability : ReliabilityType) :
    (Nat → Duration) → List (Scheduled R M) → Protocol S → Exec (Protocol S)
  | _, [], protocol => pure protocol
  | clock, scheduled :: rest, protocol => do
      let packet ← create protocol scheduled (clock 0)
      let protocol ← protocol.sent packet reliability (clock 1)
      reportEach create reliability (fun reading => clock (reading + 2)) rest protocol

def reportQueued (reliability : ReliabilityType) (clock : Nat → Duration) (new : Scheduler A)
    (protocol : Protocol S) : Exec (Protocol S) :=
  match reliability with
  | .reliable => do
      let protocol ← reportEach Protocol.createReliableDataTransfer .reliable clock
        new.listScheduledReliableDataTransfer protocol
      reportEach Protocol.createReliableFragment .reliable clock
        new.listScheduledReliableFragment protocol
  | .unreliable => do
      let protocol ← reportEach Protocol.createUnreliableDataTransfer .unreliable clock
        new.listScheduledUnreliableDataTransfer protocol
      reportEach Protocol.createUnreliableFragment .unreliable clock
        new.listScheduledUnreliableFragment protocol

/-- A payload is scheduled, and each of the packets that were queued for it is created and
reported as sent. -/
def sendPayload (hash : RandomState) (reliability : ReliabilityType) (sendTo : SendTo)
    (payload : Payload) (now : Duration) (clock : Nat → Duration) (protocol : Protocol S) :
    Exec (Protocol S) := do
  let (_, next) ← protocol.schedule hash reliability sendTo payload now
  reportQueued reliability clock (appended protocol.core.scheduler next.core.scheduler) next

theorem sent_alike {packet : Packet ToSend M} {reliability : ReliabilityType} {now : Duration}
    (hfound : protocol.core.connected.lookup (Carried.connectionId packet.message) = some peer)
    (hstays : StaysPut protocol.service packet.delivery.metadata.address) :
    EndAlike (fun after moved =>
        after.core.connected.lookup (Carried.connectionId packet.message) = some moved ∧
          StaysPut after.service packet.delivery.metadata.address)
      (protocol.sent packet reliability now)
      (advanceIf peer (Carried.completes packet.message)) := by
  have hreturns : ∀ completes moved, Carried.completes packet.message = .ok completes →
      (if completes then peer.advance else .ok peer) = .ok moved →
      EndAlike (fun after moved =>
          after.core.connected.lookup (Carried.connectionId packet.message) = some moved ∧
            StaysPut after.service packet.delivery.metadata.address)
        (protocol.sent packet reliability now) (.ok moved) := by
    intro completes moved hcompletes hmoved
    rw [(sent_eq_ok hfound hstays).mpr ⟨completes, moved, hcompletes, hmoved, rfl⟩]
    refine .returned ⟨?_, hstays.setCore _⟩
    rw [core_setCore, Finmap.lookup_insert]
  have hpromoted := hstays.promoted (Carried.connectionId packet.message) now
  have hfound' : (Service.core protocol.service).connected.lookup
      (Carried.connectionId packet.message) = some peer := hfound
  cases hcompletes : Carried.completes packet.message with
  | error panic =>
    have hsent : protocol.sent packet reliability now = .error panic := by
      unfold Protocol.sent sentCarried
      simp only [Packet.sent, hpromoted, hcompletes, error_bind]
    rw [hsent]
    exact .stopped panic
  | ok completes =>
    cases completes with
    | false => exact hreturns false peer hcompletes rfl
    | true =>
      cases hmoved : peer.advance with
      | ok moved =>
        rw [advanceIf, ok_bind, if_pos rfl, hmoved]
        exact hreturns true moved hcompletes hmoved
      | error panic =>
        have hsent : protocol.sent packet reliability now = .error panic := by
          unfold Protocol.sent sentCarried ServiceCore.advanceConnected
          simp only [Packet.sent, hpromoted, hcompletes, ok_bind, if_true, hfound', hmoved,
            error_bind]
        rw [hsent, advanceIf, ok_bind, if_pos rfl, hmoved]
        exact .stopped panic

theorem reportEach_alike {message : String} (reliability : ReliabilityType)
    {create : Protocol S → Scheduled R M → Duration → Exec (Packet ToSend M)}
    (hcreate : ∀ protocol scheduled now,
      create protocol scheduled now = protocol.core.createCarried message scheduled now)
    {entries : List (Scheduled R M)} (hentries : AllFor id address entries)
    (clock : Nat → Duration) (hfound : protocol.core.connected.lookup id = some peer)
    (hstays : StaysPut protocol.service address) :
    EndAlike (fun after moved => after.core.connected.lookup id = some moved ∧
        StaysPut after.service address)
      (reportEach create reliability clock entries protocol)
      ((entries.map fun scheduled => Carried.completes scheduled.message).foldlM
        advanceIf peer) := by
  induction entries generalizing protocol peer clock with
  | nil => exact .returned ⟨hfound, hstays⟩
  | cons scheduled rest ih =>
    obtain ⟨hid, haddress⟩ := hentries scheduled List.mem_cons_self
    subst hid haddress
    let packet := scheduled.intoPacket peer.sequenceTracker peer.remoteAckTracker (clock 0)
    have hpacket : create protocol scheduled (clock 0) = .ok packet := by
      rw [hcreate, ServiceCore.createCarried, hfound]
      rfl
    have hsent : EndAlike _ (protocol.sent packet reliability (clock 1))
        (advanceIf peer (Carried.completes packet.message)) := sent_alike hfound hstays
    rw [reportEach, hpacket, ok_bind]
    refine hsent.bind fun after moved hlater => ?_
    exact ih (fun other hmem => hentries other (List.mem_cons_of_mem _ hmem)) _ hlater.1 hlater.2

theorem reportEach_entriesFor {text : String} (reliability : ReliabilityType)
    {create : Protocol S → Scheduled R M → Duration → Exec (Packet ToSend M)}
    (hcreate : ∀ protocol scheduled now,
      create protocol scheduled now = protocol.core.createCarried text scheduled now)
    {mark : R} {message : ConnectionId → Payload × Nat → M} {packetId : PacketId} {time : Duration}
    {chunks : List (Payload × Nat)}
    (hmessage : ∀ id chunk, Carried.connectionId (message id chunk) = id)
    (clock : Nat → Duration) (hfound : protocol.core.connected.lookup id = some peer)
    (hstays : StaysPut protocol.service address) :
    EndAlike (fun after moved => after.core.connected.lookup id = some moved ∧
        StaysPut after.service address)
      (reportEach create reliability clock
        (entriesFor mark message packetId time [(id, address)] chunks) protocol)
      ((chunks.map fun chunk => Carried.completes (message id chunk)).foldlM advanceIf peer) := by
  have hfor : AllFor id address (entriesFor mark message packetId time [(id, address)] chunks) := by
    rw [entriesFor_one]
    intro scheduled hmem
    obtain ⟨chunk, -, rfl⟩ := List.mem_map.mp hmem
    exact ⟨hmessage id chunk, rfl⟩
  have halike := reportEach_alike reliability hcreate hfor clock hfound hstays
  rw [entriesFor_one, List.map_map] at halike
  rw [entriesFor_one]
  exact halike

def chunkCompletes (total : Nat) (id : ConnectionId) (chunk : Payload × Nat) : Exec Bool :=
  if total > 1 then Carried.completes (fragmentMessage total id chunk)
  else Carried.completes (dataTransferMessage id chunk)

theorem reportQueued_alike (service : A) (reliability : ReliabilityType) (packetId : PacketId)
    (time : Duration) (clock : Nat → Duration) (total : Nat) (chunks : List (Payload × Nat))
    (hfound : protocol.core.connected.lookup id = some peer)
    (hstays : StaysPut protocol.service address) :
    EndAlike (fun _ _ => True)
      (reportQueued reliability clock
        (queued (.new service) reliability packetId time [(id, address)] total chunks) protocol)
      ((chunks.map (chunkCompletes total id)).foldlM advanceIf peer) := by
  by_cases hmany : total > 1
  · have hchunks : chunkCompletes total id = fun chunk =>
        Carried.completes (fragmentMessage total id chunk) :=
      funext fun chunk => if_pos hmany
    unfold queued
    rw [hchunks, if_pos hmany]
    cases reliability with
    | reliable =>
      exact (reportEach_entriesFor .reliable (fun _ _ _ => rfl) (fun _ _ => rfl) clock hfound
        hstays).mono fun _ _ _ => trivial
    | unreliable =>
      exact (reportEach_entriesFor .unreliable (fun _ _ _ => rfl) (fun _ _ => rfl) clock hfound
        hstays).mono fun _ _ _ => trivial
  · have hchunks : chunkCompletes total id = fun chunk =>
        Carried.completes (dataTransferMessage id chunk) :=
      funext fun chunk => if_neg hmany
    have hnothing : ∀ {α β : Type} {related : α → β → Prop} {x : Exec α} {y : Exec β},
        EndAlike related x y → EndAlike (fun _ _ => True) (x >>= pure) y := by
      intro α β related x y h
      rw [bind_pure]
      exact h.mono fun _ _ _ => trivial
    unfold queued
    rw [hchunks, if_neg hmany]
    cases reliability with
    | reliable =>
      exact hnothing (reportEach_entriesFor .reliable (fun _ _ _ => rfl) (fun _ _ => rfl) clock
        hfound hstays)
    | unreliable =>
      exact hnothing (reportEach_entriesFor .unreliable (fun _ _ _ => rfl) (fun _ _ => rfl) clock
        hfound hstays)

theorem sendPayload_alike (hash : RandomState) (reliability : ReliabilityType) (payload : Payload)
    (now : Duration) (clock : Nat → Duration)
    (hfound : protocol.core.connected.lookup id = some peer)
    (hstays : StaysPut protocol.service peer.address) :
    EndAlike (fun _ _ => True)
      (sendPayload hash reliability (.single id) payload now clock protocol)
      (addU64 protocol.packetIdTracker 1 >>= fun _ => ((numberedChunks payload).map
        (chunkCompletes (numberedChunks payload).length id)).foldlM advanceIf peer) := by
  have htargets : protocol.core.targets hash (.single id) = .ok [(id, peer.address)] := by
    unfold ServiceCore.targets
    simp only [hfound]
  rw [sendPayload, schedule_counts (isEmpty_of_lookup hfound) (.inr htargets)]
  cases addU64 protocol.packetIdTracker 1 with
  | error panic => exact .stopped panic
  | ok tracker =>
    let next := queuedFor protocol reliability [(id, peer.address)] payload now tracker
    have hnext : next.core.connected.lookup id = some peer := by
      rw [core_queuedFor]
      exact hfound
    have hstill : StaysPut next.service peer.address := hstays.setCore _
    simp only [ok_bind, pure_bind]
    rw [core_queuedFor, appended_queued]
    exact reportQueued_alike _ reliability _ now clock _ _ hnext hstill

end Reports

section Counters

variable {id : ConnectionId} {peer : Peer Connected}

/-- The call can be counted, and a payload of several chunks has no multiple of 256 of them
and fewer sequences than the tracker has room for. -/
def FitsCounters (packetId : PacketId) (sequence : Sequence) (chunks : Nat) : Prop :=
  packetId.toNat + 1 < UInt64.size ∧
    (chunks ≤ 1 ∨ chunks % 256 ≠ 0 ∧ sequence.get.toNat + (chunks / 256 + 1) < UInt32.size)

def chunkEnds (total number : Nat) : Exec Bool :=
  if total ≤ 1 then .ok true
  else if total % 256 = 0 then .error .overflow
  else .ok (decide (number % 256 = total % 256 - 1))

theorem chunkCompletes_eq (total : Nat) (id : ConnectionId) (chunk : Payload × Nat) :
    chunkCompletes total id chunk = chunkEnds total chunk.2 := by
  unfold chunkCompletes chunkEnds
  by_cases hmany : total > 1
  · rw [if_pos hmany, if_neg (Nat.not_le.mpr hmany)]
    by_cases hzero : total % 256 = 0
    · rw [if_pos hzero, completes_of_zero hzero]
    · rw [if_neg hzero, completes_fragmentMessage hzero]
  · rw [if_neg hmany, if_pos (Nat.not_lt.mp hmany)]
    rfl

theorem map_chunkCompletes (payload : Payload) (id : ConnectionId) :
    (numberedChunks payload).map (chunkCompletes (numberedChunks payload).length id) =
      (List.range (numberedChunks payload).length).map
        (chunkEnds (numberedChunks payload).length) := by
  have hnumbers : (numberedChunks payload).map Prod.snd =
      List.range (numberedChunks payload).length := by
    unfold numberedChunks
    rw [List.zipIdx_map_snd, List.length_zipIdx, List.range_eq_range']
  rw [← hnumbers, List.map_map]
  exact List.map_congr_left fun chunk _ => chunkCompletes_eq _ id chunk

def countersTaken (packetId : PacketId) (peer : Peer Connected) (chunks : Nat) :
    Exec (Peer Connected) :=
  addU64 packetId 1 >>= fun _ =>
    ((List.range chunks).map (chunkEnds chunks)).foldlM advanceIf peer

theorem map_chunkEnds {chunks : Nat} (h : chunks ≤ 1 ∨ chunks % 256 ≠ 0) :
    ∃ ends : List Bool, (List.range chunks).map (chunkEnds chunks) = ends.map Except.ok ∧
      ends.count true = if chunks ≤ 1 then chunks else chunks / 256 + 1 := by
  by_cases hone : chunks ≤ 1
  · refine ⟨List.replicate chunks true, ?_, ?_⟩
    · rw [List.map_replicate, List.eq_replicate_iff, List.length_map, List.length_range]
      refine ⟨rfl, fun value hmem => ?_⟩
      obtain ⟨number, -, rfl⟩ := List.mem_map.mp hmem
      exact if_pos hone
    · rw [List.count_replicate_self, if_pos hone]
  · have hmod := h.resolve_left hone
    refine ⟨(List.range chunks).map fun i => decide (i % 256 = chunks % 256 - 1), ?_, ?_⟩
    · rw [List.map_map]
      refine List.map_congr_left fun number _ => ?_
      rw [chunkEnds, if_neg hone, if_neg hmod]
      rfl
    · rw [count_ends hmod, if_neg hone]

theorem countersTaken_ok {packetId : PacketId} {chunks : Nat}
    (hroom : peer.sequenceTracker.get.toNat + 1 < UInt32.size)
    (hfits : FitsCounters packetId peer.sequenceTracker chunks) :
    ∃ moved, countersTaken packetId peer chunks = .ok moved := by
  obtain ⟨hcounted, hchunks⟩ := hfits
  obtain ⟨tracker, htracker⟩ := addU64_one_lt_iff.mpr hcounted
  obtain ⟨ends, hends, hcount⟩ := map_chunkEnds (hchunks.imp_right And.left)
  rw [countersTaken, htracker, ok_bind, hends]
  refine advances_ok ?_
  rw [hcount]
  split
  · omega
  · next hmany => exact (hchunks.resolve_left hmany).2

theorem countersTaken_out_of_range {packetId : PacketId} {chunks : Nat}
    (hfits : ¬FitsCounters packetId peer.sequenceTracker chunks) :
    OutOfRange (countersTaken packetId peer chunks) := by
  unfold countersTaken
  cases htracker : addU64 packetId 1 with
  | error panic =>
    left
    unfold addU64 at htracker
    split at htracker
    · contradiction
    · cases htracker
      rfl
  | ok tracker =>
    have hcounted := addU64_one_lt_iff.mp ⟨tracker, htracker⟩
    have hchunks := mt (And.intro hcounted) hfits
    rw [not_or] at hchunks
    obtain ⟨hmany, hchunks⟩ := hchunks
    rw [ok_bind]
    by_cases hmod : chunks % 256 = 0
    · left
      obtain ⟨more, rfl⟩ : ∃ more, chunks = more + 1 := ⟨chunks - 1, by omega⟩
      rw [List.range_succ_eq_map, List.map_cons, List.foldlM_cons, chunkEnds, if_neg hmany,
        if_pos hmod]
      rfl
    · right
      obtain ⟨ends, hends, hcount⟩ := map_chunkEnds (.inr hmod)
      rw [if_neg hmany] at hcount
      rw [hends]
      refine advances_error ?_
      rw [hcount]
      exact Nat.not_lt.mp fun hlt => hchunks ⟨hmod, hlt⟩

end Counters

section Runs

variable {S A B E : Type} [Service S A B E] {protocol : Protocol S} {id : ConnectionId}
  {peer : Peer Connected}

theorem outOfRange_congr {α β : Type} {related : α → β → Prop} {x : Exec α} {y : Exec β}
    (h : EndAlike related x y) : OutOfRange x ↔ OutOfRange y := by
  cases h with
  | returned h => simp [OutOfRange]
  | stopped panic => simp [OutOfRange]

theorem sendPayload_fits_iff (hash : RandomState) (reliability : ReliabilityType)
    (payload : Payload) (now : Duration) (clock : Nat → Duration)
    (hfound : protocol.core.connected.lookup id = some peer)
    (hstays : StaysPut protocol.service peer.address)
    (hroom : peer.sequenceTracker.get.toNat + 1 < UInt32.size) :
    let run := sendPayload hash reliability (.single id) payload now clock protocol
    let fits := FitsCounters protocol.packetIdTracker peer.sequenceTracker
      (numberedChunks payload).length
    (¬OutOfRange run ↔ fits) ∧ ((∃ after, run = .ok after) ↔ fits) := by
  intro run fits
  have halike : EndAlike (fun _ _ => True) run
      (countersTaken protocol.packetIdTracker peer (numberedChunks payload).length) := by
    have hcounters := sendPayload_alike hash reliability payload now clock hfound hstays
    rwa [map_chunkCompletes] at hcounters
  by_cases hfits : fits
  · obtain ⟨moved, hmoved⟩ := countersTaken_ok hroom hfits
    rw [hmoved] at halike
    generalize hrun : run = outcome at halike
    cases halike with
    | returned h => exact ⟨iff_of_true (by simp [OutOfRange]) hfits, iff_of_true ⟨_, rfl⟩ hfits⟩
  · have hout := (outOfRange_congr halike).mpr (countersTaken_out_of_range hfits)
    refine ⟨iff_of_false (not_not_intro hout) hfits, iff_of_false ?_ hfits⟩
    rintro ⟨after, hafter⟩
    rw [hafter] at hout
    simp [OutOfRange] at hout

/-- Every payload, for every connected peer whose tracker is below `u32::MAX - 1`, is sent
exactly where the counters fit. -/
def SendsWhereFits (protocol : Protocol S) : Prop :=
  ∀ (id : ConnectionId) (peer : Peer Connected), protocol.core.connected.lookup id = some peer →
    peer.sequenceTracker.get.toNat < 2 ^ 32 - 2 →
    ∀ (hash : RandomState) (reliability : ReliabilityType) (payload : Payload) (now : Duration)
      (clock : Nat → Duration),
      let run := sendPayload hash reliability (.single id) payload now clock protocol
      let fits := FitsCounters protocol.packetIdTracker peer.sequenceTracker
        ((payload.length + 1482) / 1483)
      (¬OutOfRange run ↔ fits) ∧ ((∃ after, run = .ok after) ↔ fits)

theorem sendsWhereFits_of_stays (hstays : ∀ id peer,
    protocol.core.connected.lookup id = some peer → StaysPut protocol.service peer.address) :
    SendsWhereFits protocol := by
  intro id peer hfound htracker hash reliability payload now clock
  rw [← length_numberedChunks]
  have hroom : peer.sequenceTracker.get.toNat + 1 < 2 ^ 32 := by omega
  exact sendPayload_fits_iff hash reliability payload now clock hfound (hstays id peer hfound) hroom

/-- In both roles, in every reachable state: sending a payload does no arithmetic out of range
exactly if the packet id and the tracker have room for it, and the number of its chunks is
at most one or no multiple of 256. -/
theorem sends_where_counters_fit (crc32 : Crc32) :
    (∀ history, (serverHistories crc32).Reachable history → SendsWhereFits history.protocol) ∧
    ∀ history, (clientHistories crc32).Reachable history → SendsWhereFits history.protocol := by
  constructor
  · intro history _
    exact sendsWhereFits_of_stays fun _ _ _ => staysPut_server _ _
  · intro history hreachable
    obtain ⟨⟨asked, pending, table⟩, -⟩ := clientHistories_keeps hreachable
    refine sendsWhereFits_of_stays fun id peer hfound => staysPut_client ?_
    exact (table.apart id peer.address ⟨peer, hfound, rfl⟩).2

def connectedHistory : History Server :=
  requestedHistory.after overtakenServer

theorem connectedHistory_reachable : (serverHistories ieeeCrc32).Reachable connectedHistory :=
  (acknowledged_reachable requestedHistory_reachable).next ⟨_, .received
    (Classical.arbitrary RandomState) earlyDatagram .zero (.ok ()) overtakenServer
    (requestedServer_overtaken _)⟩

theorem overtakenServer_found : ∃ peer,
    overtakenServer.core.connected.lookup ⟨1, by decide⟩ = some peer ∧
      peer.sequenceTracker.get.toNat = 1 :=
  ⟨_, Finmap.lookup_insert _, rfl⟩

/-- The payload of 256 chunks is queued, and its first fragment underflows. -/
theorem overlongPayload_underflows :
    (serverHistories ieeeCrc32).Reachable connectedHistory ∧
      (∃ peer, connectedHistory.protocol.core.connected.lookup ⟨1, by decide⟩ = some peer ∧
        peer.sequenceTracker.get.toNat = 1) ∧
      OutOfRange (sendPayload (Classical.arbitrary RandomState) .reliable
        (.single ⟨1, by decide⟩) overlongPayload .zero (fun _ => .zero)
        connectedHistory.protocol) := by
  obtain ⟨peer, hfound, htracker⟩ := overtakenServer_found
  refine ⟨connectedHistory_reachable, overtakenServer_found, ?_⟩
  have hiff := sendPayload_fits_iff (Classical.arbitrary RandomState) .reliable overlongPayload
    .zero (fun _ => .zero) hfound (staysPut_server _ _) (by rw [htracker]; decide)
  by_contra hfits
  obtain ⟨-, hone | ⟨hmod, -⟩⟩ := hiff.1.mp hfits
  · rw [length_numberedChunks, overlongPayload, List.length_replicate] at hone
    omega
  · rw [length_numberedChunks, overlongPayload, List.length_replicate] at hmod
    omega

theorem twoChunks_sent : ∃ after, sendPayload (Classical.arbitrary RandomState) .reliable
    (.single ⟨1, by decide⟩) (List.replicate 1484 7) .zero (fun _ => .zero)
    connectedHistory.protocol = .ok after := by
  obtain ⟨peer, hfound, htracker⟩ := overtakenServer_found
  refine ((sends_where_counters_fit ieeeCrc32).1 connectedHistory connectedHistory_reachable _ peer
    hfound (by omega) _ _ _ _ _).2.mpr ⟨by decide, .inr ⟨?_, ?_⟩⟩
  · rw [List.length_replicate]
    decide
  · rw [List.length_replicate, htracker]
    decide

end Runs

end Antarc.Properties
