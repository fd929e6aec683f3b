import Antarc.Properties.Passes

/-! Scheduling keeps the books. A call appends to one queue, and to each address it
appends the parts of one packet, in order and with the last one last. -/
namespace Antarc.Properties

open Library

section Entries

variable {S A B E : Type} [Service S A B E] {service : S} {R M : Type} [Sendable M] [Bodied M]

theorem filter_entries {targets : List Target} (hdistinct : (targets.map Prod.snd).Nodup)
    (reliability : R) (message : ConnectionId → Payload × Nat → M) (packetId : PacketId)
    (time : Duration) (chunks : List (Payload × Nat)) (address : SocketAddr) :
    let parts := ((entriesFor reliability message packetId time targets chunks).map entryOf).filter
      fun entry => entry.address = address
    parts = [] ∨ ∃ target ∈ targets, parts = chunks.map fun chunk =>
      ⟨packetId, address, Bodied.body (message target.1 chunk)⟩ := by
  have hparts : ((entriesFor reliability message packetId time targets chunks).map entryOf).filter
        (fun entry => entry.address = address) =
      chunks.flatMap fun chunk => (targets.filter fun target => target.2 = address).map fun target =>
        ⟨packetId, target.2, Bodied.body (message target.1 chunk)⟩ := by
    simp only [entriesFor, List.map_flatMap, List.map_map, List.filter_flatMap, List.filter_map,
      Function.comp_def, entryOf]
  dsimp only
  rw [hparts]
  rcases filter_key_cases hdistinct address with hnobody | ⟨target, hmem, rfl, htarget⟩
  · exact .inl (by simp [hnobody])
  · refine .inr ⟨target, hmem, ?_⟩
    simp only [htarget, List.map_cons, List.map_nil, ← List.map_eq_flatMap]

theorem QueueOk.append {first second : List QueueEntry} (h : QueueOk service first)
    (h' : QueueOk service second) : QueueOk service (first ++ second) where
  entries := by
    intro entry hmem
    rcases List.mem_append.mp hmem with hmem | hmem
    · exact h.entries entry hmem
    · exact h'.entries entry hmem
  grouped := by
    intro address
    unfold GroupedTo
    rw [List.filter_append]
    exact (h.grouped address).append (h'.grouped address)

theorem queueOk_entries {targets : List Target} {reliability : R}
    {message : ConnectionId → Payload × Nat → M} {packetId : PacketId} {time : Duration}
    {chunks : List (Payload × Nat)}
    (hconnected : ∀ target ∈ targets, ConnectedAt service target.1 target.2)
    (hdistinct : (targets.map Prod.snd).Nodup)
    (hmessage : ∀ id, ∀ chunk ∈ chunks, (Bodied.body (message id chunk)).WellFormed ∧
      (Bodied.body (message id chunk)).connection = some id)
    (hgrouped : ∀ id address, Grouped QueueEntry.packetId (fun entry => entry.body.ends) none
      (chunks.map fun chunk => ⟨packetId, address, Bodied.body (message id chunk)⟩)) :
    QueueOk service ((entriesFor reliability message packetId time targets chunks).map entryOf) where
  entries := by
    intro entry hmem
    simp only [entriesFor, List.mem_map, List.mem_flatMap] at hmem
    obtain ⟨_, ⟨chunk, hchunk, target, htarget, rfl⟩, rfl⟩ := hmem
    obtain ⟨hwellFormed, hconnection⟩ := hmessage target.1 chunk hchunk
    exact ⟨hwellFormed, target.1, hconnection, hconnected target htarget⟩
  grouped := by
    intro address
    unfold GroupedTo
    rcases filter_entries hdistinct reliability message packetId time chunks address with
      hnone | ⟨target, -, hparts⟩
    · rw [hnone]
      rfl
    · rw [hparts]
      exact hgrouped target.1 address

theorem queueOk_pushAll [Queued R M] [QueueView R M] {scheduler : Scheduler A}
    {entries : List (Scheduled R M)} (hqueues : ∀ queue ∈ queues scheduler, QueueOk service queue)
    (hentries : QueueOk service (entries.map entryOf)) :
    ∀ queue ∈ queues (pushAll scheduler entries), QueueOk service queue := by
  intro queue hmem
  rcases QueueView.of_setQueue _ _ queue hmem with rfl | hold
  · rw [List.map_append]
    exact (hqueues _ (QueueView.queue_mem scheduler)).append hentries
  · exact hqueues queue hold

end Entries

section Messages

/-- The last of the numbered chunks has the number that ends the packet, in eight bits too. -/
theorem grouped_fragments (payload : Payload) (packetId : PacketId) (id : ConnectionId)
    (address : SocketAddr) :
    Grouped QueueEntry.packetId (fun entry => entry.body.ends) none
      ((numberedChunks payload).map fun chunk => ⟨packetId, address,
        Bodied.body (fragmentMessage (numberedChunks payload).length id chunk)⟩) := by
  unfold numberedChunks
  rw [List.length_zipIdx]
  rcases List.eq_nil_or_concat (chunks (maxFragmentSize - Message.headerSize Fragment) payload) with
    hnil | ⟨before, last, hconcat⟩
  · rw [hnil]
    rfl
  · rw [hconcat, List.concat_eq_append, List.zipIdx_append, List.map_append]
    have hindex : (UInt8.ofNat before.length) = UInt8.ofNat (before ++ [last]).length - 1 := by
      rw [List.length_append, List.length_singleton, UInt8.ofNat_add]
      exact (UInt8.add_sub_cancel _ _).symm
    refine grouped_parts (fun part hmem => ?_) rfl ?_ (.inl rfl)
    · obtain ⟨chunk, -, rfl⟩ := List.mem_map.mp hmem
      rfl
    · rw [Nat.zero_add]
      exact decide_eq_true hindex

theorem length_numberedChunk_le {payload : Payload} {chunk : Payload × Nat}
    (h : chunk ∈ numberedChunks payload) : chunk.1.length ≤ Body.maxPayload :=
  length_chunk_le (List.fst_mem_of_mem_zipIdx h)

end Messages

section Calls

variable {S A B E : Type} [Service S A B E]

theorem targets_ok [PeerTable S] {service : S} (hdistinct : Distinct service) {hash : RandomState}
    {sendTo : SendTo} {targets : List Target}
    (h : (Service.core service).targets hash sendTo = .ok targets) :
    (∀ target ∈ targets, ConnectedAt service target.1 target.2) ∧
      (targets.map Prod.snd).Nodup := by
  unfold ServiceCore.targets at h
  cases sendTo with
  | single id =>
    dsimp only at h
    split at h
    · next peer hfound =>
      cases h
      refine ⟨?_, List.nodup_singleton _⟩
      intro target hmem
      rw [List.mem_singleton.mp hmem]
      exact ⟨peer, hfound, rfl⟩
    · contradiction
  | broadcast =>
    cases h
    let walk := hash.iterate (Service.core service).connected
    have hfound : ∀ entry ∈ walk.entries, ConnectedAt service entry.1 entry.2.address :=
      fun entry hmem => ⟨entry.2, (walk.mem_iff entry.1 entry.2).mp hmem, rfl⟩
    refine ⟨?_, ?_⟩
    · intro target hmem
      obtain ⟨entry, hentry, rfl⟩ := List.mem_map.mp hmem
      exact hfound entry hentry
    · rw [List.map_map]
      refine List.Nodup.map_on ?_ walk.nodup_keys.of_map
      intro first hfirst second hsecond haddress
      have hid := hdistinct.connected _ _ _ (hfound first hfirst)
        (by rw [show first.2.address = second.2.address from haddress]; exact hfound second hsecond)
      exact List.inj_on_of_nodup_map walk.nodup_keys hfirst hsecond hid

variable {service : S} {scheduler : Scheduler A}

theorem queueOk_queued (hqueues : ∀ queue ∈ queues scheduler, QueueOk service queue)
    (targets : List Target) (payload : Payload)
    (hconnected : ∀ target ∈ targets, ConnectedAt service target.1 target.2)
    (hdistinct : (targets.map Prod.snd).Nodup) (reliability : ReliabilityType)
    (packetId : PacketId) (time : Duration) :
    ∀ queue ∈ queues (queued scheduler reliability packetId time targets
      (numberedChunks payload).length (numberedChunks payload)), QueueOk service queue := by
  have hfragments : ∀ id, ∀ chunk ∈ numberedChunks payload,
      (Bodied.body (fragmentMessage (numberedChunks payload).length id chunk)).WellFormed ∧
      (Bodied.body (fragmentMessage (numberedChunks payload).length id chunk)).connection =
        some id :=
    fun id chunk hmem => ⟨⟨rfl, length_numberedChunk_le hmem⟩, rfl⟩
  have htransfers : ∀ id, ∀ chunk ∈ numberedChunks payload,
      (Bodied.body (dataTransferMessage id chunk)).WellFormed ∧
      (Bodied.body (dataTransferMessage id chunk)).connection = some id :=
    fun id chunk hmem => ⟨⟨rfl, length_numberedChunk_le hmem⟩, rfl⟩
  have hwhole : ∀ id address, Grouped QueueEntry.packetId (fun entry => entry.body.ends) none
      ((numberedChunks payload).map fun chunk => ⟨packetId, address,
        Bodied.body (dataTransferMessage id chunk)⟩) := by
    intro id address
    apply grouped_whole
    intro entry hmem
    obtain ⟨chunk, -, rfl⟩ := List.mem_map.mp hmem
    rfl
  unfold queued
  split <;> cases reliability
  · exact queueOk_pushAll hqueues (queueOk_entries hconnected hdistinct hfragments
      (grouped_fragments payload packetId))
  · exact queueOk_pushAll hqueues (queueOk_entries hconnected hdistinct hfragments
      (grouped_fragments payload packetId))
  · exact queueOk_pushAll hqueues (queueOk_entries hconnected hdistinct htransfers hwhole)
  · exact queueOk_pushAll hqueues (queueOk_entries hconnected hdistinct htransfers hwhole)

theorem queueOk_beaten (hqueues : ∀ queue ∈ queues scheduler, QueueOk service queue)
    {targets : List Target}
    (hconnected : ∀ target ∈ targets, ConnectedAt service target.1 target.2)
    (hdistinct : (targets.map Prod.snd).Nodup) (reliability : ReliabilityType)
    (packetId : PacketId) (time : Duration) :
    ∀ queue ∈ queues (beaten scheduler reliability packetId time targets),
      QueueOk service queue := by
  have hbeats : ∀ id, ∀ chunk ∈ [(([], 0) : Payload × Nat)],
      (Bodied.body (heartbeatMessage id chunk)).WellFormed ∧
      (Bodied.body (heartbeatMessage id chunk)).connection = some id :=
    fun id chunk _ => ⟨rfl, rfl⟩
  have hwhole : ∀ id address, Grouped QueueEntry.packetId (fun entry => entry.body.ends) none
      ([(([], 0) : Payload × Nat)].map fun chunk => ⟨packetId, address,
        Bodied.body (heartbeatMessage id chunk)⟩) :=
    fun id address => ⟨.inl rfl, rfl⟩
  unfold beaten
  cases reliability
  · exact queueOk_pushAll hqueues (queueOk_entries hconnected hdistinct hbeats hwhole)
  · exact queueOk_pushAll hqueues (queueOk_entries hconnected hdistinct hbeats hwhole)

end Calls

section Books

variable {S A B E : Type} [Service S A B E] [PeerTable S] {crc32 : Crc32} {policy : Policy}
  {numbering : Numbering SocketAddr PacketId} {net : AntarcNet S} {antarc : Protocol S}

theorem queued_service (scheduler : Scheduler A) (reliability : ReliabilityType)
    (packetId : PacketId) (time : Duration) (targets : List Target) (total : Nat)
    (chunks : List (Payload × Nat)) :
    (queued scheduler reliability packetId time targets total chunks).service =
      scheduler.service := by
  unfold queued
  split <;> cases reliability <;> exact QueueView.service_setQueue _ _

theorem beaten_service (scheduler : Scheduler A) (reliability : ReliabilityType)
    (packetId : PacketId) (time : Duration) (targets : List Target) :
    (beaten scheduler reliability packetId time targets).service = scheduler.service := by
  cases reliability <;> exact QueueView.service_setQueue _ _

theorem Ledger.requeue (ledger : Ledger crc32 policy numbering net) {scheduler : Scheduler A}
    (tracker : PacketId)
    (hqueues : ∀ queue ∈ queues scheduler, QueueOk net.antarc.service queue) :
    Ledger crc32 policy numbering { net with antarc :=
      { net.antarc.setCore { net.antarc.core with scheduler := scheduler } with
        packetIdTracker := tracker } } := by
  refine ledger.stay ?_ (PeerTable.handshaking_setCore _ _) ?_ ?_
  all_goals simp only [Protocol.setCore, Protocol.core, Service.core_setCore]
  · intro _
    trivial
  · exact hqueues
  · exact ledger.stored

theorem Ledger.schedule (ledger : Ledger crc32 policy numbering net) {hash : RandomState}
    {reliability : ReliabilityType} {sendTo : SendTo} {payload : Payload} {now : Duration}
    {result : Result PacketId}
    (h : net.antarc.schedule hash reliability sendTo payload now = .ok (result, antarc)) :
    Ledger crc32 policy numbering { net with antarc := antarc } ∧
      Untouched net.antarc.service antarc.service := by
  rcases schedule_cases h with ⟨_, -, rfl⟩ | ⟨targets, tracker, -, htargets, -, -, rfl⟩
  · exact ⟨ledger, .refl _⟩
  refine ⟨ledger.requeue tracker ?_, untouched_setCore (fun _ => rfl) (queued_service ..) rfl⟩
  rcases htargets with hnil | htargets
  · have hnone := queueOk_queued ledger.queued [] payload (fun _ hmem => by contradiction)
      List.nodup_nil reliability net.antarc.packetIdTracker now
    rw [hnil] at hnone ⊢
    exact hnone
  · obtain ⟨hconnected, hdistinct⟩ := targets_ok ledger.distinct htargets
    exact queueOk_queued ledger.queued targets payload hconnected hdistinct reliability _ now

theorem Ledger.heartbeat (ledger : Ledger crc32 policy numbering net) {hash : RandomState}
    {reliability : ReliabilityType} {sendTo : SendTo} {now : Duration} {result : Result PacketId}
    (h : net.antarc.heartbeat hash reliability sendTo now = .ok (result, antarc)) :
    Ledger crc32 policy numbering { net with antarc := antarc } ∧
      Untouched net.antarc.service antarc.service := by
  rcases heartbeat_cases h with ⟨_, -, rfl⟩ | ⟨targets, tracker, -, htargets, -, -, rfl⟩
  · exact ⟨ledger, .refl _⟩
  refine ⟨ledger.requeue tracker ?_, untouched_setCore (fun _ => rfl) (beaten_service ..) rfl⟩
  obtain ⟨hconnected, hdistinct⟩ := targets_ok ledger.distinct htargets
  exact queueOk_beaten ledger.queued hconnected hdistinct reliability _ now

variable {start : Numbering SocketAddr PacketId} {side : AntarcNet S → Prop}

theorem BooksAt.schedule (books : BooksAt crc32 policy start side numbering net)
    (stable : Stable crc32 policy side) {hash : RandomState} {reliability : ReliabilityType}
    {sendTo : SendTo} {payload : Payload} {now : Duration} {result : Result PacketId}
    (h : net.antarc.schedule hash reliability sendTo payload now = .ok (result, antarc)) :
    BooksAt crc32 policy start side numbering { net with antarc := antarc } := by
  obtain ⟨ledger, huntouched⟩ := books.ledger.schedule h
  exact ⟨ledger, books.settled, books.steps,
    stable net _ numbering books.side (.of_untouched huntouched) ledger⟩

theorem BooksAt.heartbeat (books : BooksAt crc32 policy start side numbering net)
    (stable : Stable crc32 policy side) {hash : RandomState} {reliability : ReliabilityType}
    {sendTo : SendTo} {now : Duration} {result : Result PacketId}
    (h : net.antarc.heartbeat hash reliability sendTo now = .ok (result, antarc)) :
    BooksAt crc32 policy start side numbering { net with antarc := antarc } := by
  obtain ⟨ledger, huntouched⟩ := books.ledger.heartbeat h
  exact ⟨ledger, books.settled, books.steps,
    stable net _ numbering books.side (.of_untouched huntouched) ledger⟩

theorem Books.schedule (books : Books crc32 policy start side net)
    (stable : Stable crc32 policy side) {hash : RandomState} {reliability : ReliabilityType}
    {sendTo : SendTo} {payload : Payload} {now : Duration} {result : Result PacketId}
    (h : net.antarc.schedule hash reliability sendTo payload now = .ok (result, antarc)) :
    Books crc32 policy start side { net with antarc := antarc } := by
  obtain ⟨numbering, books⟩ := books.at
  exact (books.schedule stable h).books

theorem Books.heartbeat (books : Books crc32 policy start side net)
    (stable : Stable crc32 policy side) {hash : RandomState} {reliability : ReliabilityType}
    {sendTo : SendTo} {now : Duration} {result : Result PacketId}
    (h : net.antarc.heartbeat hash reliability sendTo now = .ok (result, antarc)) :
    Books crc32 policy start side { net with antarc := antarc } := by
  obtain ⟨numbering, books⟩ := books.at
  exact (books.heartbeat stable h).books

end Books

end Antarc.Properties
