import Antarc.Properties.Assemblies

/-! When a server can be polled. A poll adds a ttl to the times of stored packets, and a second
to the times of stored fragments; it comes back where these sums are times. -/
namespace Antarc.Properties

open Library

section Polls

variable {crc32 : Crc32} {state : Assembly Server}

/-- A second after the newest fragment of every stored group is a time. -/
def GroupsInRange (connected : HashMap ConnectionId (Peer Connected)) : Prop :=
  ∀ id peer sequence group newest, connected.lookup id = some peer →
    peer.connection.reassembler.lookup sequence = some group → group.getLast? = some newest →
      InRange (newest.delivery.metadata.time, .fromSecs 1)

theorem judged_iff {group : List (Packet Received Fragment)} (hnonempty : group ≠ []) :
    Judged group ↔ ∀ newest, group.getLast? = some newest →
      InRange (newest.delivery.metadata.time, .fromSecs 1) := by
  have hlast := List.getLast?_eq_some_getLast hnonempty
  unfold Judged
  simp only [hlast, ← add_eq_ok_iff_inRange, Option.some.injEq, exists_and_left, exists_eq_left',
    forall_eq']

/-- A server's poll comes back exactly when all the sums that it makes are times. -/
theorem serverPoll_returns_iff (h : Assembled state) (hash : RandomState)
    (peerHash : ConnectionId → RandomState) (elapsed now : Duration) :
    (∃ outcome, state.protocol.serverPoll hash peerHash elapsed now = .ok outcome) ↔
      (∀ head ∈ testedHeads state.protocol.service.reliabilityHandler, InRange head) ∧
        GroupsInRange state.protocol.core.connected := by
  let connected := state.protocol.service.connected
  have hpeer : ∀ id peer, connected.lookup id = some peer →
      ((∃ polled, peer.poll (peerHash id) now = .ok polled) ↔
        ∀ sequence group newest, peer.connection.reassembler.lookup sequence = some group →
          group.getLast? = some newest → InRange (newest.delivery.metadata.time, .fromSecs 1)) := by
    intro id peer hfound
    have hgroups := h.groups id peer hfound
    rw [poll_returns_iff _ _ hgroups.keyedGroups]
    constructor
    · intro hjudged sequence group newest hgroup
      exact (judged_iff (hgroups.nonempty sequence group hgroup)).mp (hjudged sequence group hgroup)
        newest
    · intro hrange sequence group hgroup
      exact (judged_iff (hgroups.nonempty sequence group hgroup)).mpr
        fun newest => hrange sequence group newest hgroup
  have hpeers : (∃ final, updateEach (fun id peer => Peer.poll (peerHash id) peer now)
      (hash.iterate connected).entries connected = .ok final) ↔
        GroupsInRange state.protocol.core.connected := by
    rw [updateEach_returns_iff]
    constructor
    · intro hall id peer sequence group newest hfound
      exact (hpeer id peer hfound).mp
        (hall ⟨id, peer⟩ (((hash.iterate connected).mem_iff id peer).mpr hfound))
        sequence group newest
    · rintro hrange ⟨id, peer⟩ hmem
      have hfound := ((hash.iterate connected).mem_iff id peer).mp hmem
      exact (hpeer id peer hfound).mpr fun sequence group newest =>
        hrange id peer sequence group newest hfound
  rw [← hpeers]
  constructor
  · rintro ⟨⟨events, next⟩, hpoll⟩
    obtain ⟨handler, final, hhandler, hfinal, -, -⟩ := serverPoll_frame hpoll
    exact ⟨(handlerPoll_eq_ok.mp hhandler).1, final, hfinal⟩
  · rintro ⟨hheads, final, hfinal⟩
    have hhandler : state.protocol.service.reliabilityHandler.poll elapsed = .ok _ :=
      handlerPoll_eq_ok.mpr ⟨hheads, rfl⟩
    exact ⟨_, bind_eq_ok.mpr ⟨_, hhandler, bind_eq_ok.mpr ⟨final, hfinal, rfl⟩⟩⟩

end Polls

section Kept

variable {S M : Type} [Carried M] [Expires M] {now : Duration}

theorem expiries_keep (handler : ReliabilityHandler S) (reliability : ReliabilityType)
    (sent : Packet Sent M) : ∀ expiry ∈ expiries (handler.keep reliability sent),
      expiry ∈ expiries handler ∨ reliability = .reliable ∧ expiry = expiryOf sent := by
  intro expiry hexpiry
  cases reliability with
  | unreliable => exact .inl hexpiry
  | reliable =>
    rcases Expires.of_setListSent handler _ expiry hexpiry with hmem | hmem
    · rw [List.map_append, List.mem_append] at hmem
      rcases hmem with hmem | hmem
      · obtain ⟨packet, hpacket, rfl⟩ := List.mem_map.mp hmem
        exact .inl (Expires.expiry_mem handler packet hpacket)
      · exact .inr ⟨rfl, List.mem_singleton.mp hmem⟩
    · exact .inl hmem

theorem service_kept (handler : ReliabilityHandler S) (reliability : ReliabilityType)
    (sent : Packet Sent M) : (handler.keep reliability sent).service = handler.service := by
  cases reliability with
  | unreliable => rfl
  | reliable => exact Expires.service_setListSent handler _

theorem expiries_retry {handler after : ReliabilityHandler S} {result : Option (Packet ToSend M)}
    (h : handler.retry now = .ok (result, after)) :
    expiries after ⊆ expiries handler ∧ after.service = handler.service := by
  obtain ⟨⟨packet, list⟩, hlast, h⟩ := bind_eq_ok.mp h
  cases h
  refine ⟨fun expiry hexpiry => ?_, Expires.service_setListSent handler list⟩
  rcases Expires.of_setListSent handler list expiry hexpiry with hmem | hmem
  · obtain ⟨packet, hpacket, rfl⟩ := List.mem_map.mp hmem
    exact Expires.expiry_mem handler packet ((retryLast_cases hlast).1 packet hpacket)
  · exact hmem

end Kept

section Sums

variable {crc32 : Crc32} {protocol next : Protocol Server} {kept : Option Duration}

def serverExpiries (handler : ReliabilityHandler ServerReliabilityHandler) :
    List (Duration × Duration) :=
  expiries handler ++ handler.service.listSentConnectionAccepted.map expiryOf

structure KeepsNoOther (kept : Option Duration) (before after : Protocol Server) : Prop where
  ttl : after.reliableTtl = before.reliableTtl
  expiries : ∀ expiry ∈ serverExpiries after.service.reliabilityHandler,
    expiry ∈ serverExpiries before.service.reliabilityHandler ∨
      ∃ now ∈ kept, expiry = (now, before.reliableTtl)

theorem KeepsNoOther.of_subset (httl : next.reliableTtl = protocol.reliableTtl)
    (hsubset : serverExpiries next.service.reliabilityHandler ⊆
      serverExpiries protocol.service.reliabilityHandler) : KeepsNoOther kept protocol next :=
  ⟨httl, fun _ hmem => .inl (hsubset hmem)⟩

theorem KeepsNoOther.of_same (httl : next.reliableTtl = protocol.reliableTtl)
    (hhandler : next.service.reliabilityHandler = protocol.service.reliabilityHandler) :
    KeepsNoOther kept protocol next :=
  .of_subset httl fun _ hmem => hhandler ▸ hmem

theorem keepsNoOther_common (h : CommonWork protocol kept next) :
    KeepsNoOther kept protocol next := by
  cases h with
  | schedule hash reliability sendTo payload now result next call =>
    rcases schedule_cases call with ⟨_, -, rfl⟩ | ⟨_, _, -, -, -, -, rfl⟩
    · exact .of_same rfl rfl
    · exact .of_same rfl rfl
  | heartbeat hash reliability sendTo now result next call =>
    rcases heartbeat_cases call with ⟨_, -, rfl⟩ | ⟨_, _, -, -, -, -, rfl⟩
    · exact .of_same rfl rfl
    · exact .of_same rfl rfl
  | drain R M start stop drained next call =>
    obtain ⟨_, rfl⟩ := drain_frame call
    exact .of_same rfl rfl
  | sent M packet reliability now next call =>
    obtain ⟨completes, core, -, hcore, rfl⟩ := sent_frame call
    have hhandler : core.reliabilityHandler = protocol.service.reliabilityHandler := by
      cases completes with
      | false =>
        cases hcore
        rfl
      | true =>
        rcases advanceConnected_cases hcore with ⟨-, rfl⟩ | ⟨_, _, -, -, rfl⟩
        · rfl
        · rfl
    refine ⟨rfl, fun expiry hmem => ?_⟩
    change expiry ∈ serverExpiries (core.reliabilityHandler.keep _ _) at hmem
    rw [hhandler, serverExpiries, service_kept, List.mem_append] at hmem
    rcases hmem with hmem | hmem
    · rcases expiries_keep _ _ _ expiry hmem with hmem | ⟨rfl, rfl⟩
      · exact .inl (List.mem_append_left _ hmem)
      · exact .inr ⟨now, rfl, rfl⟩
    · exact .inl (List.mem_append_right _ hmem)
  | retry M now packet next call =>
    obtain ⟨handler, hretry, rfl⟩ := retry_frame call
    obtain ⟨hsubset, hservice⟩ := expiries_retry hretry
    refine .of_subset rfl ?_
    change serverExpiries handler ⊆ _
    rw [serverExpiries, hservice]
    exact List.append_subset.mpr
      ⟨fun _ hmem => List.mem_append_left _ (hsubset hmem), List.subset_append_right _ _⟩

theorem serverExpiries_dropHeads (handler : ReliabilityHandler ServerReliabilityHandler) :
    serverExpiries (dropHeads handler) ⊆ serverExpiries handler := by
  intro expiry hmem
  rcases List.mem_append.mp hmem with hmem | hmem
  · exact List.mem_append_left _ (dropListHeads_subset _ _ _ hmem)
  · exact List.mem_append_right _ (List.map_subset _ (List.tail_subset _) hmem)

theorem keepsNoOther_work (h : ServerWork protocol kept next) :
    KeepsNoOther kept protocol next := by
  cases h with
  | common call => exact keepsNoOther_common call
  | drainConnectionAccepted start stop drained next call =>
    obtain ⟨_, -, rfl⟩ := drainConnectionAccepted_frame call
    exact .of_same rfl rfl
  | sentConnectionAccepted packet now next call =>
    obtain ⟨_, -, rfl⟩ := sentConnectionAccepted_frame call
    refine ⟨rfl, fun expiry hmem => ?_⟩
    change expiry ∈ expiries _ ++ List.map expiryOf (_ ++ [_]) at hmem
    rw [List.map_append, ← List.append_assoc, List.mem_append] at hmem
    rcases hmem with hmem | hmem
    · exact .inl hmem
    · exact .inr ⟨now, rfl, List.mem_singleton.mp hmem⟩
  | retryConnectionAccepted now packet next call =>
    obtain ⟨list, hlast, rfl⟩ := retryConnectionAccepted_frame call
    refine .of_subset rfl (List.append_subset.mpr ⟨List.subset_append_left _ _, ?_⟩)
    intro expiry hmem
    have hlist : ∀ packet ∈ list, packet ∈ _ := (retryLast_cases hlast).1
    exact List.mem_append_right _ (List.map_subset _ hlist hmem)
  | poll hash peerHash elapsed now events next call =>
    obtain ⟨_, _, hpoll, -, -, rfl⟩ := serverPoll_frame call
    obtain ⟨-, rfl⟩ := handlerPoll_eq_ok.mp hpoll
    exact .of_subset rfl (serverExpiries_dropHeads _)

theorem handler_of_admits {server after : Server} {packet : Packet Received ConnectionRequest}
    {packetId : PacketId} {time : Duration} (h : ServerAdmits server packet packetId time after) :
    after.reliabilityHandler = server.reliabilityHandler := by
  cases h with
  | again id peer asking found =>
    unfold Server.acceptConnection
    split <;> rfl
  | registered tracker unknown counted => rfl

theorem keepsNoOther_received {raw : RawPacket} {now : Duration}
    (h : ServerReceives crc32 raw now protocol next) : KeepsNoOther kept protocol next := by
  obtain ⟨hash, result, h⟩ := h
  obtain ⟨answered, hreceived, -⟩ := serverReceived_onReceived h
  have hhandler : next.service.reliabilityHandler = protocol.service.reliabilityHandler := by
    rcases server_onReceived_cases hreceived with hsame | ⟨_, _, -, -, -, hhears⟩ |
      ⟨packet, -, -, hadmits⟩
    · rw [hsame]
    · exact hhears.kept.2
    · exact handler_of_admits hadmits
  refine .of_same ?_ hhandler
  obtain ⟨⟨answered, service⟩, -, h⟩ := bind_eq_ok.mp h
  rcases answered with error | updatePacketId
  · cases h
    rfl
  · cases updatePacketId with
    | false =>
      cases h
      rfl
    | true =>
      obtain ⟨tracker, -, h⟩ := bind_eq_ok.mp h
      cases h
      rfl

end Sums

section Runs

variable {crc32 : Crc32} {reliableTtl : Duration} {state next : Assembly Server} {label : Label}

/-- A step in whose time the clock is not near its end: what it keeps is kept until a time, and
a second after the fragments that it hears is a time. -/
def Timely (reliableTtl : Duration) : Label → Prop
  | .worked kept => ∀ now ∈ kept, InRange (now, reliableTtl)
  | .heard fragments => ∀ fragment ∈ fragments,
      InRange (fragment.delivery.metadata.time, .fromSecs 1)
  | .polled => True

def timelyAssemblies (crc32 : Crc32) (reliableTtl : Duration) : Machine (Assembly Server) where
  init state := state = ⟨.newServer reliableTtl, [], []⟩
  step state next := ∃ label, Timely reliableTtl label ∧ ServerAssemblyStep crc32 state label next

theorem timely_reachable (h : (timelyAssemblies crc32 reliableTtl).Reachable state) :
    (serverAssemblies crc32).Reachable state := by
  apply h.invariant (serverAssemblies crc32).Reachable
  · rintro _ rfl
    exact .start ⟨reliableTtl, rfl⟩
  · rintro _ _ - hreachable ⟨label, -, hstep⟩
    exact hreachable.next ⟨label, hstep⟩

/-- All sums that a poll may come to make are times. -/
structure SumsInRange (reliableTtl : Duration) (state : Assembly Server) : Prop where
  ttl : state.protocol.reliableTtl = reliableTtl
  kept : ∀ expiry ∈ serverExpiries state.protocol.service.reliabilityHandler, InRange expiry
  heard : ∀ fragment ∈ state.received, InRange (fragment.delivery.metadata.time, .fromSecs 1)

theorem SumsInRange.of_keeps {kept : Option Duration} {protocol : Protocol Server}
    (h : SumsInRange reliableTtl state) (hkept : ∀ now ∈ kept, InRange (now, reliableTtl))
    (hkeeps : KeepsNoOther kept state.protocol protocol) :
    SumsInRange reliableTtl { state with protocol := protocol } where
  ttl := hkeeps.ttl.trans h.ttl
  kept := by
    intro expiry hmem
    rcases hkeeps.expiries expiry hmem with hold | ⟨now, hnow, rfl⟩
    · exact h.kept expiry hold
    · rw [h.ttl]
      exact hkept now hnow
  heard := h.heard

theorem SumsInRange.step (h : SumsInRange reliableTtl state) (htimely : Timely reliableTtl label)
    (hstep : ServerAssemblyStep crc32 state label next) : SumsInRange reliableTtl next := by
  cases hstep with
  | worked kept next call => exact h.of_keeps htimely (keepsNoOther_work call)
  | heard raw now next call =>
    have hkeeps : KeepsNoOther none state.protocol next := keepsNoOther_received call
    obtain ⟨httl, hexpiries, -⟩ := h.of_keeps (fun _ hnone => by contradiction) hkeeps
    refine ⟨httl, hexpiries, fun fragment hmem => ?_⟩
    rcases List.mem_append.mp hmem with hmem | hmem
    · exact h.heard fragment hmem
    · exact htimely fragment hmem
  | polled hash id peer polled now found call => exact ⟨h.ttl, h.kept, h.heard⟩

theorem sumsInRange_of_reachable (h : (timelyAssemblies crc32 reliableTtl).Reachable state) :
    SumsInRange reliableTtl state := by
  apply h.invariant (SumsInRange reliableTtl)
  · rintro _ rfl
    exact ⟨rfl, List.forall_mem_nil _, List.forall_mem_nil _⟩
  · rintro _ _ - hsums ⟨label, htimely, hstep⟩
    exact hsums.step htimely hstep

theorem testedHeads_subset (handler : ReliabilityHandler ServerReliabilityHandler) :
    testedHeads handler ⊆ serverExpiries handler := by
  have hhead : ∀ {M : Type} (list : List (Packet Sent M)), headExpiry list ⊆ list.map expiryOf := by
    intro M list
    cases list with
    | nil => exact List.nil_subset _
    | cons packet rest => simp [headExpiry]
  refine List.append_subset.mpr ⟨fun expiry hmem => List.mem_append_left _ ?_, ?_⟩
  · unfold listHeads at hmem
    split at hmem
    · exact List.mem_append_right _ (hhead _ hmem)
    · next packet rest hlist =>
      refine List.mem_append_left _ (List.mem_append_left _ ?_)
      rw [hlist, List.mem_singleton.mp hmem]
      exact List.mem_cons_self
  · exact fun expiry hmem => List.mem_append_right _ (hhead _ hmem)

/-- In a run of timely steps every poll comes back; and in any run a poll comes back exactly
when the sums that it makes of what is stored are times. -/
theorem timely_polls_return (crc32 : Crc32) :
    (∀ reliableTtl state, (timelyAssemblies crc32 reliableTtl).Reachable state →
      ∀ hash peerHash elapsed now, ∃ outcome,
        state.protocol.serverPoll hash peerHash elapsed now = .ok outcome) ∧
    ∀ state, (serverAssemblies crc32).Reachable state → ∀ hash peerHash elapsed now,
      ((∃ outcome, state.protocol.serverPoll hash peerHash elapsed now = .ok outcome) ↔
        (∀ head ∈ testedHeads state.protocol.service.reliabilityHandler, InRange head) ∧
          GroupsInRange state.protocol.core.connected) := by
  constructor
  · intro reliableTtl state h hash peerHash elapsed now
    have hassembled := server_assembled (timely_reachable h)
    have hsums := sumsInRange_of_reachable h
    rw [serverPoll_returns_iff hassembled]
    constructor
    · exact fun head hmem => hsums.kept head (testedHeads_subset _ hmem)
    · intro id peer sequence group newest hfound hgroup hnewest
      apply hsums.heard
      exact ((hassembled.groups id peer hfound).arrived sequence group hgroup).subset
        (List.mem_of_getLast? hnewest)
  · intro state h hash peerHash elapsed now
    exact serverPoll_returns_iff (server_assembled h) hash peerHash elapsed now

end Runs

section Overflow

def patientAccept : Packet ToSend ConnectionAccepted :=
  ⟨⟨0, ⟨.fromNanos 1, .v4 0 0⟩⟩, .one, 1, ⟨⟨connectionAccepted⟩, .one⟩⟩

/-- A server that keeps its packets for as long as there is, and has sent the first accept a
nanosecond after the clock started. -/
def patientServer : Protocol Server :=
  let server := requestedServer.service
  let peer : Peer AwaitingConnectionAck := ⟨.two, 1, 0, .v4 0 0, ⟨⟨.zero, 0, .zero⟩, 0⟩⟩
  { requestedServer with
    reliableTtl := .max
    service := { server with
      scheduler := { server.scheduler with service := ⟨[]⟩ }
      awaitingConnectionAck := server.awaitingConnectionAck.insert .one peer
      reliabilityHandler := .new ⟨[patientAccept.sent (.fromNanos 1) .max]⟩ } }

theorem patientServer_reachable :
    (serverAssemblies ieeeCrc32).Reachable ⟨patientServer, [], []⟩ := by
  have hasked : (serverAssemblies ieeeCrc32).Reachable
      ⟨{ requestedServer with reliableTtl := .max }, [], []⟩ :=
    .next (.start ⟨.max, rfl⟩) ⟨_, newServer_asked .max⟩
  have hdrained := hasked.next ⟨_, .worked _ _ (.drainConnectionAccepted 0 1 _ _ rfl)⟩
  exact hdrained.next ⟨_, .worked _ _ (.sentConnectionAccepted patientAccept _ _ rfl)⟩

/-- No poll of it comes back, at whatever time. -/
theorem patientServer_overflows :
    (serverAssemblies ieeeCrc32).Reachable ⟨patientServer, [], []⟩ ∧
      ∀ hash peerHash elapsed now, ¬∃ outcome,
        patientServer.serverPoll hash peerHash elapsed now = .ok outcome := by
  refine ⟨patientServer_reachable, fun hash peerHash elapsed now h => ?_⟩
  have hreturns := serverPoll_returns_iff (server_assembled patientServer_reachable)
  have hheads := ((hreturns _ _ _ _).mp h).1
  have hsum := hheads (.fromNanos 1, .max) List.mem_cons_self
  exact absurd hsum (by decide)

theorem halfwayServer_timely :
    (timelyAssemblies ieeeCrc32 .zero).Reachable ⟨halfwayServer, [firstHalf], []⟩ := by
  have hasked : (timelyAssemblies ieeeCrc32 .zero).Reachable ⟨requestedServer, [], []⟩ :=
    .next (.start rfl) ⟨.heard [], List.forall_mem_nil _, newServer_asked .zero⟩
  have htime : ∀ fragment ∈ [firstHalf],
      InRange (fragment.delivery.metadata.time, .fromSecs 1) := by
    decide
  exact hasked.next ⟨.heard [firstHalf], htime, requestedServer_hears⟩

/-- A server that has taken in half a payload when the clock started can be polled at any time. -/
theorem halfwayServer_polls :
    (∀ hash peerHash elapsed now, ∃ outcome,
      halfwayServer.serverPoll hash peerHash elapsed now = .ok outcome) ∧
    GroupsInRange halfwayServer.core.connected := by
  obtain ⟨htimely, hany⟩ := timely_polls_return ieeeCrc32
  have hpolls := htimely .zero _ halfwayServer_timely
  let hash := Classical.arbitrary RandomState
  have hreturns := hany _ halfwayServer_reachable hash (fun _ => hash) .zero .zero
  have hrange := hreturns.mp (hpolls _ _ _ _)
  exact ⟨hpolls, hrange.2⟩

end Overflow

end Antarc.Properties
