import Antarc.Properties.Connections
import Antarc.Properties.Isolation

/-! On what a server connects a peer. The first packet of a connection that it hears from
a peer that awaits the ack connects that peer, whatever the packet acknowledges. The
accepts that were built, sent and acknowledged are followed by their sequences. -/
namespace Antarc.Properties

open Library

def AcceptFor (id : ConnectionId) (line : Line) : Prop :=
  ∃ metadata, line.body = .connectionAccepted ⟨metadata, id⟩

def NoneSent (accounted : List Line) (id : ConnectionId) : Prop :=
  ∀ line ∈ accounted, ¬AcceptFor id line

/-- The accepts of a server: each is for a registered peer at its address, the first one that
is sent has sequence one, and until then so have those that are built. -/
structure AcceptsNumbered (history : History Server) : Prop where
  recorded : ∀ entry ∈ HandshakeQueue.greetings history.protocol.service, entry ∈ history.greeted
  greeted : ∀ entry ∈ history.greeted, ∃ id metadata,
    entry.body = .connectionAccepted ⟨metadata, id⟩ ∧
      addressOf history.protocol.service id = some entry.address
  built : ∀ line ∈ history.built, ∀ id, AcceptFor id line →
    addressOf history.protocol.service id = some line.address ∧
      (NoneSent history.accounted id → line.sequence.get = 1)
  accounted : ∀ line ∈ history.accounted, ∀ id, AcceptFor id line →
    addressOf history.protocol.service id = some line.address
  first : ∀ id, ¬NoneSent history.accounted id →
    ∃ line ∈ history.accounted, AcceptFor id line ∧ line.sequence.get = 1
  tracker : ∀ id peer, history.protocol.service.awaitingConnectionAck.lookup id = some peer →
    (peer.sequenceTracker.get = 1 ↔ NoneSent history.accounted id)

section Accepts

variable {history : History Server} {protocol : Protocol Server} {line : Line}

theorem noneSent_append {accounted : List Line} {id : ConnectionId} :
    NoneSent (accounted ++ [line]) id ↔ NoneSent accounted id ∧ ¬AcceptFor id line := by
  unfold NoneSent
  constructor
  · intro h
    exact ⟨fun other hmem => h other (List.mem_append_left _ hmem),
      h line (List.mem_append_right _ (List.mem_singleton_self _))⟩
  · rintro ⟨hold, hline⟩ other hmem
    rcases List.mem_append.mp hmem with hmem | hmem
    · exact hold other hmem
    · rwa [List.mem_singleton.mp hmem]

theorem AcceptFor.unique {id id' : ConnectionId} (h : AcceptFor id line) (h' : AcceptFor id' line) :
    id = id' := by
  obtain ⟨_, hbody⟩ := h
  obtain ⟨_, hbody'⟩ := h'
  cases hbody.symm.trans hbody'
  rfl

theorem not_acceptFor_carried {M : Type} [Carried M] [Sendable M] [Bodied M] [Travels M]
    (packet : Packet ToSend M) (id : ConnectionId) :
    ¬AcceptFor id (lineToSend Bodied.body packet) := by
  rintro ⟨_, hbody⟩
  have hconnection := Travels.connection_body packet.message
  rw [show Bodied.body packet.message = _ from hbody] at hconnection
  contradiction

theorem AcceptsNumbered.after (numbered : AcceptsNumbered history)
    (haddress : ∀ id address, addressOf history.protocol.service id = some address →
      addressOf protocol.service id = some address)
    (hgreeted : ∀ entry ∈ HandshakeQueue.greetings protocol.service, entry ∈ history.greeted ∨
      ∃ id metadata, entry.body = .connectionAccepted ⟨metadata, id⟩ ∧
        addressOf protocol.service id = some entry.address)
    (hawaiting : ∀ id peer, protocol.service.awaitingConnectionAck.lookup id = some peer →
      (∃ old, history.protocol.service.awaitingConnectionAck.lookup id = some old ∧
        peer.sequenceTracker = old.sequenceTracker) ∨
      addressOf history.protocol.service id = none ∧ peer.sequenceTracker.get = 1) :
    AcceptsNumbered (history.after protocol) where
  recorded := fun entry hmem => List.mem_append_right _ hmem
  greeted := by
    have hold : ∀ entry ∈ history.greeted, ∃ id metadata,
        entry.body = .connectionAccepted ⟨metadata, id⟩ ∧
          addressOf protocol.service id = some entry.address := by
      intro entry hmem
      obtain ⟨id, metadata, hbody, hat⟩ := numbered.greeted entry hmem
      exact ⟨id, metadata, hbody, haddress _ _ hat⟩
    intro entry hmem
    rcases List.mem_append.mp hmem with hmem | hmem
    · exact hold entry hmem
    · exact (hgreeted entry hmem).elim (hold entry) id
  built := fun line hmem id haccept =>
    ⟨haddress _ _ (numbered.built line hmem id haccept).1,
      (numbered.built line hmem id haccept).2⟩
  accounted := fun line hmem id haccept => haddress _ _ (numbered.accounted line hmem id haccept)
  first := numbered.first
  tracker := by
    intro id peer hpeer
    rcases hawaiting id peer hpeer with ⟨old, hold, hsame⟩ | ⟨hnone, hone⟩
    · rw [hsame]
      exact numbered.tracker id old hold
    · refine ⟨fun _ line hmem haccept => ?_, fun _ => hone⟩
      have hat := numbered.accounted line hmem id haccept
      rw [hnone] at hat
      contradiction

theorem AcceptsNumbered.building (numbered : AcceptsNumbered history)
    (hline : ∀ id, AcceptFor id line →
      addressOf history.protocol.service id = some line.address ∧
        (NoneSent history.accounted id → line.sequence.get = 1)) :
    AcceptsNumbered (history.building line) := by
  refine { numbered with built := fun other hmem => ?_ }
  rcases List.mem_append.mp hmem with hmem | hmem
  · exact numbered.built other hmem
  · rw [List.mem_singleton.mp hmem]
    exact hline

theorem AcceptsNumbered.accounting (numbered : AcceptsNumbered (history.after protocol))
    (hline : ∀ id, ¬AcceptFor id line) : AcceptsNumbered (history.accounting line protocol) := by
  have hnone : ∀ id, NoneSent (history.accounted ++ [line]) id ↔ NoneSent history.accounted id := by
    intro id
    rw [noneSent_append]
    exact and_iff_left (hline id)
  refine ⟨numbered.recorded, numbered.greeted, ?_, ?_, ?_, ?_⟩
  · intro other hmem id haccept
    obtain ⟨hat, hone⟩ := numbered.built other hmem id haccept
    exact ⟨hat, fun hsent => hone ((hnone id).mp hsent)⟩
  · intro other hmem id haccept
    rcases List.mem_append.mp hmem with hmem | hmem
    · exact numbered.accounted other hmem id haccept
    · rw [List.mem_singleton.mp hmem] at haccept
      exact absurd haccept (hline id)
  · intro id hsent
    obtain ⟨other, hmem, hother⟩ := numbered.first id (fun h => hsent ((hnone id).mpr h))
    exact ⟨other, List.mem_append_left _ hmem, hother⟩
  · intro id peer hpeer
    exact (numbered.tracker id peer hpeer).trans (hnone id).symm

theorem AcceptsNumbered.create (numbered : AcceptsNumbered history)
    {scheduled : Scheduled Reliable ConnectionAccepted} {now : Duration}
    {packet : Packet ToSend ConnectionAccepted} (greeted : entryOf scheduled ∈ history.greeted)
    (h : history.protocol.createConnectionAccepted scheduled now = .ok packet) :
    AcceptsNumbered (history.building (lineToSend Bodied.body packet)) := by
  obtain ⟨peer, hpeer, h⟩ := bind_eq_ok.mp h
  cases h
  obtain ⟨id, metadata, hbody, hat⟩ := numbered.greeted _ greeted
  have hmessage : scheduled.message = ⟨metadata, id⟩ := Body.connectionAccepted.inj hbody
  refine numbered.building fun id' haccept => ?_
  cases haccept.unique ⟨metadata, hbody⟩
  have hfound := expect_eq_ok.mp hpeer
  rw [hmessage] at hfound
  exact ⟨hat, (numbered.tracker id peer hfound).mpr⟩

theorem AcceptsNumbered.sent (numbered : AcceptsNumbered history)
    {packet : Packet ToSend ConnectionAccepted} {now : Duration}
    (built : lineToSend Bodied.body packet ∈ history.built)
    (h : history.protocol.sentConnectionAccepted packet now = .ok protocol) :
    AcceptsNumbered (history.accounting (lineToSend Bodied.body packet) protocol) := by
  let id := packet.message.connectionId
  let line := lineToSend Bodied.body packet
  have haccept : AcceptFor id line := ⟨packet.message.metadata, rfl⟩
  have hother : ∀ id', id' ≠ id →
      (NoneSent (history.accounted ++ [line]) id' ↔ NoneSent history.accounted id') := by
    intro id' hne
    rw [noneSent_append]
    exact and_iff_left fun h => hne (h.unique haccept)
  have hsent : ¬NoneSent (history.accounted ++ [line]) id :=
    fun hnone => (noneSent_append.mp hnone).2 haccept
  have hpeers := samePeers_sentConnectionAccepted h
  have haddress : ∀ id' address, addressOf history.protocol.service id' = some address →
      addressOf protocol.service id' = some address := by
    intro id' address hat
    rwa [hpeers.addressOf_eq]
  refine ⟨?_, ?_, ?_, ?_, ?_, ?_⟩
  · exact fun entry hmem => List.mem_append_right _ hmem
  · intro entry hmem
    have hgreeted : entry ∈ history.greeted := by
      rcases List.mem_append.mp hmem with hmem | hmem
      · exact hmem
      · obtain ⟨awaiting, -, rfl⟩ := sentConnectionAccepted_frame h
        exact numbered.recorded entry hmem
    obtain ⟨id', metadata, hbody, hat⟩ := numbered.greeted entry hgreeted
    exact ⟨id', metadata, hbody, haddress _ _ hat⟩
  · intro other hmem id' hid'
    obtain ⟨hat, hone⟩ := numbered.built other hmem id' hid'
    refine ⟨haddress _ _ hat, fun hnone => hone ((hother id' ?_).mp hnone)⟩
    rintro rfl
    exact hsent hnone
  · intro other hmem id' hid'
    rcases List.mem_append.mp hmem with hmem | hmem
    · exact haddress _ _ (numbered.accounted other hmem id' hid')
    · rw [List.mem_singleton.mp hmem] at hid' ⊢
      exact haddress _ _ (numbered.built _ built id' hid').1
  · intro id' hsome
    by_cases hold : NoneSent history.accounted id'
    · have hid' : id' = id := by
        by_contra hne
        exact hsome ((hother id' hne).mpr hold)
      rw [hid'] at hold ⊢
      exact ⟨line, List.mem_append_right _ (List.mem_singleton_self _), haccept,
        (numbered.built line built id haccept).2 hold⟩
    · obtain ⟨other, hmem, hother⟩ := numbered.first id' hold
      exact ⟨other, List.mem_append_left _ hmem, hother⟩
  · obtain ⟨awaiting, hawaiting, rfl⟩ := sentConnectionAccepted_frame h
    intro id' peer hpeer
    have hpeer : awaiting.lookup id' = some peer := hpeer
    rcases hawaiting with ⟨hgone, rfl⟩ | ⟨old, advanced, hfound, hadvanced, rfl⟩
    · have hne : id' ≠ id := by
        rintro rfl
        rw [hgone] at hpeer
        contradiction
      exact (numbered.tracker id' peer hpeer).trans (hother id' hne).symm
    · rw [lookup_insert_eq] at hpeer
      split at hpeer
      · next hsame =>
        cases hpeer
        obtain ⟨sequence, hsequence, rfl⟩ := advance_eq_ok.mp hadvanced
        have hnext := NonZeroU32.checkedAdd_one hsequence
        rw [show id' = id from hsame]
        refine iff_of_false (fun hone => ?_) hsent
        have hpositive := old.sequenceTracker.ne_zero
        have hone : sequence.get = 1 := hone
        rw [hone] at hnext
        exact hpositive (UInt32.toNat_inj.mp (Nat.succ.inj hnext).symm)
      · next hne => exact (numbered.tracker id' peer hpeer).trans (hother id' hne).symm

theorem awaiting_received {registry : Registry SocketAddr} {crc32 : Crc32} {hash : RandomState}
    {raw : RawPacket} {now : Duration} {result : Result Unit} {received : Protocol Server}
    (table : ServerTable registry protocol.service)
    (h : protocol.serverReceived crc32 hash raw now = .ok (result, received)) :
    ∀ id peer, received.service.awaitingConnectionAck.lookup id = some peer →
      (∃ old, protocol.service.awaitingConnectionAck.lookup id = some old ∧
        peer.sequenceTracker = old.sequenceTracker) ∨
      addressOf protocol.service id = none ∧ peer.sequenceTracker.get = 1 := by
  obtain ⟨answered, hreceived, -⟩ := serverReceived_onReceived h
  intro id peer hpeer
  rcases server_onReceived_cases hreceived with hsame | ⟨_, _, -, -, -, hhears⟩ | ⟨_, -, -, hadmits⟩
  · rw [hsame] at hpeer
    exact .inl ⟨peer, hpeer, rfl⟩
  · generalize received.service = service at hhears hpeer
    cases hhears with
    | connected known found reassembler events delivers => exact .inl ⟨peer, hpeer, rfl⟩
    | awaiting known unconnected found time reassembler events delivers =>
      rw [lookup_erase_eq] at hpeer
      split at hpeer
      · contradiction
      · exact .inl ⟨peer, hpeer, rfl⟩
  · generalize received.service = service at hadmits hpeer
    cases hadmits with
    | again id' known asking found =>
      rw [table.requesting, Finmap.lookup_empty] at found
      contradiction
    | registered tracker unknown counted =>
      rw [admitting, lookup_insert_eq] at hpeer
      split at hpeer
      · next hid =>
        cases hpeer
        right
        rw [hid, addressOf, table.next_unused.1, table.next_unused.2]
        exact ⟨rfl, rfl⟩
      · exact .inl ⟨peer, hpeer, rfl⟩

theorem AcceptsNumbered.received {registry : Registry SocketAddr} {crc32 : Crc32}
    {hash : RandomState} {raw : RawPacket} {now : Duration} {result : Result Unit}
    (numbered : AcceptsNumbered history) (table : ServerTable registry history.protocol.service)
    (h : history.protocol.serverReceived crc32 hash raw now = .ok (result, protocol)) :
    AcceptsNumbered (history.after protocol) := by
  obtain ⟨later, hextends, table'⟩ := table.of_received h
  refine numbered.after (fun _ _ => addressOf_of_extends table table' hextends) ?_
    (awaiting_received table h)
  obtain ⟨answered, hreceived, -⟩ := serverReceived_onReceived h
  intro entry hmem
  obtain ⟨scheduled, hscheduled, rfl⟩ := List.mem_map.mp hmem
  rcases (table.received_accepts hreceived).2 scheduled hscheduled with hold | ⟨-, hat⟩
  · exact .inl (numbered.recorded _ (List.mem_map_of_mem hold))
  · exact .inr ⟨_, scheduled.message.metadata, rfl, hat⟩

theorem AcceptsNumbered.quiet (numbered : AcceptsNumbered history)
    (hpeers : SamePeers history.protocol.service protocol.service)
    (hawaiting : protocol.service.awaitingConnectionAck =
      history.protocol.service.awaitingConnectionAck)
    (hgreetings : ∀ entry ∈ HandshakeQueue.greetings protocol.service,
      entry ∈ HandshakeQueue.greetings history.protocol.service) :
    AcceptsNumbered (history.after protocol) := by
  refine numbered.after (fun id address hat => ?_) (fun entry hmem => ?_) fun id peer hpeer => ?_
  · rwa [hpeers.addressOf_eq]
  · exact .inl (numbered.recorded entry (hgreetings entry hmem))
  · rw [hawaiting] at hpeer
    exact .inl ⟨peer, hpeer, rfl⟩

theorem AcceptsNumbered.untouched (numbered : AcceptsNumbered history)
    (h : Untouched history.protocol.service protocol.service) :
    AcceptsNumbered (history.after protocol) := by
  refine numbered.quiet h.samePeers ?_ fun entry hmem => ?_
  · obtain ⟨core, hcore⟩ := h.frame
    rw [hcore]
    rfl
  · obtain ⟨scheduled, hscheduled, rfl⟩ := List.mem_map.mp hmem
    rw [show protocol.service.scheduler.service = history.protocol.service.scheduler.service from
      h.queue] at hscheduled
    exact List.mem_map_of_mem hscheduled

end Accepts

section Moves

variable {crc32 : Crc32} {history next : History Server} {heard : Option Header}

theorem CommonMove.numbered (numbered : AcceptsNumbered history) (peered : Peered history)
    (hdistinct : Distinct history.protocol.service) (move : CommonMove history next) :
    AcceptsNumbered next := by
  obtain ⟨huntouched, -⟩ := move.keeps peered hdistinct
  cases move with
  | create R M message scheduled now packet placed call =>
    exact numbered.building fun id haccept => absurd haccept (not_acceptFor_carried packet id)
  | sent M packet reliability now protocol built call =>
    exact (numbered.untouched huntouched).accounting (not_acceptFor_carried packet)
  | _ => exact numbered.untouched huntouched

theorem ServerMove.numbered {registry : Registry SocketAddr} (numbered : AcceptsNumbered history)
    (table : ServerTable registry history.protocol.service) (peered : Peered history)
    (move : ServerMove crc32 history heard next) : AcceptsNumbered next := by
  cases move with
  | common move => exact move.numbered numbered peered table.distinct
  | received hash raw now result protocol call => exact numbered.received table call
  | create scheduled now packet greeted call => exact numbered.create greeted call
  | sent packet now protocol built call => exact numbered.sent built call
  | drain start stop drained protocol call =>
    have hpeers := samePeers_drainConnectionAccepted call
    obtain ⟨queue, hqueue, rfl⟩ := drainConnectionAccepted_frame call
    refine numbered.quiet hpeers rfl fun entry hmem => ?_
    obtain ⟨scheduled, hscheduled, rfl⟩ := List.mem_map.mp hmem
    exact List.mem_map_of_mem (mem_drainRange hqueue scheduled hscheduled)
  | retry now packet protocol call =>
    have hpeers := samePeers_retryConnectionAccepted call
    obtain ⟨_, -, rfl⟩ := retryConnectionAccepted_frame call
    exact numbered.quiet hpeers rfl fun _ hmem => hmem
  | poll hash peerHash elapsed now events protocol call =>
    have hpeers := samePeers_poll call
    obtain ⟨_, _, -, -, -, rfl⟩ := serverPoll_frame call
    exact numbered.quiet hpeers rfl fun _ hmem => hmem

theorem numbered_new (reliableTtl : Duration) :
    AcceptsNumbered (.new (.newServer reliableTtl)) where
  recorded := fun _ hmem => hmem
  greeted := fun _ hmem => absurd hmem List.not_mem_nil
  built := fun _ hmem => absurd hmem List.not_mem_nil
  accounted := fun _ hmem => absurd hmem List.not_mem_nil
  first := fun _ hsome => absurd (fun _ hmem => absurd hmem List.not_mem_nil) hsome
  tracker := by
    intro id peer hpeer
    have hpeer : (∅ : HashMap ConnectionId (Peer AwaitingConnectionAck)).lookup id = some peer :=
      hpeer
    rw [Finmap.lookup_empty] at hpeer
    contradiction

theorem numbered_reachable (h : (serverHistories crc32).Reachable history) :
    AcceptsNumbered history := by
  refine h.invariant AcceptsNumbered ?_ ?_
  · rintro _ ⟨reliableTtl, rfl⟩
    exact numbered_new reliableTtl
  · rintro history next hreachable numbered ⟨heard, move⟩
    obtain ⟨⟨registry, table⟩, peered⟩ := serverHistories_keeps hreachable
    exact move.numbered numbered table peered

end Moves

section Promotions

variable {crc32 : Crc32} {history next : History Server} {heard : Option Header}
  {id : ConnectionId}

def Promotes (id : ConnectionId) (history next : History Server) : Prop :=
  id ∈ history.protocol.service.awaitingConnectionAck ∧ id ∈ next.protocol.service.connected

/-- The header is of a packet of the connection, and its ack is at least the sequence of an
accept that has been sent to the peer that awaits it. -/
def OnAcknowledgement (history : History Server) (heard : Option Header) (id : ConnectionId) :
    Prop :=
  ∃ header peer accept, heard = some header ∧ header.connectionId = id ∧
    history.protocol.service.awaitingConnectionAck.lookup id = some peer ∧
    accept ∈ history.accounted ∧ AcceptFor id accept ∧ accept.address = peer.address ∧
    accept.sequence.get ≤ header.ack

/-- The ack of the header is not zero, and the tracker of the peer that awaits it has moved
on from one. -/
def Acknowledges (server : Server) (header : Header) : Prop :=
  header.ack ≠ 0 ∧ ∀ peer,
    server.awaitingConnectionAck.lookup header.connectionId = some peer →
    peer.sequenceTracker.get ≠ 1

theorem not_promotes_of_samePeers {registry : Registry SocketAddr} {server after : Server}
    (table : ServerTable registry server) (hpeers : SamePeers server after)
    (hawaiting : id ∈ server.awaitingConnectionAck) : id ∉ after.connected := by
  rw [← Finmap.lookup_isSome, map_eq_isSome (hpeers.connected id), Finmap.lookup_isSome]
  exact table.disjoint id hawaiting

/-- A peer is connected only while a packet of its connection is processed. -/
theorem promotes_received {registry : Registry SocketAddr} {hash : RandomState} {raw : RawPacket}
    {now : Duration} {result : Result Unit} {protocol received : Protocol Server}
    (table : ServerTable registry protocol.service)
    (hawaiting : id ∈ protocol.service.awaitingConnectionAck)
    (hconnected : id ∈ received.service.connected)
    (h : protocol.serverReceived crc32 hash raw now = .ok (result, received)) :
    ∃ header, headerRead crc32 raw now = some header ∧ header.connectionId = id := by
  obtain ⟨answered, hreceived, -⟩ := serverReceived_onReceived h
  have hnot := table.disjoint id hawaiting
  rcases server_onReceived_cases hreceived with
    hsame | ⟨decoded, header, hdecode, hheader, -, hhears⟩ | ⟨_, -, -, hadmits⟩
  · rw [hsame] at hconnected
    exact absurd hconnected hnot
  · refine ⟨header, by rw [headerRead, hdecode]; exact hheader, ?_⟩
    generalize received.service = service at hhears hconnected
    cases hhears with
    | connected peer found reassembler events delivers =>
      exact ((Finmap.mem_insert.mp hconnected).resolve_right hnot).symm
    | awaiting peer unconnected found time reassembler events delivers =>
      exact ((Finmap.mem_insert.mp hconnected).resolve_right hnot).symm
  · generalize received.service = service at hadmits hconnected
    cases hadmits with
    | again id' peer asking found =>
      rw [table.requesting, Finmap.lookup_empty] at found
      contradiction
    | registered tracker unknown counted => exact absurd hconnected hnot

theorem ServerMove.promotes {registry : Registry SocketAddr}
    (table : ServerTable registry history.protocol.service) (peered : Peered history)
    (move : ServerMove crc32 history heard next) (h : Promotes id history next) :
    ∃ header, heard = some header ∧ header.connectionId = id := by
  obtain ⟨hawaiting, hconnected⟩ := h
  have hsame : SamePeers history.protocol.service next.protocol.service →
      ∃ header, heard = some header ∧ header.connectionId = id := fun hpeers =>
    absurd hconnected (not_promotes_of_samePeers table hpeers hawaiting)
  cases move with
  | common move => exact hsame (move.keeps peered table.distinct).1.samePeers
  | received hash raw now result protocol call =>
    exact promotes_received table hawaiting hconnected call
  | create scheduled now packet greeted call => exact hsame (.refl _)
  | sent packet now protocol built call => exact hsame (samePeers_sentConnectionAccepted call)
  | drain start stop drained protocol call => exact hsame (samePeers_drainConnectionAccepted call)
  | retry now packet protocol call => exact hsame (samePeers_retryConnectionAccepted call)
  | poll hash peerHash elapsed now events protocol call => exact hsame (samePeers_poll call)

theorem AcceptsNumbered.onAcknowledgement_iff {registry : Registry SocketAddr} {header : Header}
    {peer : Peer AwaitingConnectionAck} (numbered : AcceptsNumbered history)
    (table : ServerTable registry history.protocol.service)
    (hpeer : history.protocol.service.awaitingConnectionAck.lookup header.connectionId =
      some peer) :
    OnAcknowledgement history (some header) header.connectionId ↔
      Acknowledges history.protocol.service header := by
  constructor
  · rintro ⟨_, _, accept, hheard, -, -, hmem, haccept, -, hle⟩
    cases hheard
    refine ⟨fun hzero => ?_, fun other hother hone => ?_⟩
    · rw [hzero] at hle
      exact accept.sequence.ne_zero (UInt32.le_zero_iff.mp hle)
    · exact (numbered.tracker _ other hother).mp hone accept hmem haccept
  · rintro ⟨hack, htracker⟩
    have hsent := mt (numbered.tracker _ peer hpeer).mpr (htracker peer hpeer)
    obtain ⟨accept, hmem, haccept, hone⟩ := numbered.first _ hsent
    have haddress := (numbered.accounted accept hmem _ haccept).symm.trans
      (table.addressOf_awaiting hpeer)
    refine ⟨header, peer, accept, rfl, rfl, hpeer, hmem, haccept, Option.some.inj haddress, ?_⟩
    rw [hone, UInt32.le_iff_toNat_le]
    exact Nat.one_le_iff_ne_zero.mpr fun hzero => hack (UInt32.toNat_inj.mp hzero)

/-- One call, and where it receives a packet for an awaiting peer, an accept is acknowledged. -/
structure AcknowledgedMove (crc32 : Crc32) (history : History Server) (heard : Option Header)
    (next : History Server) : Prop where
  move : ServerMove crc32 history heard next
  acknowledges : ∀ header, heard = some header →
    header.connectionId ∈ history.protocol.service.awaitingConnectionAck →
    Acknowledges history.protocol.service header

def acknowledgedHistories (crc32 : Crc32) : Machine (History Server) where
  init := (serverHistories crc32).init
  step history next := ∃ heard, AcknowledgedMove crc32 history heard next

theorem acknowledged_reachable (h : (acknowledgedHistories crc32).Reachable history) :
    (serverHistories crc32).Reachable history := by
  obtain ⟨start, hinit, hsteps⟩ := h
  refine ⟨start, hinit, Relation.ReflTransGen.mono ?_ _ _ hsteps⟩
  rintro _ _ ⟨heard, hmove⟩
  exact ⟨heard, hmove.move⟩

theorem AcceptsNumbered.promotes_iff {registry : Registry SocketAddr}
    (numbered : AcceptsNumbered history) (table : ServerTable registry history.protocol.service)
    (peered : Peered history) (move : ServerMove crc32 history heard next)
    (h : Promotes id history next) :
    ∃ header, heard = some header ∧ header.connectionId = id ∧
      (OnAcknowledgement history heard id ↔ Acknowledges history.protocol.service header) := by
  obtain ⟨header, rfl, rfl⟩ := move.promotes table peered h
  obtain ⟨peer, hpeer⟩ := (mem_iff_lookup _ _).mp h.1
  exact ⟨header, rfl, rfl, numbered.onAcknowledgement_iff table hpeer⟩

/-- In a run in which every packet for an awaiting peer acknowledges an accept, every peer is
connected on an acknowledgement. In any run, the packet that connects a peer acknowledges
an accept exactly when its ack is not zero and the tracker of the peer has left one. -/
theorem connects_on_acknowledgement_iff (crc32 : Crc32) :
    (∀ history heard next id, (acknowledgedHistories crc32).Reachable history →
      AcknowledgedMove crc32 history heard next → Promotes id history next →
      OnAcknowledgement history heard id) ∧
    ∀ history heard next id, (serverHistories crc32).Reachable history →
      ServerMove crc32 history heard next → Promotes id history next →
      ∃ header, heard = some header ∧ header.connectionId = id ∧
        (OnAcknowledgement history heard id ↔ Acknowledges history.protocol.service header) := by
  constructor
  · intro history heard next id hreachable hmove hpromotes
    have hgeneral := acknowledged_reachable hreachable
    obtain ⟨⟨registry, table⟩, peered⟩ := serverHistories_keeps hgeneral
    obtain ⟨header, hheard, hid, hiff⟩ :=
      (numbered_reachable hgeneral).promotes_iff table peered hmove.move hpromotes
    exact hiff.mpr (hmove.acknowledges header hheard (hid ▸ hpromotes.1))
  · intro history heard next id hreachable move hpromotes
    obtain ⟨⟨registry, table⟩, peered⟩ := serverHistories_keeps hreachable
    exact (numbered_reachable hreachable).promotes_iff table peered move hpromotes

def requestedHistory : History Server :=
  (History.new (.newServer .zero)).after requestedServer

theorem requestedHistory_reachable :
    (acknowledgedHistories ieeeCrc32).Reachable requestedHistory := by
  let hash := Classical.arbitrary RandomState
  refine .next (.start ⟨.zero, rfl⟩) ⟨_, .received hash (requestFrom (.v4 0 0)) .zero (.ok ())
    requestedServer (newServer_requested hash), fun header _ hawaiting => ?_⟩
  exact absurd hawaiting Finmap.notMem_empty

/-- The heartbeat that comes before any accept was built connects its peer. -/
theorem requestedHistory_connects_early :
    (serverHistories ieeeCrc32).Reachable requestedHistory ∧
      ∃ heard, ServerMove ieeeCrc32 requestedHistory heard
          (requestedHistory.after overtakenServer) ∧
        Promotes ⟨1, by decide⟩ requestedHistory (requestedHistory.after overtakenServer) ∧
        requestedHistory.accounted = [] ∧
        ¬OnAcknowledgement requestedHistory heard ⟨1, by decide⟩ := by
  let hash := Classical.arbitrary RandomState
  refine ⟨acknowledged_reachable requestedHistory_reachable, _, .received hash earlyDatagram .zero
    (.ok ()) overtakenServer (requestedServer_overtaken hash), ⟨?_, ?_⟩, rfl, ?_⟩
  · exact Finmap.mem_insert.mpr (.inl rfl)
  · exact Finmap.mem_insert.mpr (.inl rfl)
  · rintro ⟨_, _, _, -, -, -, hmem, -⟩
    exact absurd hmem List.not_mem_nil

def firstAccept : Scheduled Reliable ConnectionAccepted :=
  ⟨0, .v4 0 0, .zero, {}, ⟨⟨connectionAccepted⟩, .one⟩⟩

def firstAccepted : Packet ToSend ConnectionAccepted :=
  firstAccept.intoPacket .one 1 .zero

def answeredPeer : Peer AwaitingConnectionAck :=
  { (Peer.new .zero (.v4 0 0) 1).awaitConnectionAck .zero with sequenceTracker := .two }

def answeredServer : Protocol Server :=
  let awaiting := requestedServer.service.awaitingConnectionAck.insert .one answeredPeer
  ⟨1, acceptSent requestedServer.service awaiting firstAccepted .zero .zero, .zero⟩

def answeredHistory : History Server :=
  (requestedHistory.building (lineToSend Bodied.body firstAccepted)).accounting
    (lineToSend Bodied.body firstAccepted) answeredServer

theorem answeredHistory_reachable :
    (acknowledgedHistories ieeeCrc32).Reachable answeredHistory := by
  have hbuilt := requestedHistory_reachable.next ⟨none, .create firstAccept .zero firstAccepted
    (List.mem_singleton_self _) rfl, fun header hheard => by contradiction⟩
  exact hbuilt.next ⟨none, .sent firstAccepted .zero answeredServer
    (List.mem_singleton_self _) rfl, fun header hheard => by contradiction⟩

def ackingHeartbeat : Packet ToSend Heartbeat :=
  ⟨⟨0, ⟨.zero, .v4 1 1⟩⟩, .two, 1, .new .one⟩

theorem answeredHistory_connects :
    ∃ heard next, AcknowledgedMove ieeeCrc32 answeredHistory heard next ∧
      Promotes ⟨1, by decide⟩ answeredHistory next ∧
      OnAcknowledgement answeredHistory heard ⟨1, by decide⟩ ∧
      ∃ header, heard = some header ∧
        (OnAcknowledgement answeredHistory heard ⟨1, by decide⟩ ↔
          Acknowledges answeredHistory.protocol.service header) := by
  let hash := Classical.arbitrary RandomState
  let raw : RawPacket := ⟨.v4 0 0, (ackingHeartbeat.datagram ieeeCrc32).bytes⟩
  have htrips := Codec.roundTrips_heartbeat ieeeCrc32 ackingHeartbeat (.v4 0 0) .zero rfl
  have hawaiting : answeredServer.service.awaitingConnectionAck.lookup ⟨1, by decide⟩ =
      some answeredPeer := Finmap.lookup_insert _
  obtain ⟨received, hreceived, hacts, -⟩ := serverReceived_actsOn hash htrips.1 rfl
    (.awaiting answeredPeer (Finmap.lookup_empty _) hawaiting)
  obtain ⟨peer, hconnected, -⟩ := hacts.acts.peer
  have hmove : ServerMove ieeeCrc32 answeredHistory (headerRead ieeeCrc32 raw .zero)
      (answeredHistory.after received) := .received hash raw .zero (.ok ()) received hreceived
  have hread : headerRead ieeeCrc32 raw .zero =
      some (headerOf Heartbeat.connectionId (Codec.arrived ackingHeartbeat (.v4 0 0) .zero)) := by
    rw [headerRead, show raw.decode ieeeCrc32 DecodedForServer.tryFrom .zero = _ from htrips.2.1]
    rfl
  have hpromotes : Promotes ⟨1, by decide⟩ answeredHistory (answeredHistory.after received) :=
    ⟨Finmap.mem_of_lookup_eq_some hawaiting, Finmap.mem_of_lookup_eq_some hconnected⟩
  have hacknowledged : AcknowledgedMove ieeeCrc32 answeredHistory
      (headerRead ieeeCrc32 raw .zero) (answeredHistory.after received) := by
    refine ⟨hmove, fun header hheard _ => ?_⟩
    cases hread.symm.trans hheard
    refine ⟨by decide, fun other hother => ?_⟩
    cases hawaiting.symm.trans hother
    decide
  obtain ⟨header, hheard, -, hiff⟩ := (connects_on_acknowledgement_iff ieeeCrc32).2 _ _ _ _
    (acknowledged_reachable answeredHistory_reachable) hmove hpromotes
  exact ⟨_, _, hacknowledged, hpromotes, (connects_on_acknowledgement_iff ieeeCrc32).1 _ _ _ _
    answeredHistory_reachable hacknowledged hpromotes, header, hheard, hiff⟩

end Promotions

end Antarc.Properties
