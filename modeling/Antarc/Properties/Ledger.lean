import Antarc.Library.Numbering
import Antarc.Properties.Accounting
import Antarc.Properties.Traffic

/-! The books of a driver. The trackers of its peers and the transmissions on its socket
are a numbered sending, for client and server alike: a peer's sequence tracker is the
next number of its address. What the numbering needs of the service (queue entries
that name connected peers, stored packets that were sent) is kept alongside. -/
namespace Antarc.Properties

open Library

structure Trackers where
  sequence : Sequence
  remoteAck : Ack
  localAck : Ack

def trackersOf (peer : Peer Connection) : Trackers :=
  ⟨peer.sequenceTracker, peer.remoteAckTracker, peer.localAckTracker⟩

/-- The peers of a service that are not connected yet, by address. Connecting the peer
that a packet is sent to does nothing where no such peer is waiting. -/
class PeerTable (S : Type) {A B E : outParam Type} [Service S A B E] where
  handshaking : S → SocketAddr → Trackers → Prop
  handshaking_setCore : ∀ (service : S) (core : ServiceCore A B E),
    handshaking (Service.setCore service core) = handshaking service
  promote_of_unknown : ∀ (service : S) (address : SocketAddr) (id : ConnectionId)
    (time : Duration), (∀ trackers, ¬handshaking service address trackers) →
      Service.promoteAwaiting service address id time = service

/-- What is promised of the peers at an address, of the acks sent there, and of the ids
under which the address is connected. -/
structure Policy where
  peer : SocketAddr → Trackers → Prop
  ack : SocketAddr → Ack → Prop
  id : SocketAddr → ConnectionId → Prop
  stamp : ∀ address trackers, peer address trackers → ack address trackers.remoteAck
  advance : ∀ address trackers (sequence : Sequence), peer address trackers →
    sequence.get.toNat = trackers.sequence.get.toNat + 1 →
    peer address { trackers with sequence := sequence }

def Policy.none : Policy :=
  ⟨fun _ _ => True, fun _ _ => True, fun _ _ => True, fun _ _ _ => trivial,
    fun _ _ _ _ _ => trivial⟩

def sendingOf (transmission : Transmission) : Sending SocketAddr PacketId :=
  let line := lineOf transmission.packet
  ⟨line.address, line.sequence.get.toNat, line.packetId, transmission.first⟩

section Books

variable {S A B E : Type} [Service S A B E]

def ConnectedAt (service : S) (id : ConnectionId) (address : SocketAddr) : Prop :=
  ∃ peer, (Service.core service).connected.lookup id = some peer ∧ peer.address = address

def EntryOk (service : S) (entry : QueueEntry) : Prop :=
  entry.body.WellFormed ∧ ∃ id, entry.body.connection = some id ∧
    ConnectedAt service id entry.address

/-- To each address, the parts of a packet stand together and the last one ends it. -/
def GroupedTo (address : SocketAddr) (group : Option PacketId) (queue : List QueueEntry) : Prop :=
  Grouped QueueEntry.packetId (fun entry => entry.body.ends) group
    (queue.filter fun entry => entry.address = address)

structure QueueOk (service : S) (queue : List QueueEntry) : Prop where
  entries : ∀ entry ∈ queue, EntryOk service entry
  grouped : ∀ address, GroupedTo address none queue

/-- A transmission is the datagram of its packet, and keeps what is promised. -/
structure SentOk (crc32 : Crc32) (policy : Policy) (service : S) (transmission : Transmission) :
    Prop where
  raw : transmission.raw = datagramOf crc32 transmission.packet
  wellFormed : (lineOf transmission.packet).body.WellFormed
  ack : policy.ack (lineOf transmission.packet).address (lineOf transmission.packet).ack
  connection : ∀ id, (lineOf transmission.packet).body.connection = some id →
    ConnectedAt service id (lineOf transmission.packet).address

theorem connectedAt_iff (service : S) (id : ConnectionId) (address : SocketAddr) :
    ConnectedAt service id address ↔
      ((Service.core service).connected.lookup id).map Peer.address = some address :=
  Option.map_eq_some_iff.symm

def rowOf (peer : Peer Connected) : SocketAddr × Trackers :=
  (peer.address, trackersOf peer)

section Frames

variable {service next : S} {crc32 : Crc32} {policy : Policy}

theorem connectedAt_congr {view : Peer Connected → SocketAddr × α}
    (haddress : ∀ peer, (view peer).1 = peer.address)
    (hviews : ∀ id, ((Service.core next).connected.lookup id).map view =
      ((Service.core service).connected.lookup id).map view)
    (id : ConnectionId) (address : SocketAddr) :
    ConnectedAt next id address ↔ ConnectedAt service id address := by
  have hfst : Prod.fst ∘ view = Peer.address := funext haddress
  have hsame := congrArg (Option.map Prod.fst) (hviews id)
  rw [Option.map_map, Option.map_map, hfst] at hsame
  rw [connectedAt_iff, connectedAt_iff]
  exact Eq.congr_left hsame

theorem connectedAt_insert {fresh : ConnectionId} {peer : Peer Connected}
    (hfree : (Service.core service).connected.lookup fresh = none)
    (hnext : (Service.core next).connected = (Service.core service).connected.insert fresh peer)
    (id : ConnectionId) (address : SocketAddr) :
    ConnectedAt next id address ↔
      id = fresh ∧ peer.address = address ∨ ConnectedAt service id address := by
  rw [connectedAt_iff, connectedAt_iff, hnext, lookup_insert_eq]
  by_cases hid : id = fresh
  · rw [if_pos hid, hid, hfree]
    simp
  · simp [hid]

theorem EntryOk.mono {entry : QueueEntry} (h : EntryOk service entry)
    (hconnected : ∀ id address, ConnectedAt service id address → ConnectedAt next id address) :
    EntryOk next entry := by
  obtain ⟨hwell, id, hid, hat⟩ := h
  exact ⟨hwell, id, hid, hconnected _ _ hat⟩

theorem QueueOk.mono {queue : List QueueEntry} (h : QueueOk service queue)
    (hconnected : ∀ id address, ConnectedAt service id address → ConnectedAt next id address) :
    QueueOk next queue :=
  ⟨fun entry hentry => (h.entries entry hentry).mono hconnected, h.grouped⟩

theorem SentOk.mono {transmission : Transmission} (h : SentOk crc32 policy service transmission)
    (hconnected : ∀ id address, ConnectedAt service id address → ConnectedAt next id address) :
    SentOk crc32 policy next transmission :=
  ⟨h.raw, h.wellFormed, h.ack, fun id hid => hconnected _ _ (h.connection id hid)⟩

end Frames

variable [PeerTable S]

def Holds (service : S) (address : SocketAddr) (trackers : Trackers) : Prop :=
  (∃ id peer, (Service.core service).connected.lookup id = some peer ∧ peer.address = address ∧
    trackersOf peer = trackers) ∨ PeerTable.handshaking service address trackers

structure Distinct (service : S) : Prop where
  connected : ∀ id id' address, ConnectedAt service id address → ConnectedAt service id' address →
    id = id'
  apart : ∀ id address trackers, ConnectedAt service id address →
    ¬PeerTable.handshaking service address trackers

structure Ledger (crc32 : Crc32) (policy : Policy) (numbering : Numbering SocketAddr PacketId)
    (net : AntarcNet S) : Prop where
  run : Numbering.machine.Reachable numbering
  log : numbering.log = net.socket.map sendingOf
  sequences : ∀ address trackers, Holds net.antarc.service address trackers →
    trackers.sequence.get.toNat = numbering.next address
  unknown : ∀ address, (∀ trackers, ¬Holds net.antarc.service address trackers) →
    numbering.next address = 1
  distinct : Distinct net.antarc.service
  trusted : ∀ address trackers, Holds net.antarc.service address trackers →
    policy.peer address trackers
  named : ∀ id address, ConnectedAt net.antarc.service id address → policy.id address id
  queued : ∀ queue ∈ queues net.antarc.core.scheduler, QueueOk net.antarc.service queue
  stored : ∀ line ∈ storedLines net.antarc.core.reliabilityHandler,
    ∃ transmission ∈ net.socket, lineOf transmission.packet = line
  sent : ∀ transmission ∈ net.socket, SentOk crc32 policy net.antarc.service transmission

/-- No address is in the middle of a packet. -/
def Settled (numbering : Numbering SocketAddr PacketId) : Prop :=
  ∀ address, numbering.group address = none

/-- What has been sent is a numbered sending, and its datagrams are those of its packets. -/
structure Recorded (crc32 : Crc32) (socket : List Transmission) : Prop where
  numbered : ∃ numbering : Numbering SocketAddr PacketId, Numbering.machine.Reachable numbering ∧
    numbering.log = socket.map sendingOf
  encoded : ∀ transmission ∈ socket, transmission.raw = datagramOf crc32 transmission.packet

variable {crc32 : Crc32} {policy : Policy} {numbering : Numbering SocketAddr PacketId}
  {net : AntarcNet S}

theorem Ledger.recorded (ledger : Ledger crc32 policy numbering net) :
    Recorded crc32 net.socket :=
  ⟨⟨numbering, ledger.run, ledger.log⟩, fun transmission hmem =>
    (ledger.sent transmission hmem).raw⟩

theorem holds_of_connected {service : S} {id : ConnectionId} {peer : Peer Connected}
    (h : (Service.core service).connected.lookup id = some peer) :
    Holds service peer.address (trackersOf peer) :=
  .inl ⟨id, peer, h, rfl, rfl⟩

theorem Ledger.start (hsocket : net.socket = [])
    (hnone : ∀ address trackers, ¬Holds net.antarc.service address trackers)
    (hqueues : ∀ queue ∈ queues net.antarc.core.scheduler, queue = [])
    (hstored : storedLines net.antarc.core.reliabilityHandler = []) :
    Ledger crc32 policy .start net where
  run := .start rfl
  log := by
    rw [hsocket]
    rfl
  sequences := fun address trackers h => absurd h (hnone address trackers)
  unknown := fun _ _ => rfl
  distinct :=
    { connected := fun id _ _ ⟨peer, hfound, haddress⟩ =>
        absurd (.inl ⟨id, peer, hfound, haddress, rfl⟩) (hnone _ _)
      apart := fun _ address trackers _ h => hnone address trackers (.inr h) }
  trusted := fun address trackers h => absurd h (hnone address trackers)
  named := fun id address ⟨peer, hfound, haddress⟩ =>
    absurd (.inl ⟨id, peer, hfound, haddress, rfl⟩) (hnone _ _)
  queued := by
    intro queue hmem
    rw [hqueues queue hmem]
    exact ⟨fun _ h => by contradiction, fun _ => rfl⟩
  stored := by
    rw [hstored]
    exact fun _ h => by contradiction
  sent := by
    rw [hsocket]
    exact fun _ h => by contradiction

theorem Ledger.weaken (ledger : Ledger crc32 policy numbering net) {weaker : Policy}
    (hpeer : ∀ address trackers, policy.peer address trackers → weaker.peer address trackers)
    (hack : ∀ address ack, policy.ack address ack → weaker.ack address ack)
    (hid : ∀ address id, policy.id address id → weaker.id address id) :
    Ledger crc32 weaker numbering net :=
  { ledger with
    trusted := fun address trackers h => hpeer _ _ (ledger.trusted address trackers h)
    named := fun id address h => hid _ _ (ledger.named id address h)
    sent := fun transmission hmem =>
      { ledger.sent transmission hmem with ack := hack _ _ (ledger.sent transmission hmem).ack } }

theorem Ledger.sent_lt (ledger : Ledger crc32 policy numbering net) (settled : Settled numbering)
    {transmission : Transmission} (hmem : transmission ∈ net.socket) :
    (lineOf transmission.packet).sequence.get.toNat <
      numbering.next (lineOf transmission.packet).address := by
  have hlogged : sendingOf transmission ∈ numbering.log := by
    rw [ledger.log]
    exact List.mem_map_of_mem hmem
  rcases (Numbering.Sound.of_reachable ledger.run).bounded _ hlogged with hlt | ⟨-, hgroup⟩
  · exact hlt
  · rw [settled] at hgroup
    contradiction

theorem Ledger.holds_of_sent (ledger : Ledger crc32 policy numbering net)
    (settled : Settled numbering) {transmission : Transmission}
    (hmem : transmission ∈ net.socket) :
    ∃ trackers, Holds net.antarc.service (lineOf transmission.packet).address trackers := by
  by_contra hnone
  have hlt := ledger.sent_lt settled hmem
  rw [ledger.unknown _ fun trackers hholds => hnone ⟨trackers, hholds⟩] at hlt
  have hzero := Nat.lt_one_iff.mp hlt
  exact (lineOf transmission.packet).sequence.ne_zero (UInt32.toNat_inj.mp hzero)

section Sending

theorem Ledger.emit (ledger : Ledger crc32 policy numbering net) (transmission : Transmission)
    {line : Line} {localAck : Ack} (hline : lineOf transmission.packet = line)
    (hholds : Holds net.antarc.service line.address ⟨line.sequence, line.ack, localAck⟩)
    (hfree : numbering.group line.address = none ∨
      numbering.group line.address = some line.packetId)
    (hfirst : transmission.first = true)
    (hraw : transmission.raw = datagramOf crc32 transmission.packet)
    (hwellFormed : line.body.WellFormed)
    (hconnection : ∀ id, line.body.connection = some id →
      ConnectedAt net.antarc.service id line.address) :
    Ledger crc32 policy (numbering.emit line.address line.packetId)
      { net with socket := net.socket ++ [transmission] } where
  run := ledger.run.next (.emit _ _ hfree)
  log := by
    rw [List.map_append, ← ledger.log]
    simp only [Numbering.emit, List.map_cons, List.map_nil, sendingOf, hline, hfirst,
      ledger.sequences _ _ hholds]
  sequences := ledger.sequences
  unknown := ledger.unknown
  distinct := ledger.distinct
  trusted := ledger.trusted
  named := ledger.named
  queued := ledger.queued
  stored := by
    intro stored hstored
    obtain ⟨old, hmem, hold⟩ := ledger.stored stored hstored
    exact ⟨old, List.mem_append_left _ hmem, hold⟩
  sent := by
    intro other hmem
    rcases List.mem_append.mp hmem with hmem | hmem
    · exact ledger.sent other hmem
    · rw [List.mem_singleton.mp hmem]
      refine ⟨hraw, ?_, ?_, ?_⟩ <;> rw [hline]
      · exact hwellFormed
      · exact policy.stamp _ _ (ledger.trusted _ _ hholds)
      · exact hconnection

theorem Ledger.resend (ledger : Ledger crc32 policy numbering net)
    {transmission old : Transmission} (hold : old ∈ net.socket)
    (hline : lineOf transmission.packet = lineOf old.packet) (hfirst : transmission.first = false)
    (hraw : transmission.raw = datagramOf crc32 transmission.packet) :
    Ledger crc32 policy (numbering.resend (sendingOf old))
      { net with socket := net.socket ++ [transmission] } where
  run := ledger.run.next (.resend _ (by rw [ledger.log]; exact List.mem_map_of_mem hold))
  log := by
    rw [List.map_append, ← ledger.log]
    simp only [Numbering.resend, List.map_cons, List.map_nil, sendingOf, hline, hfirst]
  sequences := ledger.sequences
  unknown := ledger.unknown
  distinct := ledger.distinct
  trusted := ledger.trusted
  named := ledger.named
  queued := ledger.queued
  stored := by
    intro stored hstored
    obtain ⟨old, hmem, hold⟩ := ledger.stored stored hstored
    exact ⟨old, List.mem_append_left _ hmem, hold⟩
  sent := by
    intro other hmem
    rcases List.mem_append.mp hmem with hmem | hmem
    · exact ledger.sent other hmem
    · have hsent := ledger.sent old hold
      rw [List.mem_singleton.mp hmem]
      refine ⟨hraw, ?_, ?_, ?_⟩ <;> rw [hline]
      · exact hsent.wellFormed
      · exact hsent.ack
      · exact hsent.connection

end Sending

section Changes

variable {service next : S}

theorem holds_congr
    (hrows : ∀ id, ((Service.core next).connected.lookup id).map rowOf =
      ((Service.core service).connected.lookup id).map rowOf)
    (hhandshaking : PeerTable.handshaking next = PeerTable.handshaking service)
    (address : SocketAddr) (trackers : Trackers) :
    Holds next address trackers ↔ Holds service address trackers := by
  have hrow : ∀ service : S, (∃ id peer, (Service.core service).connected.lookup id = some peer ∧
      peer.address = address ∧ trackersOf peer = trackers) ↔
      ∃ id, ((Service.core service).connected.lookup id).map rowOf =
        some (address, trackers) := by
    intro service
    simp only [Option.map_eq_some_iff, rowOf, Prod.mk.injEq]
  unfold Holds
  rw [hrow, hrow, hhandshaking]
  simp only [hrows]

theorem Distinct.congr (h : Distinct service)
    (hconnected : ∀ id address, ConnectedAt next id address ↔ ConnectedAt service id address)
    (hhandshaking : PeerTable.handshaking next = PeerTable.handshaking service) :
    Distinct next where
  connected := fun id id' address hat hat' =>
    h.connected id id' address ((hconnected _ _).mp hat) ((hconnected _ _).mp hat')
  apart := fun id address trackers hat hhand =>
    h.apart id address trackers ((hconnected _ _).mp hat) (hhandshaking ▸ hhand)

/-- Peers may hear, come and go from one map to another, and be new, but none is sent to. -/
structure Follows (service next : S) : Prop where
  sequences : ∀ address trackers, Holds next address trackers →
    (∃ before, Holds service address before ∧ trackers.sequence = before.sequence) ∨
      (∀ before, ¬Holds service address before) ∧ trackers.sequence.get.toNat = 1
  kept : ∀ address before, Holds service address before → ∃ trackers, Holds next address trackers
  connected : ∀ id address, ConnectedAt service id address → ConnectedAt next id address
  distinct : Distinct next

theorem Ledger.follow (ledger : Ledger crc32 policy numbering net) {antarc : Protocol S}
    (h : Follows net.antarc.service antarc.service)
    (htrusted : ∀ address trackers, Holds antarc.service address trackers →
      policy.peer address trackers)
    (hnamed : ∀ id address, ConnectedAt antarc.service id address → policy.id address id)
    (hqueued : ∀ queue ∈ queues antarc.core.scheduler, QueueOk net.antarc.service queue)
    (hstored : ∀ line ∈ storedLines antarc.core.reliabilityHandler,
      ∃ transmission ∈ net.socket, lineOf transmission.packet = line) :
    Ledger crc32 policy numbering { net with antarc := antarc } where
  run := ledger.run
  log := ledger.log
  sequences := by
    intro address trackers hholds
    rcases h.sequences address trackers hholds with ⟨before, hbefore, heq⟩ | ⟨hnone, hone⟩
    · rw [heq, ledger.sequences address before hbefore]
    · rw [hone, ledger.unknown address hnone]
  unknown := by
    intro address hnone
    refine ledger.unknown address fun before hbefore => ?_
    obtain ⟨trackers, hholds⟩ := h.kept address before hbefore
    exact hnone trackers hholds
  distinct := h.distinct
  trusted := htrusted
  named := hnamed
  queued := fun queue hmem => (hqueued queue hmem).mono h.connected
  stored := hstored
  sent := fun transmission hmem => (ledger.sent transmission hmem).mono h.connected

/-- The queues and the stored packets may change as long as they stay in order, when no
peer does. -/
theorem Ledger.stay (ledger : Ledger crc32 policy numbering net) {antarc : Protocol S}
    (hrows : ∀ id, (antarc.core.connected.lookup id).map rowOf =
      (net.antarc.core.connected.lookup id).map rowOf)
    (hhandshaking : PeerTable.handshaking antarc.service =
      PeerTable.handshaking net.antarc.service)
    (hqueued : ∀ queue ∈ queues antarc.core.scheduler, QueueOk net.antarc.service queue)
    (hstored : ∀ line ∈ storedLines antarc.core.reliabilityHandler,
      ∃ transmission ∈ net.socket, lineOf transmission.packet = line) :
    Ledger crc32 policy numbering { net with antarc := antarc } := by
  have hconnected := connectedAt_congr (fun _ => rfl) hrows
  have hholds := holds_congr hrows hhandshaking
  have hfollows : Follows net.antarc.service antarc.service :=
    { sequences := fun address trackers h => .inl ⟨trackers, (hholds address trackers).mp h, rfl⟩
      kept := fun address before h => ⟨before, (hholds address before).mpr h⟩
      connected := fun id address => (hconnected id address).mpr
      distinct := ledger.distinct.congr hconnected hhandshaking }
  exact ledger.follow hfollows
    (fun address trackers h => ledger.trusted _ _ ((hholds address trackers).mp h))
    (fun id address h => ledger.named id address ((hconnected id address).mp h)) hqueued hstored

theorem Ledger.of_service (ledger : Ledger crc32 policy numbering net) {antarc : Protocol S}
    (h : antarc.service = net.antarc.service) :
    Ledger crc32 policy numbering { net with antarc := antarc } := by
  have hcore : antarc.core = net.antarc.core := congrArg Service.core h
  refine ledger.stay ?_ (by rw [h]) ?_ ?_
  · intro id
    rw [hcore]
  · rw [hcore]
    exact ledger.queued
  · rw [hcore]
    exact ledger.stored

/-- The peer at an address moves its sequence tracker, and nothing else moves. -/
structure AdvancesAt (address : SocketAddr) (service next : S) : Prop where
  held : ∃ trackers, Holds service address trackers
  moved : ∀ other trackers, Holds next other trackers →
    (other ≠ address ∧ Holds service other trackers) ∨
      (other = address ∧ ∃ before, Holds service other before ∧
        trackers.sequence.get.toNat = before.sequence.get.toNat + 1 ∧
        trackers = { before with sequence := trackers.sequence })
  kept : ∀ other before, Holds service other before → ∃ trackers, Holds next other trackers
  connectedAt : ∀ id other, ConnectedAt next id other ↔ ConnectedAt service id other
  distinct : Distinct next

theorem Ledger.advance (ledger : Ledger crc32 policy numbering net) {antarc : Protocol S}
    {address : SocketAddr} (h : AdvancesAt address net.antarc.service antarc.service)
    (hqueued : ∀ queue ∈ queues antarc.core.scheduler, QueueOk net.antarc.service queue)
    (hstored : ∀ line ∈ storedLines antarc.core.reliabilityHandler,
      ∃ transmission ∈ net.socket, lineOf transmission.packet = line) :
    Ledger crc32 policy (numbering.advance address) { net with antarc := antarc } where
  run := ledger.run.next (.advance address)
  log := ledger.log
  sequences := by
    intro other trackers hholds
    rcases h.moved other trackers hholds with ⟨hother, hold⟩ | ⟨rfl, before, hold, hnext, -⟩
    · simp only [Numbering.advance, Function.update_of_ne hother]
      exact ledger.sequences other trackers hold
    · simp only [Numbering.advance, Function.update_self]
      rw [hnext, ledger.sequences _ before hold]
  unknown := by
    intro other hnone
    by_cases hother : other = address
    · rw [hother] at hnone
      obtain ⟨before, hbefore⟩ := h.held
      obtain ⟨trackers, hholds⟩ := h.kept address before hbefore
      exact absurd hholds (hnone trackers)
    · simp only [Numbering.advance, Function.update_of_ne hother]
      refine ledger.unknown other fun before hbefore => ?_
      obtain ⟨trackers, hholds⟩ := h.kept other before hbefore
      exact hnone trackers hholds
  distinct := h.distinct
  trusted := by
    intro other trackers hholds
    rcases h.moved other trackers hholds with ⟨-, hold⟩ | ⟨-, before, hold, hnext, heq⟩
    · exact ledger.trusted other trackers hold
    · rw [heq]
      exact policy.advance other before trackers.sequence (ledger.trusted other before hold) hnext
  named := fun id other hat => ledger.named id other ((h.connectedAt id other).mp hat)
  queued := fun queue hmem => (hqueued queue hmem).mono fun id other =>
    (h.connectedAt id other).mpr
  stored := hstored
  sent := fun transmission hmem => (ledger.sent transmission hmem).mono fun id other =>
    (h.connectedAt id other).mpr

theorem advancesAt_connected {core : ServiceCore A B E} (hdistinct : Distinct service)
    {id : ConnectionId} {peer advanced : Peer Connected}
    (hfound : (Service.core service).connected.lookup id = some peer)
    (hadvanced : peer.advance = .ok advanced)
    (hcore : core.connected = (Service.core service).connected.insert id advanced) :
    AdvancesAt peer.address service (Service.setCore service core) := by
  obtain ⟨sequence, hsequence, rfl⟩ := advance_eq_ok.mp hadvanced
  have hnext := NonZeroU32.checkedAdd_one hsequence
  have hconnected : ∀ other address, ConnectedAt (Service.setCore service core) other address ↔
      ConnectedAt service other address := by
    intro other address
    rw [connectedAt_iff, connectedAt_iff, Service.core_setCore, hcore,
      map_lookup_insert Peer.address { peer with sequenceTracker := sequence } hfound rfl]
  refine ⟨⟨_, holds_of_connected hfound⟩, ?_, ?_, hconnected,
    hdistinct.congr hconnected (PeerTable.handshaking_setCore _ _)⟩
  · rintro other trackers (⟨id', peer', hlookup, rfl, rfl⟩ | hhandshaking)
    · rw [Service.core_setCore, hcore, lookup_insert_eq] at hlookup
      split at hlookup
      · cases hlookup
        exact .inr ⟨rfl, trackersOf peer, holds_of_connected hfound, hnext, rfl⟩
      · next hid =>
        refine .inl ⟨fun haddress => hid ?_, holds_of_connected hlookup⟩
        exact hdistinct.connected _ _ _ ⟨peer', hlookup, haddress⟩ ⟨peer, hfound, rfl⟩
    · rw [PeerTable.handshaking_setCore] at hhandshaking
      refine .inl ⟨fun haddress => ?_, .inr hhandshaking⟩
      rw [haddress] at hhandshaking
      exact hdistinct.apart id peer.address trackers ⟨peer, hfound, rfl⟩ hhandshaking
  · rintro other before (⟨id', peer', hlookup, rfl, rfl⟩ | hhandshaking)
    · by_cases hid : id' = id
      · rw [hid, hfound] at hlookup
        cases hlookup
        refine ⟨_, .inl ⟨id, { peer with sequenceTracker := sequence }, ?_, rfl, rfl⟩⟩
        rw [Service.core_setCore, hcore, Finmap.lookup_insert]
      · refine ⟨trackersOf peer', .inl ⟨id', peer', ?_, rfl, rfl⟩⟩
        rw [Service.core_setCore, hcore, Finmap.lookup_insert_of_ne _ hid]
        exact hlookup
    · exact ⟨before, .inr (by rwa [PeerTable.handshaking_setCore])⟩

end Changes

end Books

end Antarc.Properties
