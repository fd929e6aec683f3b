import Antarc.Properties.Ledger

/-! The passes that both drivers share keep the books: a turn of a pass sends one packet
and accounts it, a pass leaves no packet half sent, and a retry sends what was sent
before. None of them touches what the service keeps beside its connections. -/
namespace Antarc.Properties

open Library

section Frames

variable {S A B E : Type} [Service S A B E] {service next last : S}

/-- Nothing changed but the trackers of connected peers, the six queues and the packets
kept for a retry. -/
structure Untouched (service next : S) : Prop where
  frame : ∃ core, next = Service.setCore service core
  identities : ∀ id, ((Service.core next).connected.lookup id).map identity =
    ((Service.core service).connected.lookup id).map identity
  queue : (Service.core next).scheduler.service = (Service.core service).scheduler.service
  handler : (Service.core next).reliabilityHandler.service =
    (Service.core service).reliabilityHandler.service

theorem Untouched.refl (service : S) : Untouched service service :=
  ⟨⟨_, (Service.setCore_core service).symm⟩, fun _ => rfl, rfl, rfl⟩

theorem Untouched.trans (h : Untouched service next) (h' : Untouched next last) :
    Untouched service last where
  frame := by
    obtain ⟨core, rfl⟩ := h.frame
    obtain ⟨core', rfl⟩ := h'.frame
    exact ⟨core', Service.setCore_setCore _ _ _⟩
  identities := fun id => (h'.identities id).trans (h.identities id)
  queue := h'.queue.trans h.queue
  handler := h'.handler.trans h.handler

theorem untouched_setCore {core : ServiceCore A B E}
    (hidentities : ∀ id, (core.connected.lookup id).map identity =
      ((Service.core service).connected.lookup id).map identity)
    (hqueue : core.scheduler.service = (Service.core service).scheduler.service)
    (hhandler : core.reliabilityHandler.service =
      (Service.core service).reliabilityHandler.service) :
    Untouched service (Service.setCore service core) := by
  refine ⟨⟨core, rfl⟩, ?_, ?_, ?_⟩ <;> rw [Service.core_setCore]
  · exact hidentities
  · exact hqueue
  · exact hhandler

theorem Untouched.connectedAt (h : Untouched service next) (id : ConnectionId)
    (address : SocketAddr) : ConnectedAt next id address ↔ ConnectedAt service id address :=
  connectedAt_congr (fun _ => rfl) h.identities id address

structure Carries (net after : AntarcNet S) : Prop where
  untouched : Untouched net.antarc.service after.antarc.service
  old : ∀ transmission ∈ net.socket, transmission ∈ after.socket
  new : ∀ transmission ∈ after.socket, transmission ∈ net.socket ∨
    (lineOf transmission.packet).body.connection.isSome = true

theorem Carries.trans {net middle after : AntarcNet S} (h : Carries net middle)
    (h' : Carries middle after) : Carries net after where
  untouched := h.untouched.trans h'.untouched
  old := fun transmission hmem => h'.old transmission (h.old transmission hmem)
  new := by
    intro transmission hmem
    rcases h'.new transmission hmem with hmem | hsome
    · exact h.new transmission hmem
    · exact .inr hsome

theorem Carries.of_untouched {net : AntarcNet S} {antarc : Protocol S}
    (h : Untouched net.antarc.service antarc.service) : Carries net { net with antarc := antarc } :=
  ⟨h, fun _ hmem => hmem, fun _ hmem => .inl hmem⟩

end Frames

section Views

variable {S R M : Type} [Sendable M] {crc32 : Crc32} {net next : AntarcNet S}

theorem attempt_eq_ok {call : Exec α} {value : α} :
    net.attempt call = .ok value ↔ call = .ok value := by
  cases call with
  | error panic => simp [AntarcNet.attempt]
  | ok value' => simp [AntarcNet.attempt]

theorem transmit_eq_ok {packet : Packet ToSend M} {first : Bool} :
    net.transmit crc32 packet first = .ok next ↔ packet.checksum crc32 ≠ 0 ∧
      next = { net with socket :=
        net.socket ++ [⟨packet.datagram crc32, Sendable.outgoing packet, first⟩] } := by
  refine bind_eq_ok.trans ?_
  simp only [attempt_eq_ok, Packet.asRaw_eq_ok, and_assoc]
  constructor
  · rintro ⟨_, hchecksum, rfl, h⟩
    exact ⟨hchecksum, (Except.ok.inj h).symm⟩
  · rintro ⟨hchecksum, rfl⟩
    exact ⟨_, hchecksum, rfl, rfl⟩

theorem transmit_antarc {packet : Packet ToSend M} {first : Bool}
    (h : net.transmit crc32 packet first = .ok next) : next.antarc = net.antarc := by
  obtain ⟨-, rfl⟩ := transmit_eq_ok.mp h
  rfl

theorem turn_eq_ok {create : Protocol S → Scheduled R M → Duration → Exec (Packet ToSend M)}
    {account : Protocol S → Packet ToSend M → Duration → Exec (Protocol S)}
    {scheduled : Scheduled R M} {created accounted : Duration} :
    net.sendScheduled crc32 create account scheduled created accounted = .ok next ↔
      ∃ packet antarc, create net.antarc scheduled created = .ok packet ∧
        packet.checksum crc32 ≠ 0 ∧ account net.antarc packet accounted = .ok antarc ∧
        next = { net with
          antarc := antarc
          socket := net.socket ++ [⟨packet.datagram crc32, Sendable.outgoing packet, true⟩] } := by
  unfold AntarcNet.sendScheduled
  simp only [bind_eq_ok, attempt_eq_ok, transmit_eq_ok]
  constructor
  · rintro ⟨packet, hcreate, _, ⟨hchecksum, rfl⟩, antarc, haccount, h⟩
    exact ⟨packet, antarc, hcreate, hchecksum, haccount, (Except.ok.inj h).symm⟩
  · rintro ⟨packet, antarc, hcreate, hchecksum, haccount, rfl⟩
    exact ⟨packet, hcreate, _, ⟨hchecksum, rfl⟩, antarc, haccount, rfl⟩

section Kept

variable {create : Protocol S → Scheduled R M → Duration → Exec (Packet ToSend M)}
  {account : Protocol S → Packet ToSend M → Duration → Exec (Protocol S)}
  {clock : Nat → Duration} (inv : Protocol S → Prop)
  (haccount : ∀ protocol packet now next, inv protocol →
    account protocol packet now = .ok next → inv next)

include haccount in
theorem sendEach_keeps {entries : List (Scheduled R M)} (hinv : inv net.antarc)
    (h : AntarcNet.sendEach crc32 create account clock entries net = .ok next) :
    inv next.antarc := by
  induction entries generalizing net clock with
  | nil =>
    cases h
    exact hinv
  | cons scheduled rest ih =>
    obtain ⟨middle, hturn, h⟩ := bind_eq_ok.mp h
    obtain ⟨packet, antarc, -, -, haccounted, rfl⟩ := turn_eq_ok.mp hturn
    exact ih (haccount _ _ _ _ hinv haccounted) h

include haccount in
theorem pollQueue_keeps {drain : Protocol S → Exec (List (Scheduled R M) × Protocol S)}
    (hdrain : ∀ protocol drained next, inv protocol → drain protocol = .ok (drained, next) →
      inv next) (hinv : inv net.antarc)
    (h : AntarcNet.pollQueue crc32 drain create account clock net = .ok next) :
    inv next.antarc := by
  obtain ⟨⟨drained, antarc⟩, hdrained, h⟩ := bind_eq_ok.mp h
  have hantarc : inv ({ net with antarc := antarc } : AntarcNet S).antarc :=
    hdrain _ _ _ hinv (attempt_eq_ok.mp hdrained)
  exact sendEach_keeps inv haccount hantarc h

include haccount in
theorem pollStored_keeps
    {retry : Protocol S → Duration → Exec (Option (Packet ToSend M) × Protocol S)}
    (hretry : ∀ protocol now packet next, inv protocol →
      retry protocol now = .ok (packet, next) → inv next) (hinv : inv net.antarc)
    (h : AntarcNet.pollStored crc32 retry account clock net = .ok next) : inv next.antarc := by
  obtain ⟨⟨packet, antarc⟩, hretried, h⟩ := bind_eq_ok.mp h
  have hantarc := hretry _ _ _ _ hinv (attempt_eq_ok.mp hretried)
  cases packet with
  | none =>
    cases h
    exact hantarc
  | some packet =>
    obtain ⟨sent, hsent, h⟩ := bind_eq_ok.mp h
    obtain ⟨after, haccounted, h⟩ := bind_eq_ok.mp h
    cases h
    rw [transmit_antarc hsent] at haccounted
    exact haccount _ _ _ _ hantarc (attempt_eq_ok.mp haccounted)

end Kept

variable {create : Protocol S → Scheduled R M → Duration → Exec (Packet ToSend M)}
  {account : Protocol S → Packet ToSend M → Duration → Exec (Protocol S)}
  {clock : Nat → Duration} (view : Protocol S → α)
  (haccount : ∀ protocol packet now next, account protocol packet now = .ok next →
    view next = view protocol)

include haccount in
theorem pollQueue_view {drain : Protocol S → Exec (List (Scheduled R M) × Protocol S)}
    (hdrain : ∀ protocol drained next, drain protocol = .ok (drained, next) →
      view next = view protocol)
    (h : AntarcNet.pollQueue crc32 drain create account clock net = .ok next) :
    view next.antarc = view net.antarc :=
  pollQueue_keeps (fun protocol => view protocol = view net.antarc)
    (fun _ _ _ _ hinv hstep => (haccount _ _ _ _ hstep).trans hinv)
    (fun _ _ _ hinv hstep => (hdrain _ _ _ hstep).trans hinv) rfl h

include haccount in
theorem pollStored_view
    {retry : Protocol S → Duration → Exec (Option (Packet ToSend M) × Protocol S)}
    (hretry : ∀ protocol now packet next, retry protocol now = .ok (packet, next) →
      view next = view protocol)
    (h : AntarcNet.pollStored crc32 retry account clock net = .ok next) :
    view next.antarc = view net.antarc :=
  pollStored_keeps (fun protocol => view protocol = view net.antarc)
    (fun _ _ _ _ hinv hstep => (haccount _ _ _ _ hstep).trans hinv)
    (fun _ _ _ _ hinv hstep => (hretry _ _ _ _ hstep).trans hinv) rfl h

theorem pollScheduled_eq {A B E : Type} [Service S A B E] [Queued R M] [Reliability R] [Carried M]
    (create : Protocol S → Scheduled R M → Duration → Exec (Packet ToSend M))
    (clock : Nat → Duration) (net : AntarcNet S) :
    AntarcNet.pollScheduled crc32 create clock net =
      AntarcNet.sendEach crc32 create
        (fun protocol packet now => protocol.sent packet (Reliability.kind R) now) clock
        (Queued.queue net.antarc.core.scheduler)
        { net with antarc := net.antarc.setCore { net.antarc.core with
          scheduler := Queued.setQueue net.antarc.core.scheduler ([] : List (Scheduled R M)) } } := by
  unfold AntarcNet.pollScheduled AntarcNet.pollQueue AntarcNet.drainAll Protocol.drain
  simp only [drainRange_all, ok_bind]
  rfl

end Views

section Books

variable {S A B E : Type} [Service S A B E] [PeerTable S] {crc32 : Crc32} {policy : Policy}
  {numbering : Numbering SocketAddr PacketId} {net : AntarcNet S}

/-- What the socket has been handed is a numbered sending, when a pass stops too. -/
def Stands (crc32 : Crc32) (stopped : Stopped) : Prop :=
  Recorded crc32 stopped.socket

theorem Ledger.attempt (ledger : Ledger crc32 policy numbering net) {call : Exec α}
    {returned : α → Prop} (hreturned : ∀ value, call = .ok value → returned value) :
    Ensures returned (Stands crc32) (net.attempt call) := by
  cases call with
  | error panic => exact ledger.recorded
  | ok value => exact hreturned value rfl

def handed {M : Type} [Sendable M] (crc32 : Crc32) (net : AntarcNet S) (packet : Packet ToSend M)
    (first : Bool) : AntarcNet S :=
  { net with socket := net.socket ++ [⟨packet.datagram crc32, Sendable.outgoing packet, first⟩] }

theorem Ledger.transmit {M : Type} [Sendable M] (ledger : Ledger crc32 policy numbering net)
    (packet : Packet ToSend M) (first : Bool) :
    Ensures (fun after => after = handed crc32 net packet first)
      (Stands crc32) (net.transmit crc32 packet first) := by
  unfold AntarcNet.transmit
  apply (ledger.attempt fun raw hraw => (Packet.asRaw_eq_ok.mp hraw).2).bind
  rintro _ rfl
  rfl

section Rules

variable {R M : Type} [Sendable M] {stopped : Stopped → Prop}
  {create : Protocol S → Scheduled R M → Duration → Exec (Packet ToSend M)}
  {account : Protocol S → Packet ToSend M → Duration → Exec (Protocol S)}

variable [Bodied M]

/-- A packet is made of a queue entry and of the trackers of the peer it is for. -/
structure Stamped (service : S) (scheduled : Scheduled R M) (packet : Packet ToSend M) : Prop where
  address : packet.delivery.metadata.address = scheduled.address
  id : packet.delivery.id = scheduled.packetId
  message : packet.message = scheduled.message
  holds : ∃ localAck, Holds service scheduled.address ⟨packet.sequence, packet.ack, localAck⟩

theorem Stamped.line {service : S} {scheduled : Scheduled R M}
    {packet : Packet ToSend M} (stamped : Stamped service scheduled packet) :
    lineOf (Sendable.outgoing packet) = ⟨scheduled.address, scheduled.packetId, packet.sequence,
      packet.ack, Bodied.body scheduled.message⟩ := by
  rw [Bodied.line_outgoing, lineToSend, stamped.address, stamped.id, stamped.message]

/-- The rule of one turn: a stamped packet goes into the books before it is accounted. -/
theorem Ledger.send {scheduled : Scheduled R M} {createdAt accountedAt : Duration}
    (ledger : Ledger crc32 policy numbering net)
    (hstamped : ∀ packet, create net.antarc scheduled createdAt = .ok packet →
      Stamped net.antarc.service scheduled packet)
    (hwellFormed : (Bodied.body scheduled.message).WellFormed)
    (hconnection : ∀ id, (Bodied.body scheduled.message).connection = some id →
      ConnectedAt net.antarc.service id scheduled.address)
    (hfree : numbering.group scheduled.address = none ∨
      numbering.group scheduled.address = some scheduled.packetId)
    {post : AntarcNet S → Prop}
    (haccount : ∀ packet antarc, create net.antarc scheduled createdAt = .ok packet →
      Stamped net.antarc.service scheduled packet →
      Ledger crc32 policy (numbering.emit scheduled.address scheduled.packetId)
        (handed crc32 net packet true) →
      account net.antarc packet accountedAt = .ok antarc →
      post { handed crc32 net packet true with antarc := antarc }) :
    Ensures post (Stands crc32)
      (net.sendScheduled crc32 create account scheduled createdAt accountedAt) := by
  unfold AntarcNet.sendScheduled
  apply (ledger.attempt fun packet hpacket => And.intro hpacket (hstamped packet hpacket)).bind
  rintro packet ⟨hpacket, stamped⟩
  have hemitted : Ledger crc32 policy (numbering.emit scheduled.address scheduled.packetId)
      (handed crc32 net packet true) := by
    obtain ⟨localAck, hholds⟩ := stamped.holds
    exact ledger.emit ⟨_, _, true⟩ stamped.line hholds hfree rfl
      (Bodied.datagram_outgoing crc32 packet).symm hwellFormed hconnection
  apply (ledger.transmit packet true).bind
  rintro _ rfl
  apply (hemitted.attempt fun antarc => haccount packet antarc hpacket stamped hemitted).bind
  exact fun _ hpost => hpost

/-- The rule of a retry pass: what is sent again was sent before. -/
theorem Ledger.sendStored (ledger : Ledger crc32 policy numbering net)
    {retry : Protocol S → Duration → Exec (Option (Packet ToSend M) × Protocol S)}
    {clock : Nat → Duration} {post : AntarcNet S → Prop}
    (hretry : ∀ result, retry net.antarc (clock 0) = .ok result →
      Ledger crc32 policy numbering { net with antarc := result.2 } ∧
      (result.1 = none → post { net with antarc := result.2 }) ∧
      ∀ packet, result.1 = some packet →
        (∃ old ∈ net.socket, lineOf old.packet = lineToSend Bodied.body packet) ∧
        ∀ old ∈ net.socket, lineOf old.packet = lineToSend Bodied.body packet →
          Ledger crc32 policy (numbering.resend (sendingOf old))
            (handed crc32 { net with antarc := result.2 } packet false) →
          ∀ antarc, account result.2 packet (clock 1) = .ok antarc →
            post { handed crc32 net packet false with antarc := antarc }) :
    Ensures post (Stands crc32) (AntarcNet.pollStored crc32 retry account clock net) := by
  unfold AntarcNet.pollStored
  apply (ledger.attempt hretry).bind
  rintro ⟨_ | packet, antarc⟩ ⟨hledger, hnone, hsome⟩
  · exact hnone rfl
  obtain ⟨⟨old, hmem, hline⟩, haccount⟩ := hsome packet rfl
  have hresent : Ledger crc32 policy (numbering.resend (sendingOf old))
      (handed crc32 { net with antarc := antarc } packet false) :=
    hledger.resend hmem ((Bodied.line_outgoing packet).trans hline.symm) rfl
      (Bodied.datagram_outgoing crc32 packet).symm
  apply (hledger.transmit packet false).bind
  rintro _ rfl
  apply (hresent.attempt (haccount old hmem hline hresent)).bind
  exact fun _ hpost => hpost

end Rules

section Accounts

variable {M : Type} [Carried M] [Sendable M] [Bodied M] [Travels M]

def accounted (numbering : Numbering SocketAddr PacketId) (line : Line) :
    Numbering SocketAddr PacketId :=
  if line.body.ends then numbering.advance line.address else numbering

/-- A packet that went out is accounted: its peer is connected, so no other is moved. -/
theorem Ledger.account (ledger : Ledger crc32 policy numbering net) {packet : Packet ToSend M}
    {reliability : ReliabilityType} {now : Duration} {antarc : Protocol S}
    (hsent : ∃ transmission ∈ net.socket,
      lineOf transmission.packet = lineToSend Bodied.body packet)
    (h : net.antarc.sent packet reliability now = .ok antarc) :
    Ledger crc32 policy (accounted numbering (lineToSend Bodied.body packet))
        { net with antarc := antarc } ∧
      Untouched net.antarc.service antarc.service := by
  obtain ⟨completes, core, hcompletes, hcore, rfl⟩ := sent_frame h
  obtain ⟨transmission, hmem, hline⟩ := hsent
  have hat : ConnectedAt net.antarc.service (Carried.connectionId packet.message)
      packet.delivery.metadata.address := by
    have hconnection := (ledger.sent transmission hmem).connection
    rw [hline] at hconnection
    exact hconnection _ (Travels.connection_body packet.message)
  have hpromote : Service.promoteAwaiting net.antarc.service packet.delivery.metadata.address
      (Carried.connectionId packet.message) now = net.antarc.service :=
    PeerTable.promote_of_unknown _ _ _ _ fun trackers => ledger.distinct.apart _ _ trackers hat
  simp only [hpromote] at hcore ⊢
  have hstored : ∀ handler : ReliabilityHandler B,
      handler = net.antarc.core.reliabilityHandler →
      ∀ line ∈ storedLines (handler.keep reliability (packet.sent now net.antarc.reliableTtl)),
        ∃ transmission ∈ net.socket, lineOf transmission.packet = line := by
    rintro _ rfl line hkept
    rcases stored_keep _ reliability _ line hkept with rfl | hold
    · exact ⟨transmission, hmem, hline⟩
    · exact ledger.stored line hold
  have hends := Travels.ends_body packet.message completes hcompletes
  cases completes with
  | false =>
    cases hcore
    refine ⟨?_, untouched_setCore (fun _ => rfl) rfl (service_keep _ _ _)⟩
    rw [accounted, if_neg (by simp [lineToSend, hends])]
    refine ledger.stay ?_ (PeerTable.handshaking_setCore _ _) ?_ ?_
    all_goals simp only [Protocol.core, Service.core_setCore]
    · intro _
      trivial
    · exact ledger.queued
    · exact hstored _ rfl
  | true =>
    rcases advanceConnected_cases hcore with ⟨hnone, -⟩ | ⟨peer, advanced, hfound, hadvanced, rfl⟩
    · obtain ⟨peer, hfound, -⟩ := hat
      rw [hnone] at hfound
      contradiction
    · obtain ⟨found, hlookup, haddress⟩ := hat
      cases hfound.symm.trans hlookup
      refine ⟨?_, untouched_setCore ?_ rfl (service_keep _ _ _)⟩
      · have hadvance : accounted numbering (lineToSend Bodied.body packet) =
            numbering.advance peer.address := by
          rw [haddress]
          exact if_pos hends
        rw [hadvance]
        refine ledger.advance (advancesAt_connected ledger.distinct hfound hadvanced rfl) ?_ ?_
        all_goals simp only [Protocol.core, Service.core_setCore]
        · exact ledger.queued
        · exact hstored _ rfl
      · obtain ⟨sequence, -, rfl⟩ := advance_eq_ok.mp hadvanced
        exact map_lookup_insert identity { peer with sequenceTracker := sequence } hfound rfl

/-- The books after a pass: in order, and with no packet half sent. -/
structure Kept (crc32 : Crc32) (policy : Policy) (numbering : Numbering SocketAddr PacketId)
    (net : AntarcNet S) (later : Numbering SocketAddr PacketId) (after : AntarcNet S) : Prop where
  ledger : Ledger crc32 policy later after
  settled : Settled later
  steps : Numbering.machine.Steps numbering later
  carries : Carries net after

theorem steps_accounted (numbering : Numbering SocketAddr PacketId) (line : Line) :
    Numbering.machine.Steps numbering (accounted numbering line) := by
  unfold accounted
  split
  · exact .single (.advance _)
  · exact .refl

omit [PeerTable S] in
theorem carries_handed {packet : Packet ToSend M} {first : Bool} {antarc : Protocol S}
    (h : Untouched net.antarc.service antarc.service) :
    Carries net { handed crc32 net packet first with antarc := antarc } where
  untouched := h
  old := fun _ hmem => List.mem_append_left _ hmem
  new := by
    intro transmission hmem
    rcases List.mem_append.mp hmem with hmem | hmem
    · exact .inl hmem
    · right
      rw [List.mem_singleton.mp hmem, Bodied.line_outgoing]
      exact Option.isSome_of_eq_some (Travels.connection_body packet.message)

theorem GroupedTo.head {entry : QueueEntry} {rest : List QueueEntry} {group : Option PacketId}
    (h : GroupedTo entry.address group (entry :: rest)) :
    (group = none ∨ group = some entry.packetId) ∧
      GroupedTo entry.address (if entry.body.ends then none else some entry.packetId) rest := by
  unfold GroupedTo at h
  rwa [List.filter_cons_of_pos (by simp)] at h

theorem GroupedTo.tail {entry : QueueEntry} {rest : List QueueEntry} {group : Option PacketId}
    {address : SocketAddr} (h : GroupedTo address group (entry :: rest))
    (hother : address ≠ entry.address) : GroupedTo address group rest := by
  unfold GroupedTo at h
  rwa [List.filter_cons_of_neg (by simpa using hother.symm)] at h

theorem grouped_accounted {line : Line} {entry : QueueEntry} {rest : List QueueEntry}
    (haddress : line.address = entry.address) (hbody : line.body = entry.body)
    (hgrouped : ∀ address, GroupedTo address (numbering.group address) (entry :: rest))
    (address : SocketAddr) :
    GroupedTo address
      ((accounted (numbering.emit entry.address entry.packetId) line).group address) rest := by
  unfold accounted
  rw [haddress, hbody]
  by_cases hsame : address = entry.address
  · have hrest := (hgrouped entry.address).head.2
    rw [hsame]
    split at hrest <;> simp [Numbering.advance, Numbering.emit, *]
  · have hrest := (hgrouped address).tail hsame
    split <;> simpa [Numbering.advance, Numbering.emit, hsame] using hrest

def sentOnce (numbering : Numbering SocketAddr PacketId) (line : Line) :
    Numbering SocketAddr PacketId :=
  accounted (numbering.emit line.address line.packetId) line

def sentEntry (transmission : Transmission) : QueueEntry :=
  let line := lineOf transmission.packet
  ⟨line.packetId, line.address, line.body⟩

/-- The entries of a queue go out one after the other, each in a packet of its own. -/
inductive SendsFirst : Numbering SocketAddr PacketId → List Transmission → List QueueEntry →
    Numbering SocketAddr PacketId → List Transmission → Prop where
  | nothing (numbering : Numbering SocketAddr PacketId) (socket : List Transmission) :
      SendsFirst numbering socket [] numbering socket
  | more {numbering later : Numbering SocketAddr PacketId} {socket after : List Transmission}
      {entries : List QueueEntry} (transmission : Transmission) (first : transmission.first = true)
      (free : numbering.group (sentEntry transmission).address = none ∨
        numbering.group (sentEntry transmission).address = some (sentEntry transmission).packetId)
      (rest : SendsFirst (sentOnce numbering (lineOf transmission.packet))
        (socket ++ [transmission]) entries later after) :
      SendsFirst numbering socket (sentEntry transmission :: entries) later after

/-- What one turn of a pass does: the entry goes out, and the invariant speaks of the rest. -/
def SendsOne {R : Type} (inv : List (Scheduled R M) → Numbering SocketAddr PacketId →
    AntarcNet S → Prop) (scheduled : Scheduled R M) (rest : List (Scheduled R M))
    (numbering : Numbering SocketAddr PacketId) (net after : AntarcNet S) : Prop :=
  ∃ transmission, transmission.first = true ∧ sentEntry transmission = entryOf scheduled ∧
    (numbering.group scheduled.address = none ∨
      numbering.group scheduled.address = some scheduled.packetId) ∧
    after.socket = net.socket ++ [transmission] ∧
    inv rest (sentOnce numbering (lineOf transmission.packet)) after

omit [Carried M] [Travels M] in
theorem Stamped.sendsOne {R : Type} {inv : List (Scheduled R M) →
    Numbering SocketAddr PacketId → AntarcNet S → Prop} {scheduled : Scheduled R M}
    {rest : List (Scheduled R M)} {packet : Packet ToSend M} {antarc : Protocol S}
    (stamped : Stamped net.antarc.service scheduled packet)
    (hends : (Bodied.body scheduled.message).ends = true)
    (hfree : numbering.group scheduled.address = none ∨
      numbering.group scheduled.address = some scheduled.packetId)
    (hinv : inv rest ((numbering.emit scheduled.address scheduled.packetId).advance
      scheduled.address) { handed crc32 net packet true with antarc := antarc }) :
    SendsOne inv scheduled rest numbering net
      { handed crc32 net packet true with antarc := antarc } := by
  refine ⟨⟨packet.datagram crc32, Sendable.outgoing packet, true⟩, rfl, ?_, hfree, rfl, ?_⟩
  · rw [sentEntry, stamped.line]
    rfl
  · have hsent : sentOnce numbering (lineOf (Sendable.outgoing packet)) =
        (numbering.emit scheduled.address scheduled.packetId).advance scheduled.address := by
      rw [stamped.line]
      exact if_pos hends
    rw [hsent]
    exact hinv

omit [Carried M] [Travels M] [PeerTable S] in
theorem ensures_sendsFirst {R : Type} {stopped : Stopped → Prop}
    {create : Protocol S → Scheduled R M → Duration → Exec (Packet ToSend M)}
    {account : Protocol S → Packet ToSend M → Duration → Exec (Protocol S)}
    (inv : List (Scheduled R M) → Numbering SocketAddr PacketId → AntarcNet S → Prop)
    (hturn : ∀ scheduled rest numbering net createdAt accountedAt,
      inv (scheduled :: rest) numbering net →
      Ensures (SendsOne inv scheduled rest numbering net) stopped
        (net.sendScheduled crc32 create account scheduled createdAt accountedAt)) :
    ∀ {entries : List (Scheduled R M)} (clock : Nat → Duration)
      {numbering : Numbering SocketAddr PacketId} {net : AntarcNet S}, inv entries numbering net →
      Ensures (fun after => ∃ later, inv [] later after ∧
          SendsFirst numbering net.socket (entries.map entryOf) later after.socket) stopped
        (AntarcNet.sendEach crc32 create account clock entries net)
  | [], _, numbering, net, hinv => ⟨numbering, hinv, .nothing numbering net.socket⟩
  | scheduled :: rest, clock, numbering, net, hinv => by
    refine (hturn scheduled rest numbering net (clock 0) (clock 1) hinv).bind ?_
    rintro after ⟨transmission, hfirst, hentry, hfree, hsocket, hafter⟩
    refine (ensures_sendsFirst inv hturn _ hafter).mono ?_
    rintro last ⟨later, hlast, hrest⟩
    refine ⟨later, hlast, ?_⟩
    rw [hsocket] at hrest
    rw [List.map_cons, ← hentry]
    refine .more transmission hfirst ?_ hrest
    rw [hentry]
    exact hfree

/-- A retry pass sends nothing new: at most it repeats a transmission, and where that is
accounted the next number of an address may move on. -/
inductive SendsAgain (start : Numbering SocketAddr PacketId) (before : List Transmission) :
    Option SocketAddr → Numbering SocketAddr PacketId → List Transmission → Prop where
  | nothing : SendsAgain start before none start before
  | resent (transmission : Transmission) (sending : Sending SocketAddr PacketId)
      (again : transmission.first = false) :
      SendsAgain start before none (start.resend sending) (before ++ [transmission])
  | moved (transmission : Transmission) (sending : Sending SocketAddr PacketId)
      (again : transmission.first = false) (address : SocketAddr)
      (sent : ∃ old ∈ before, (lineOf old.packet).address = address) :
      SendsAgain start before (some address) ((start.resend sending).advance address)
        (before ++ [transmission])

def movedBy (packet : Option (Packet ToSend M)) : Option SocketAddr :=
  packet.bind fun packet =>
    if (Bodied.body packet.message).ends then some packet.delivery.metadata.address else none

/-- Within a pass: the books are in order, and the rest of the queue can still be sent. -/
structure Passing {R : Type} (crc32 : Crc32) (policy : Policy)
    (start numbering : Numbering SocketAddr PacketId) (before : AntarcNet S)
    (rest : List (Scheduled R M)) (net : AntarcNet S) : Prop where
  ledger : Ledger crc32 policy numbering net
  steps : Numbering.machine.Steps start numbering
  carries : Carries before net
  entries : ∀ scheduled ∈ rest, EntryOk net.antarc.service (entryOf scheduled)
  grouped : ∀ address, GroupedTo address (numbering.group address) (rest.map entryOf)

theorem Passing.turn {R : Type} {start : Numbering SocketAddr PacketId} {before : AntarcNet S}
    {scheduled : Scheduled R M} {rest : List (Scheduled R M)}
    {create : Protocol S → Scheduled R M → Duration → Exec (Packet ToSend M)} {message : String}
    (hcreate : ∀ protocol scheduled now,
      create protocol scheduled now = protocol.core.createCarried message scheduled now)
    (reliability : ReliabilityType) (createdAt accountedAt : Duration)
    (passing : Passing crc32 policy start numbering before (scheduled :: rest) net) :
    Ensures (SendsOne (fun rest later after => Passing crc32 policy start later before rest after)
        scheduled rest numbering net) (Stands crc32)
      (net.sendScheduled crc32 create (fun protocol packet now =>
        protocol.sent packet reliability now) scheduled createdAt accountedAt) := by
  obtain ⟨hwellFormed, id, hid, hat⟩ := passing.entries scheduled List.mem_cons_self
  have hconnection := (Travels.connection_body scheduled.message).symm.trans hid
  refine passing.ledger.send ?_ hwellFormed ?_ (passing.grouped scheduled.address).head.1 ?_
  · intro packet hpacket
    rw [hcreate] at hpacket
    obtain ⟨peer, hfound, hpacket⟩ := bind_eq_ok.mp hpacket
    cases hpacket
    refine ⟨rfl, rfl, rfl, peer.localAckTracker, ?_⟩
    obtain ⟨peer', hfound', haddress⟩ := hat
    rw [← Option.some.inj hconnection] at hfound'
    cases hfound'.symm.trans (expect_eq_ok.mp hfound)
    rw [show scheduled.address = peer.address from haddress.symm]
    exact holds_of_connected hfound'
  · intro id' hid'
    cases hid.symm.trans hid'
    exact hat
  · intro packet antarc _ stamped hemitted hsent
    have hnew : ∃ transmission ∈ (handed crc32 net packet true).socket,
        lineOf transmission.packet = lineToSend Bodied.body packet :=
      ⟨_, List.mem_append_right _ (List.mem_singleton_self _), Bodied.line_outgoing packet⟩
    obtain ⟨haccounted, huntouched⟩ := hemitted.account hnew hsent
    have hentry : sentEntry ⟨packet.datagram crc32, Sendable.outgoing packet, true⟩ =
        entryOf scheduled := by
      rw [sentEntry, stamped.line]
      rfl
    have honce : sentOnce numbering (lineOf (Sendable.outgoing packet)) =
        accounted (numbering.emit scheduled.address scheduled.packetId)
          (lineToSend Bodied.body packet) := by
      rw [sentOnce, Bodied.line_outgoing, ← stamped.address, ← stamped.id]
      rfl
    refine ⟨⟨packet.datagram crc32, Sendable.outgoing packet, true⟩, rfl, hentry,
      (passing.grouped scheduled.address).head.1, rfl, ?_⟩
    rw [honce]
    refine ⟨haccounted, ?_, passing.carries.trans (carries_handed huntouched), ?_, ?_⟩
    · exact (passing.steps.tail (.emit _ _ (passing.grouped scheduled.address).head.1)).trans
        (steps_accounted _ _)
    · intro other hmem
      exact (passing.entries other (List.mem_cons_of_mem _ hmem)).mono fun id address =>
        (huntouched.connectedAt id address).mpr
    · exact grouped_accounted (stamped.address) (congrArg Bodied.body stamped.message)
        passing.grouped

theorem Ledger.sendsFirst {R : Type} [Queued R M] [Reliability R] [QueueView R M]
    {create : Protocol S → Scheduled R M → Duration → Exec (Packet ToSend M)} {message : String}
    (hcreate : ∀ protocol scheduled now,
      create protocol scheduled now = protocol.core.createCarried message scheduled now)
    (ledger : Ledger crc32 policy numbering net) (settled : Settled numbering)
    (clock : Nat → Duration) :
    Ensures (fun after => ∃ later, Kept crc32 policy numbering net later after ∧
        SendsFirst numbering net.socket
          ((Queued.queue net.antarc.core.scheduler : List (Scheduled R M)).map entryOf) later
          after.socket)
      (Stands crc32) (AntarcNet.pollScheduled crc32 create clock net) := by
  let queue : List (Scheduled R M) := Queued.queue net.antarc.core.scheduler
  let emptied := Queued.setQueue net.antarc.core.scheduler ([] : List (Scheduled R M))
  let drained := net.antarc.setCore { net.antarc.core with scheduler := emptied }
  have hledger : Ledger crc32 policy numbering { net with antarc := drained } := by
    refine ledger.stay ?_ (PeerTable.handshaking_setCore _ _) ?_ ?_
    all_goals simp only [drained, core_setCore]
    · intro _
      trivial
    · intro other hother
      rcases QueueView.of_setQueue _ _ other hother with rfl | hother
      · exact ⟨fun _ hmem => by contradiction, fun _ => rfl⟩
      · exact ledger.queued other hother
    · exact ledger.stored
  have huntouched : Untouched net.antarc.service drained.service :=
    untouched_setCore (fun _ => rfl) (QueueView.service_setQueue _ _) rfl
  have hqueue := ledger.queued _ (QueueView.queue_mem net.antarc.core.scheduler (R := R) (M := M))
  rw [pollScheduled_eq]
  have hstart : Passing crc32 policy numbering numbering net queue { net with antarc := drained } :=
    { ledger := hledger
      steps := .refl
      carries := .of_untouched huntouched
      entries := fun scheduled hmem =>
        (hqueue.entries _ (List.mem_map_of_mem hmem)).mono fun id address =>
          (huntouched.connectedAt id address).mpr
      grouped := by
        intro address
        rw [settled address]
        exact hqueue.grouped address }
  apply (ensures_sendsFirst
    (fun rest later after => Passing crc32 policy numbering later net rest after)
    (fun _ _ _ _ _ _ passing => passing.turn hcreate _ _ _) clock hstart).mono
  rintro after ⟨later, passing, sends⟩
  exact ⟨later, ⟨passing.ledger, passing.grouped, passing.steps, passing.carries⟩, sends⟩

theorem Ledger.pass {R : Type} [Queued R M] [Reliability R] [QueueView R M]
    {create : Protocol S → Scheduled R M → Duration → Exec (Packet ToSend M)} {message : String}
    (hcreate : ∀ protocol scheduled now,
      create protocol scheduled now = protocol.core.createCarried message scheduled now)
    (ledger : Ledger crc32 policy numbering net) (settled : Settled numbering)
    (clock : Nat → Duration) :
    Ensures (fun after => ∃ later, Kept crc32 policy numbering net later after) (Stands crc32)
      (AntarcNet.pollScheduled crc32 create clock net) :=
  (ledger.sendsFirst hcreate settled clock).mono fun _ ⟨later, kept, _⟩ => ⟨later, kept⟩

theorem Settled.accounted (settled : Settled numbering) (line : Line) :
    Settled (accounted numbering line) := by
  intro address
  unfold Properties.accounted
  split
  · by_cases haddress : address = line.address
    · simp only [Numbering.advance, haddress, Function.update_self]
    · simp only [Numbering.advance, Function.update_of_ne haddress, settled address]
  · exact settled address

theorem Settled.sent (settled : Settled numbering) (address : SocketAddr) (id : PacketId) :
    Settled ((numbering.emit address id).advance address) := by
  intro other
  by_cases hsame : other = address
  · simp only [Numbering.advance, hsame, Function.update_self]
  · simp only [Numbering.advance, Numbering.emit, Function.update_of_ne hsame, settled other]

theorem Ledger.sendsAgain (ledger : Ledger crc32 policy numbering net) (settled : Settled numbering)
    (clock : Nat → Duration) :
    Ensures (fun after => ∃ later, Kept crc32 policy numbering net later after ∧
        ∃ (packet : Option (Packet ToSend M)) (antarc : Protocol S),
          net.antarc.retry M (clock 0) = .ok (packet, antarc) ∧
          SendsAgain numbering net.socket (movedBy packet) later after.socket)
      (Stands crc32) (AntarcNet.pollRetry M crc32 clock net) := by
  refine ledger.sendStored ?_
  rintro ⟨packet, antarc⟩ hretry
  obtain ⟨handler, hhandler, hantarc⟩ := retry_frame hretry
  obtain ⟨hkept, hpacket, hservice⟩ := stored_retry hhandler
  have huntouched : Untouched net.antarc.service antarc.service := by
    rw [hantarc]
    exact untouched_setCore (fun _ => rfl) rfl hservice
  have hledger : Ledger crc32 policy numbering { net with antarc := antarc } := by
    rw [hantarc]
    refine ledger.stay ?_ (PeerTable.handshaking_setCore _ _) ?_ ?_
    all_goals simp only [core_setCore]
    · intro _
      trivial
    · exact ledger.queued
    · exact fun line hline => ledger.stored line (hkept line hline)
  refine ⟨hledger, ?_, ?_⟩
  · rintro rfl
    exact ⟨numbering, ⟨hledger, settled, .refl, .of_untouched huntouched⟩, none, antarc, hretry,
      .nothing⟩
  · rintro packet rfl
    refine ⟨ledger.stored _ (hpacket packet rfl), ?_⟩
    intro old hmem hline hresent next hsent
    have hnew : ∃ transmission ∈ (handed crc32 net packet false).socket,
        lineOf transmission.packet = lineToSend Bodied.body packet :=
      ⟨_, List.mem_append_right _ (List.mem_singleton_self _), Bodied.line_outgoing packet⟩
    obtain ⟨haccounted, huntouched'⟩ := hresent.account hnew hsent
    have hsettled : Settled (numbering.resend (sendingOf old)) := settled
    refine ⟨_, ⟨haccounted, hsettled.accounted _, ?_,
      carries_handed (huntouched.trans huntouched')⟩, some packet, antarc, hretry, ?_⟩
    · refine .trans (.single (.resend _ ?_)) (steps_accounted _ _)
      rw [ledger.log]
      exact List.mem_map_of_mem hmem
    · let again : Transmission := ⟨packet.datagram crc32, Sendable.outgoing packet, false⟩
      let line := lineToSend Bodied.body packet
      by_cases hends : line.body.ends = true
      · rw [show accounted _ line = _ from if_pos hends,
          show movedBy (some packet) = some line.address from if_pos hends]
        exact .moved again _ rfl _ ⟨old, hmem, congrArg Line.address hline⟩
      · rw [show accounted _ line = _ from if_neg hends,
          show movedBy (some packet) = none from if_neg hends]
        exact .resent again _ rfl

theorem Ledger.retry (ledger : Ledger crc32 policy numbering net) (settled : Settled numbering)
    (clock : Nat → Duration) :
    Ensures (fun after => ∃ later, Kept crc32 policy numbering net later after) (Stands crc32)
      (AntarcNet.pollRetry M crc32 clock net) :=
  (ledger.sendsAgain settled clock).mono fun _ ⟨later, kept, _⟩ => ⟨later, kept⟩

end Accounts

/-- The books of a driver that started from a numbering and has come to another, and what is
kept beside them. -/
structure BooksAt (crc32 : Crc32) (policy : Policy) (start : Numbering SocketAddr PacketId)
    (side : AntarcNet S → Prop) (numbering : Numbering SocketAddr PacketId) (net : AntarcNet S) :
    Prop where
  ledger : Ledger crc32 policy numbering net
  settled : Settled numbering
  steps : Numbering.machine.Steps start numbering
  side : side net

def Books (crc32 : Crc32) (policy : Policy) (start : Numbering SocketAddr PacketId)
    (side : AntarcNet S → Prop) (net : AntarcNet S) : Prop :=
  ∃ numbering, Ledger crc32 policy numbering net ∧ Settled numbering ∧
    Numbering.machine.Steps start numbering ∧ side net

theorem BooksAt.books {start : Numbering SocketAddr PacketId} {side : AntarcNet S → Prop}
    (h : BooksAt crc32 policy start side numbering net) : Books crc32 policy start side net :=
  ⟨numbering, h.ledger, h.settled, h.steps, h.side⟩

theorem Books.at {start : Numbering SocketAddr PacketId} {side : AntarcNet S → Prop}
    (books : Books crc32 policy start side net) :
    ∃ numbering, BooksAt crc32 policy start side numbering net := by
  obtain ⟨numbering, ledger, settled, hsteps, hside⟩ := books
  exact ⟨numbering, ledger, settled, hsteps, hside⟩

theorem Books.recorded {start : Numbering SocketAddr PacketId} {side : AntarcNet S → Prop}
    (books : Books crc32 policy start side net) : Recorded crc32 net.socket := by
  obtain ⟨numbering, ledger, -⟩ := books
  exact ledger.recorded

theorem Books.attempt {start : Numbering SocketAddr PacketId} {side : AntarcNet S → Prop}
    (books : Books crc32 policy start side net) {call : Exec α} {returned : α → Prop}
    (hreturned : ∀ value, call = .ok value → returned value) :
    Ensures returned (Stands crc32) (net.attempt call) := by
  obtain ⟨numbering, ledger, -⟩ := books
  exact ledger.attempt hreturned

/-- Sending packets of connections does not disturb what is kept beside the books. -/
def Stable (crc32 : Crc32) (policy : Policy) (side : AntarcNet S → Prop) : Prop :=
  ∀ net after numbering, side net → Carries net after → Ledger crc32 policy numbering after →
    side after

section Drivers

variable {start : Numbering SocketAddr PacketId} {side : AntarcNet S → Prop}

theorem BooksAt.of_kept (books : BooksAt crc32 policy start side numbering net)
    (stable : Stable crc32 policy side) {later : Numbering SocketAddr PacketId}
    {after : AntarcNet S} (kept : Kept crc32 policy numbering net later after) :
    BooksAt crc32 policy start side later after where
  ledger := kept.ledger
  settled := kept.settled
  steps := books.steps.trans kept.steps
  side := stable net after later books.side kept.carries kept.ledger

theorem preserves_of_kept (stable : Stable crc32 policy side)
    {pass : AntarcNet S → Drive (AntarcNet S)}
    (hpass : ∀ numbering net, Ledger crc32 policy numbering net → Settled numbering →
      Ensures (fun after => ∃ later, Kept crc32 policy numbering net later after) (Stands crc32)
        (pass net)) :
    Preserves (Books crc32 policy start side) (Stands crc32) pass := by
  intro net books
  obtain ⟨numbering, books⟩ := books.at
  apply (hpass numbering net books.ledger books.settled).mono
  rintro after ⟨later, kept⟩
  exact (books.of_kept stable kept).books

theorem preserves_retry (M : Type) [Carried M] [Sendable M] [Bodied M] [Travels M]
    (stable : Stable crc32 policy side) (clock : Nat → Duration) :
    Preserves (Books crc32 policy start side) (Stands crc32) (AntarcNet.pollRetry M crc32 clock) :=
  preserves_of_kept stable fun _ _ ledger settled => ledger.retry settled clock

theorem preserves_pass {R M : Type} [Queued R M] [Reliability R] [Carried M] [Sendable M] [Bodied M]
    [QueueView R M] [Travels M] (stable : Stable crc32 policy side)
    {create : Protocol S → Scheduled R M → Duration → Exec (Packet ToSend M)} {message : String}
    (hcreate : ∀ protocol scheduled now,
      create protocol scheduled now = protocol.core.createCarried message scheduled now)
    (clock : Nat → Duration) :
    Preserves (Books crc32 policy start side) (Stands crc32)
      (AntarcNet.pollScheduled crc32 create clock) :=
  preserves_of_kept stable fun _ _ ledger settled => ledger.pass hcreate settled clock

theorem preserves_carried (stable : Stable crc32 policy side) (clock : Clock) (pass : Nat) :
    Preserves (Books crc32 policy start side) (Stands crc32)
      (AntarcNet.pollCarried crc32 clock pass) := by
  unfold AntarcNet.pollCarried
  refine .comp ?_ (.comp ?_ (.comp ?_ (.comp ?_ (.comp ?_ ?_))))
  all_goals exact preserves_pass stable (fun _ _ _ => rfl) _

end Drivers

end Books

end Antarc.Properties
