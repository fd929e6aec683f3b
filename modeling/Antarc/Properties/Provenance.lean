import Antarc.Properties.Counted
import Antarc.Properties.Driving

/-! Where the traffic of a driver comes from. A packet that goes out was queued, and one that
goes out again went out before: no pass makes up a payload or a receiver. What is said here
of the entries of the queues holds of all that is ever sent. -/
namespace Antarc.Properties

open Library

def Line.entry (line : Line) : QueueEntry :=
  ⟨line.packetId, line.address, line.body⟩

section Holding

variable {S A B E : Type} [Service S A B E] {protocol next : Protocol S} {now : Duration}

def heldEntries (protocol : Protocol S) : List QueueEntry :=
  queuedEntries protocol ++ (storedLines protocol.core.reliabilityHandler).map Line.entry

class PromotesPeer (S : Type) {A B E : outParam Type} [Service S A B E] : Prop where
  frame : ∀ (service : S) address id time, ∃ connected,
    Service.core (Service.promoteAwaiting service address id time) =
      { Service.core service with connected := connected }

instance : PromotesPeer Server where
  frame server _ _ _ := ⟨server.connected, rfl⟩

instance : PromotesPeer Client where
  frame client address id time := by
    change ∃ connected, (client.promoteAwaiting address id time).toServiceCore = _
    unfold Client.promoteAwaiting
    split
    · exact ⟨_, rfl⟩
    · exact ⟨_, rfl⟩

theorem held_sent [PromotesPeer S] {M : Type} [Carried M] [Sendable M] [Bodied M] [Travels M]
    {packet : Packet ToSend M} {reliability : ReliabilityType}
    (h : protocol.sent packet reliability now = .ok next) : ∀ entry ∈ heldEntries next,
      entry ∈ heldEntries protocol ∨ entry = (lineToSend Bodied.body packet).entry := by
  obtain ⟨completes, core, -, hcore, rfl⟩ := sent_frame h
  obtain ⟨advanced, rfl⟩ := advanced_frame hcore
  obtain ⟨connected, hpromoted⟩ := PromotesPeer.frame protocol.service
    packet.delivery.metadata.address (Carried.connectionId packet.message) now
  intro entry hmem
  simp only [heldEntries, queuedEntries, Protocol.core, Service.core_setCore, hpromoted] at hmem ⊢
  rcases List.mem_append.mp hmem with hmem | hmem
  · exact .inl (List.mem_append_left _ hmem)
  · obtain ⟨line, hline, rfl⟩ := List.mem_map.mp hmem
    rcases stored_keep _ reliability _ line hline with rfl | hline
    · exact .inr rfl
    · exact .inl (List.mem_append_right _ (List.mem_map_of_mem hline))

theorem held_drain {R M : Type} [Queued R M] [Sendable M] [Bodied M] [QueueView R M]
    {start stop : Nat} {drained : List (Scheduled R M)}
    (h : protocol.drain R M start stop = .ok (drained, next)) :
    heldEntries next ⊆ heldEntries protocol ∧
      ∀ scheduled ∈ drained, entryOf scheduled ∈ heldEntries protocol := by
  have hqueued := (untouched_drain h).2
  obtain ⟨⟨_, queue⟩, hqueue, h⟩ := bind_eq_ok.mp h
  cases h
  constructor
  · refine List.append_subset.mpr ⟨fun entry hmem => ?_, ?_⟩
    · exact List.mem_append_left _ (hqueued entry hmem)
    · rw [core_setCore]
      exact List.subset_append_right _ _
  · intro scheduled hmem
    have hold : scheduled ∈ (Queued.queue protocol.core.scheduler : List (Scheduled R M)) := by
      unfold drainRange at hqueue
      split at hqueue
      · cases hqueue
        exact List.mem_of_mem_drop (List.mem_of_mem_take hmem)
      · contradiction
    refine List.mem_append_left _ (List.mem_flatten_of_mem ?_ (List.mem_map_of_mem hold))
    exact QueueView.queue_mem protocol.core.scheduler

theorem held_retry {M : Type} [Carried M] [Sendable M] [Bodied M] [Travels M]
    {packet : Option (Packet ToSend M)} (h : protocol.retry M now = .ok (packet, next)) :
    heldEntries next ⊆ heldEntries protocol ∧ ∀ found, packet = some found →
      (lineToSend Bodied.body found).entry ∈ heldEntries protocol := by
  obtain ⟨handler, hretry, rfl⟩ := retry_frame h
  obtain ⟨hlines, hfound, -⟩ := stored_retry hretry
  constructor
  · intro entry hmem
    simp only [heldEntries, queuedEntries, core_setCore] at hmem
    rcases List.mem_append.mp hmem with hmem | hmem
    · exact List.mem_append_left _ hmem
    · obtain ⟨line, hline, rfl⟩ := List.mem_map.mp hmem
      exact List.mem_append_right _ (List.mem_map_of_mem (hlines line hline))
  · exact fun found hsome => List.mem_append_right _ (List.mem_map_of_mem (hfound found hsome))

end Holding

section Sources

variable {S A B E : Type} [Service S A B E] {crc32 : Crc32} {source : QueueEntry → Prop}
  {net after : AntarcNet S}

/-- All that a driver holds, and all that it has sent, has a source. -/
structure Sourced (source : QueueEntry → Prop) (net : AntarcNet S) : Prop where
  held : ∀ entry ∈ heldEntries net.antarc, source entry
  sent : ∀ transmission ∈ net.socket, source (sentEntry transmission)

theorem Sourced.calls (h : Sourced source net) {antarc : Protocol S}
    (hheld : ∀ entry ∈ heldEntries antarc, entry ∈ heldEntries net.antarc ∨ source entry) :
    Sourced source { net with antarc := antarc } where
  held := fun entry hmem => (hheld entry hmem).elim (h.held entry) id
  sent := h.sent

section Passes

variable {R M : Type} [Sendable M] [Bodied M]
  {create : Protocol S → Scheduled R M → Duration → Exec (Packet ToSend M)}
  {account : Protocol S → Packet ToSend M → Duration → Exec (Protocol S)}
  {clock : Nat → Duration}

def Makes (create : Protocol S → Scheduled R M → Duration → Exec (Packet ToSend M)) : Prop :=
  ∀ protocol scheduled now packet, create protocol scheduled now = .ok packet →
    (lineToSend Bodied.body packet).entry = entryOf scheduled

def Keeps (account : Protocol S → Packet ToSend M → Duration → Exec (Protocol S)) : Prop :=
  ∀ protocol packet now next, account protocol packet now = .ok next →
    ∀ entry ∈ heldEntries next, entry ∈ heldEntries protocol ∨
      entry = (lineToSend Bodied.body packet).entry

theorem Sourced.transmitted (h : Sourced source net) (haccount : Keeps account)
    {packet : Packet ToSend M} (hpacket : source (lineToSend Bodied.body packet).entry)
    {now : Duration} {first : Bool} {antarc : Protocol S}
    (haccounted : account net.antarc packet now = .ok antarc) :
    Sourced source { net with
      antarc := antarc
      socket := net.socket ++ [⟨packet.datagram crc32, Sendable.outgoing packet, first⟩] } where
  held := by
    intro entry hmem
    rcases haccount _ _ _ _ haccounted entry hmem with hold | rfl
    · exact h.held entry hold
    · exact hpacket
  sent := by
    intro transmission hmem
    rcases List.mem_append.mp hmem with hmem | hmem
    · exact h.sent transmission hmem
    · rw [List.mem_singleton.mp hmem]
      change source (lineOf (Sendable.outgoing packet)).entry
      rw [Bodied.line_outgoing]
      exact hpacket

theorem Sourced.sendEach (hcreate : Makes create) (haccount : Keeps account)
    {entries : List (Scheduled R M)} (h : Sourced source net)
    (hentries : ∀ scheduled ∈ entries, source (entryOf scheduled))
    (hsend : AntarcNet.sendEach crc32 create account clock entries net = .ok after) :
    Sourced source after := by
  induction entries generalizing net clock with
  | nil =>
    cases hsend
    exact h
  | cons scheduled rest ih =>
    obtain ⟨middle, hturn, hsend⟩ := bind_eq_ok.mp hsend
    obtain ⟨packet, antarc, hcreated, -, haccounted, rfl⟩ := turn_eq_ok.mp hturn
    obtain ⟨hentry, hrest⟩ := List.forall_mem_cons.mp hentries
    refine ih (h.transmitted haccount ?_ haccounted) hrest hsend
    rw [hcreate _ _ _ _ hcreated]
    exact hentry

theorem Sourced.pollQueue (hcreate : Makes create) (haccount : Keeps account)
    {drain : Protocol S → Exec (List (Scheduled R M) × Protocol S)} (h : Sourced source net)
    (hdrain : ∀ drained next, drain net.antarc = .ok (drained, next) →
      heldEntries next ⊆ heldEntries net.antarc ∧
        ∀ scheduled ∈ drained, source (entryOf scheduled))
    (hpoll : AntarcNet.pollQueue crc32 drain create account clock net = .ok after) :
    Sourced source after := by
  obtain ⟨⟨drained, antarc⟩, hdrained, hpoll⟩ := bind_eq_ok.mp hpoll
  obtain ⟨hheld, hentries⟩ := hdrain _ _ (attempt_eq_ok.mp hdrained)
  exact (h.calls fun entry hmem => .inl (hheld hmem)).sendEach hcreate haccount hentries hpoll

theorem Sourced.pollStored (haccount : Keeps account)
    {retry : Protocol S → Duration → Exec (Option (Packet ToSend M) × Protocol S)}
    (h : Sourced source net)
    (hretry : ∀ now packet next, retry net.antarc now = .ok (packet, next) →
      heldEntries next ⊆ heldEntries net.antarc ∧ ∀ found, packet = some found →
        source (lineToSend Bodied.body found).entry)
    (hpoll : AntarcNet.pollStored crc32 retry account clock net = .ok after) :
    Sourced source after := by
  obtain ⟨⟨packet, antarc⟩, hretried, hpoll⟩ := bind_eq_ok.mp hpoll
  obtain ⟨hheld, hfound⟩ := hretry _ _ _ (attempt_eq_ok.mp hretried)
  have hcalled : Sourced source { net with antarc := antarc } :=
    h.calls fun entry hmem => .inl (hheld hmem)
  cases packet with
  | none =>
    cases hpoll
    exact hcalled
  | some packet =>
    obtain ⟨sent, hsent, hpoll⟩ := bind_eq_ok.mp hpoll
    obtain ⟨accounted, haccounted, hpoll⟩ := bind_eq_ok.mp hpoll
    cases hpoll
    obtain ⟨-, rfl⟩ := transmit_eq_ok.mp hsent
    exact hcalled.transmitted haccount (hfound packet rfl) (attempt_eq_ok.mp haccounted)

end Passes

variable [PromotesPeer S]

theorem keeps_sent {M : Type} [Carried M] [Sendable M] [Bodied M] [Travels M]
    (reliability : ReliabilityType) :
    Keeps fun (protocol : Protocol S) (packet : Packet ToSend M) now =>
      protocol.sent packet reliability now :=
  fun _ _ _ _ => held_sent

theorem Sourced.pollScheduled {R M : Type} [Queued R M] [Reliability R] [Carried M] [Sendable M]
    [Bodied M] [QueueView R M] [Travels M]
    {create : Protocol S → Scheduled R M → Duration → Exec (Packet ToSend M)} {message : String}
    (hcreate : ∀ protocol scheduled now,
      create protocol scheduled now = protocol.core.createCarried message scheduled now)
    {clock : Nat → Duration} (h : Sourced source net)
    (hpoll : AntarcNet.pollScheduled crc32 create clock net = .ok after) :
    Sourced source after := by
  refine h.pollQueue ?_ (keeps_sent _) (fun drained next hdrain => ?_) hpoll
  · intro protocol scheduled now packet hcreated
    rw [hcreate] at hcreated
    obtain ⟨peer, -, hcreated⟩ := bind_eq_ok.mp hcreated
    cases hcreated
    rfl
  · obtain ⟨hheld, hdrained⟩ := held_drain hdrain
    exact ⟨hheld, fun scheduled hmem => h.held _ (hdrained scheduled hmem)⟩

theorem Sourced.pollRetry {M : Type} [Carried M] [Sendable M] [Bodied M] [Travels M]
    {clock : Nat → Duration} (h : Sourced source net)
    (hpoll : AntarcNet.pollRetry M crc32 clock net = .ok after) : Sourced source after := by
  refine h.pollStored (keeps_sent _) (fun now packet next hretry => ?_) hpoll
  obtain ⟨hheld, hfound⟩ := held_retry hretry
  exact ⟨hheld, fun found hsome => h.held _ (hfound found hsome)⟩

theorem Sourced.pollCarried {clock : Clock} {pass : Nat} (h : Sourced source net)
    (hpoll : net.pollCarried crc32 clock pass = .ok after) : Sourced source after := by
  obtain ⟨_, hfirst, hpoll⟩ := bind_eq_ok.mp hpoll
  obtain ⟨_, hsecond, hpoll⟩ := bind_eq_ok.mp hpoll
  obtain ⟨_, hthird, hpoll⟩ := bind_eq_ok.mp hpoll
  obtain ⟨_, hfourth, hpoll⟩ := bind_eq_ok.mp hpoll
  obtain ⟨_, hfifth, hpoll⟩ := bind_eq_ok.mp hpoll
  replace h := h.pollScheduled (fun _ _ _ => rfl) hfirst
  replace h := h.pollScheduled (fun _ _ _ => rfl) hsecond
  replace h := h.pollScheduled (fun _ _ _ => rfl) hthird
  replace h := h.pollScheduled (fun _ _ _ => rfl) hfourth
  replace h := h.pollScheduled (fun _ _ _ => rfl) hfifth
  exact h.pollScheduled (fun _ _ _ => rfl) hpoll

end Sources

section Handshakes

variable {crc32 : Crc32} {source : QueueEntry → Prop} {clock : Clock}

/-- The packets of a handshake carry nothing, and need no source. -/
def SparesHandshakes (source : QueueEntry → Prop) : Prop :=
  ∀ entry, entry.body.connection = none → source entry

theorem Sourced.clientSend {net after : AntarcNet Client} (hspares : SparesHandshakes source)
    (h : Sourced source net) (hsend : net.clientSend crc32 clock = .ok after) :
    Sourced source after := by
  have haccount : Keeps Protocol.sentConnectionRequest := by
    intro protocol packet now next hsent entry hmem
    obtain ⟨_, _, -, -, rfl⟩ := sentConnectionRequest_frame hsent
    exact .inl hmem
  obtain ⟨_, hresend, hsend⟩ := bind_eq_ok.mp hsend
  obtain ⟨_, hretry, hsend⟩ := bind_eq_ok.mp hsend
  obtain ⟨_, hrequests, hsend⟩ := bind_eq_ok.mp hsend
  have hresent := h.pollStored haccount (fun now packet next hcall => by
    obtain ⟨_, -, rfl⟩ := resend_frame hcall
    exact ⟨List.Subset.refl _, fun found _ => hspares _ rfl⟩) hresend
  have hretried := hresent.pollRetry hretry
  have hrequested := hretried.pollQueue (fun protocol scheduled now packet hcall => by
    obtain ⟨_, -, hcall⟩ := bind_eq_ok.mp hcall
    cases hcall
    rfl) haccount (fun drained next hcall => by
    obtain ⟨_, -, rfl⟩ := drainConnectionRequest_frame hcall
    exact ⟨List.Subset.refl _, fun scheduled _ => hspares _ rfl⟩) hrequests
  exact hrequested.pollCarried hsend

theorem Sourced.serverSend {net after : AntarcNet Server} (hspares : SparesHandshakes source)
    (h : Sourced source net) (hsend : net.serverSend crc32 clock = .ok after) :
    Sourced source after := by
  have haccount : Keeps Protocol.sentConnectionAccepted := by
    intro protocol packet now next hsent entry hmem
    obtain ⟨_, -, rfl⟩ := sentConnectionAccepted_frame hsent
    exact .inl hmem
  obtain ⟨_, hresend, hsend⟩ := bind_eq_ok.mp hsend
  obtain ⟨_, hretry, hsend⟩ := bind_eq_ok.mp hsend
  obtain ⟨_, hretryFragment, hsend⟩ := bind_eq_ok.mp hsend
  obtain ⟨_, haccepts, hsend⟩ := bind_eq_ok.mp hsend
  have hresent := h.pollStored haccount (fun now packet next hcall => by
    obtain ⟨_, -, rfl⟩ := retryConnectionAccepted_frame hcall
    exact ⟨List.Subset.refl _, fun found _ => hspares _ rfl⟩) hresend
  have hretried := (hresent.pollRetry hretry).pollRetry hretryFragment
  have haccepted := hretried.pollQueue (fun protocol scheduled now packet hcall => by
    obtain ⟨_, -, hcall⟩ := bind_eq_ok.mp hcall
    cases hcall
    rfl) haccount (fun drained next hcall => by
    obtain ⟨_, -, rfl⟩ := drainConnectionAccepted_frame hcall
    exact ⟨List.Subset.refl _, fun scheduled _ => hspares _ rfl⟩) haccepts
  exact haccepted.pollCarried hsend

end Handshakes

end Antarc.Properties
