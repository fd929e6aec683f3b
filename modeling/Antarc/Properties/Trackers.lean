import Antarc.Properties.Counted

/-! Sequence trackers count packets in every run that is careful: no payload is cut into more
fragments than a byte can number, and no retry pass sends again what ends a packet. A
retry pass that does so moves a tracker that had counted the packet already. -/
namespace Antarc.Properties

open Library

section Counting

variable {S A B E : Type} [Service S A B E] [PeerTable S] {crc32 : Crc32}
  {side : AntarcNet S → Prop} {numbering later : Numbering SocketAddr PacketId}
  {net after : AntarcNet S}

def Tallied (numbering : Numbering SocketAddr PacketId) (net : AntarcNet S) : Prop :=
  Tally numbering (firstSent net.socket) (loadOf net.antarc).1 (loadOf net.antarc).2

structure CountsAt (crc32 : Crc32) (side : AntarcNet S → Prop)
    (numbering : Numbering SocketAddr PacketId) (net : AntarcNet S) : Prop where
  books : BooksAt crc32 .none .start side numbering net
  tally : Tallied numbering net

def Counts (crc32 : Crc32) (side : AntarcNet S → Prop) (net : AntarcNet S) : Prop :=
  ∃ numbering, CountsAt crc32 side numbering net

/-- The sequence tracker of every peer is one more than the packets that went to it. -/
def CountsPackets (net : AntarcNet S) : Prop :=
  ∀ address trackers, Holds net.antarc.service address trackers →
    trackers.sequence.get.toNat = 1 + packetsTo address (firstSent net.socket)

theorem Counts.packets (counts : Counts crc32 side net) : CountsPackets net := by
  obtain ⟨numbering, books, tally⟩ := counts
  intro address trackers hholds
  rw [books.ledger.sequences _ _ hholds, tally.next_eq books.settled]

theorem CountsAt.quiet (counts : CountsAt crc32 side numbering net)
    {other : AntarcNet S → Prop} (books : BooksAt crc32 .none .start other numbering after)
    (hsocket : after.socket = net.socket)
    (hqueued : (loadOf after.antarc).1 = (loadOf net.antarc).1)
    (htracker : (loadOf net.antarc).2.toNat ≤ (loadOf after.antarc).2.toNat) :
    Counts crc32 other after := by
  refine ⟨numbering, books, ?_⟩
  unfold Tallied
  rw [hsocket, hqueued, ← List.nil_append (loadOf net.antarc).1]
  exact counts.tally.queue_others htracker fun _ h => by contradiction

def KeepsTrackers (net after : AntarcNet S) : Prop :=
  ∀ address before later, Holds net.antarc.service address before →
    Holds after.antarc.service address later → later.sequence = before.sequence

/-- What a retry pass has come to: where it was careful, no number has moved on. -/
def Retried (crc32 : Crc32) (side : AntarcNet S → Prop) (numbering : Numbering SocketAddr PacketId)
    (net after : AntarcNet S) (careful : Prop) : Prop :=
  ∃ later moved, BooksAt crc32 .none .start side later after ∧
    SendsAgain numbering net.socket moved later after.socket ∧
    loadOf after.antarc = loadOf net.antarc ∧ (moved = none ↔ careful)

theorem Retried.counts {careful : Prop} (retried : Retried crc32 side numbering net after careful)
    (tally : Tallied numbering net) (hcareful : careful) : Counts crc32 side after := by
  obtain ⟨later, moved, books, sends, hload, hmoved⟩ := retried
  cases hmoved.mpr hcareful
  refine ⟨later, books, ?_⟩
  unfold Tallied
  rw [hload]
  exact tally.sendsAgain sends

/-- A retry pass that returns leaves the trackers alone exactly where it was careful. -/
theorem Retried.keeps_iff {careful : Prop} (books : BooksAt crc32 .none .start side numbering net)
    (retried : Retried crc32 side numbering net after careful) :
    KeepsTrackers net after ↔ careful := by
  obtain ⟨later, moved, hafter, sends, -, hmoved⟩ := retried
  rw [← hmoved]
  have hkept : later.next = numbering.next → KeepsTrackers net after := by
    intro hnext address before trackers hbefore htrackers
    have hsame := (hafter.ledger.sequences _ _ htrackers).trans
      ((congrFun hnext address).trans (books.ledger.sequences _ _ hbefore).symm)
    exact NonZeroU32.ext (UInt32.toNat_inj.mp hsame)
  generalize hsocket : after.socket = socket at sends
  cases sends with
  | nothing => exact iff_of_true (hkept rfl) rfl
  | resent transmission sending again => exact iff_of_true (hkept rfl) rfl
  | moved transmission sending again address sent =>
    refine iff_of_false (fun hkeeps => ?_) (by simp)
    obtain ⟨old, hmem, rfl⟩ := sent
    have hstill : old ∈ after.socket := hsocket ▸ List.mem_append_left _ hmem
    obtain ⟨before, hbefore⟩ := books.ledger.holds_of_sent books.settled hmem
    obtain ⟨trackers, htrackers⟩ := hafter.ledger.holds_of_sent hafter.settled hstill
    have hsequence := hafter.ledger.sequences _ _ htrackers
    rw [hkeeps _ _ _ hbefore htrackers, books.ledger.sequences _ _ hbefore] at hsequence
    simp only [Numbering.advance, Function.update_self, Numbering.resend] at hsequence
    omega

theorem newest_due_iff {M α : Type} {now : Duration} {list rest : List (Packet Sent M)}
    {result : Option (Packet ToSend M)} {harmless : Packet Sent M → Prop}
    (moved : Option (Packet ToSend M) → Option α) (h : retryLast now list = .ok (result, rest))
    (hnone : moved none = none)
    (hsome : ∀ stored, moved (some (again stored now)) = none ↔ harmless stored) :
    moved result = none ↔
      ∀ stored, list.getLast? = some stored → Due now stored → harmless stored := by
  rcases retryLast_result h with ⟨rfl, hearly⟩ | ⟨stored, hstored, hdue, rfl⟩
  · exact iff_of_true hnone fun stored hstored hdue => absurd hdue (hearly stored hstored)
  · rw [hsome]
    refine ⟨fun hharmless other hother _ => ?_, fun hall => hall stored hstored hdue⟩
    rw [← Option.some.inj (hstored.symm.trans hother)]
    exact hharmless

theorem isFragment_of_mem_queue {R M : Type} [Sendable M] [Bodied M] {kind : Bool}
    (hkind : ∀ message : M, (Bodied.body message).isFragment = kind)
    (queue : List (Scheduled R M)) :
    ∀ entry ∈ queue.map entryOf, entry.body.isFragment = kind := by
  intro entry hmem
  obtain ⟨scheduled, -, rfl⟩ := List.mem_map.mp hmem
  exact hkind scheduled.message

theorem CountsAt.handshake (counts : CountsAt crc32 side numbering net)
    (books : BooksAt crc32 .none .start side later after) {entries : List QueueEntry}
    (sends : SendsFirst numbering net.socket entries later after.socket)
    (hothers : ∀ entry ∈ entries, entry.body.isFragment = false)
    (hload : loadOf after.antarc = loadOf net.antarc) : Counts crc32 side after := by
  refine ⟨later, books, ?_⟩
  unfold Tallied
  rw [hload]
  exact (counts.tally.queue_others le_rfl hothers).sendsFirst sends
    (.inr ⟨counts.books.settled, hothers⟩)

section Passes

variable {R M : Type} [Carried M] [Sendable M] [Bodied M] [Travels M] [PromotesQuietly S]

theorem CountsAt.pollScheduled [Queued R M] [Reliability R] [QueueView R M] [QueueApart R M]
    {create : Protocol S → Scheduled R M → Duration → Exec (Packet ToSend M)} {message : String}
    (hcreate : ∀ protocol scheduled now,
      create protocol scheduled now = protocol.core.createCarried message scheduled now)
    (counts : CountsAt crc32 side numbering net) (stable : Stable crc32 .none side)
    {clock : Nat → Duration} (h : AntarcNet.pollScheduled crc32 create clock net = .ok after) :
    Counts crc32 side after := by
  obtain ⟨books, tally⟩ := counts
  have hsends := books.ledger.sendsFirst hcreate books.settled clock
  rw [h] at hsends
  obtain ⟨later, kept, sends⟩ := hsends
  refine ⟨later, books.of_kept stable kept, ?_⟩
  unfold Tallied
  rw [load_pollScheduled h]
  refine (tally.reorder (entriesOf_perm _).symm).sendsFirst sends ?_
  exact (QueueApart.kind R (M := M)).imp
    (fun hfragments => isFragment_of_mem_queue hfragments _)
    fun hothers => ⟨books.settled, isFragment_of_mem_queue hothers _⟩

/-- The newest packet of this kind that is kept is not due, or it ends no packet. -/
def RepeatsNoEnd (M : Type) [Carried M] [Sendable M] [Bodied M] (net : AntarcNet S)
    (now : Duration) : Prop :=
  ∀ packet, (Carried.listSent net.antarc.core.reliabilityHandler :
      List (Packet Sent M)).getLast? = some packet →
    Due now packet → (Bodied.body packet.message).ends = false

omit [PeerTable S] [Travels M] [PromotesQuietly S] in
theorem movedBy_eq_none {now : Duration} {packet : Option (Packet ToSend M)}
    {antarc : Protocol S} (h : net.antarc.retry M now = .ok (packet, antarc)) :
    movedBy packet = none ↔ RepeatsNoEnd M net now := by
  obtain ⟨handler, hretry, -⟩ := retry_frame h
  obtain ⟨⟨_, list⟩, hlast, hretry⟩ := bind_eq_ok.mp hretry
  cases hretry
  refine newest_due_iff movedBy hlast rfl fun stored => ?_
  cases hends : (Bodied.body stored.message).ends <;> simp [movedBy, again, hends]

theorem CountsAt.pollRetry (counts : CountsAt crc32 side numbering net)
    (stable : Stable crc32 .none side) {clock : Nat → Duration}
    (h : AntarcNet.pollRetry M crc32 clock net = .ok after) :
    Retried crc32 side numbering net after (RepeatsNoEnd M net (clock 0)) := by
  have hsends := counts.books.ledger.sendsAgain (M := M) counts.books.settled clock
  rw [h] at hsends
  obtain ⟨later, kept, packet, antarc, hretry, sends⟩ := hsends
  exact ⟨later, movedBy packet, counts.books.of_kept stable kept, sends, load_pollRetry h,
    movedBy_eq_none hretry⟩

end Passes

section Calls

variable {hash : RandomState} {reliability : ReliabilityType} {sendTo : SendTo} {now : Duration}

/-- A payload that is queued for some peer is cut into no more fragments than a byte counts. -/
def FitsByte (core : ServiceCore A B E) (sendTo : SendTo) (payload : Payload) : Prop :=
  isEmpty core.connected = false → ¬NamesStranger core sendTo →
    payload.length ≤ 255 * Body.maxPayload

omit [PeerTable S] in
theorem FitsByte.count_le {core : ServiceCore A B E} {targets : List Target} {payload : Payload}
    (hfits : FitsByte core sendTo payload) (hconnected : isEmpty core.connected = false)
    (htargets : core.targets hash sendTo = .ok targets) :
    (numberedChunks payload).length ≤ 255 := by
  have hlength : payload.length ≤ 255 * 1483 :=
    hfits hconnected (not_namesStranger_of_ok htargets)
  rw [length_numberedChunks]
  omega

theorem CountsAt.requeued (counts : CountsAt crc32 side numbering net) {new : List QueueEntry}
    {scheduler : Scheduler A} {tracker : PacketId}
    (htracker : addU64 net.antarc.packetIdTracker 1 = .ok tracker)
    (hscheduler : (entriesOf scheduler).Perm (new ++ entriesOf net.antarc.core.scheduler))
    (hids : ∀ entry ∈ new, entry.packetId = net.antarc.packetIdTracker)
    (honce : (lastFragments new).Nodup) :
    Tallied numbering { net with antarc :=
      { net.antarc.setCore { net.antarc.core with scheduler := scheduler } with
        packetIdTracker := tracker } } := by
  have hnext : tracker.toNat = (loadOf net.antarc).2.toNat + 1 := addU64_one_eq_ok htracker
  have hgrown : Tally numbering (firstSent net.socket) (new ++ (loadOf net.antarc).1) tracker :=
    counts.tally.queue (by omega) (fun entry hmem _ => ⟨hids entry hmem, by omega⟩) honce
  have hcore := core_setCore net.antarc { net.antarc.core with scheduler := scheduler }
  have hentries := congrArg (fun core => entriesOf core.scheduler) hcore
  exact hgrown.reorder ((List.Perm.of_eq hentries).trans hscheduler)

theorem CountsAt.schedule (counts : CountsAt crc32 side numbering net)
    (stable : Stable crc32 .none side) {payload : Payload} {result : Result PacketId}
    {antarc : Protocol S} (hfits : FitsByte net.antarc.core sendTo payload)
    (h : net.antarc.schedule hash reliability sendTo payload now = .ok (result, antarc)) :
    Counts crc32 side { net with antarc := antarc } := by
  refine ⟨numbering, counts.books.schedule stable h, ?_⟩
  rcases schedule_cases h with
    ⟨_, -, rfl⟩ | ⟨targets, tracker, hconnected, htargets, htracker, -, rfl⟩
  · exact counts.tally
  refine counts.requeued htracker (entriesOf_queued_perm ..) ?_ ?_
  · intro entry hmem
    obtain ⟨chunk, -, hmem⟩ := List.mem_flatMap.mp hmem
    obtain ⟨target, -, rfl⟩ := List.mem_map.mp hmem
    rfl
  · rcases htargets with hnil | htargets
    · rw [hnil]
      exact .nil
    · exact nodup_lastFragments (hfits.count_le hconnected htargets)
        (targets_ok counts.books.ledger.distinct htargets).2 _

theorem CountsAt.heartbeat (counts : CountsAt crc32 side numbering net)
    (stable : Stable crc32 .none side) {result : Result PacketId} {antarc : Protocol S}
    (h : net.antarc.heartbeat hash reliability sendTo now = .ok (result, antarc)) :
    Counts crc32 side { net with antarc := antarc } := by
  refine ⟨numbering, counts.books.heartbeat stable h, ?_⟩
  rcases heartbeat_cases h with ⟨_, -, rfl⟩ | ⟨targets, tracker, -, -, htracker, -, rfl⟩
  · exact counts.tally
  refine counts.requeued htracker (entriesOf_beaten_perm ..) ?_ ?_
  · intro entry hmem
    obtain ⟨target, -, rfl⟩ := List.mem_map.mp hmem
    rfl
  · rw [lastFragments_of_none]
    · exact .nil
    · intro entry hmem
      obtain ⟨target, -, rfl⟩ := List.mem_map.mp hmem
      rfl

end Calls

omit [Service S A B E] [PeerTable S] in
theorem forwarded_eq_ok {call : Exec (α × Protocol S)}
    (h : Prod.snd <$> net.forward call = .ok after) :
    ∃ result antarc, call = .ok (result, antarc) ∧ after = { net with antarc := antarc } := by
  obtain ⟨_, hforward, rfl⟩ := map_eq_ok.mp h
  obtain ⟨⟨result, antarc⟩, hcall, hafter⟩ := bind_eq_ok.mp hforward
  cases hafter
  exact ⟨result, antarc, attempt_eq_ok.mp hcall, rfl⟩

def SharedPass.Retries : SharedPass → Prop
  | retryDataTransfer _ | retryFragment _ => True
  | _ => False

def SharedPass.Careful (net : AntarcNet S) : SharedPass → Prop
  | schedule _ _ sendTo payload _ => FitsByte net.antarc.core sendTo payload
  | retryDataTransfer clock => RepeatsNoEnd DataTransfer net (clock 0)
  | retryFragment clock => RepeatsNoEnd Fragment net (clock 0)
  | _ => True

variable [PromotesQuietly S]

theorem SharedPass.retried (counts : CountsAt crc32 side numbering net)
    (stable : Stable crc32 .none side) (pass : SharedPass) (hretries : pass.Retries)
    (h : pass.run crc32 net = .ok after) :
    Retried crc32 side numbering net after (pass.Careful net) := by
  cases pass with
  | retryDataTransfer clock => exact counts.pollRetry stable h
  | retryFragment clock => exact counts.pollRetry stable h
  | _ => exact absurd hretries id

theorem SharedPass.counts (counts : CountsAt crc32 side numbering net)
    (stable : Stable crc32 .none side) (pass : SharedPass) (hcareful : pass.Careful net)
    (h : pass.run crc32 net = .ok after) : Counts crc32 side after := by
  cases pass with
  | schedule hash reliability sendTo payload now =>
    obtain ⟨_, _, hcall, rfl⟩ := forwarded_eq_ok h
    exact counts.schedule stable hcareful hcall
  | heartbeat hash reliability sendTo now =>
    obtain ⟨_, _, hcall, rfl⟩ := forwarded_eq_ok h
    exact counts.heartbeat stable hcall
  | unreliableDataTransfer clock => exact counts.pollScheduled (fun _ _ _ => rfl) stable h
  | reliableDataTransfer clock => exact counts.pollScheduled (fun _ _ _ => rfl) stable h
  | unreliableFragment clock => exact counts.pollScheduled (fun _ _ _ => rfl) stable h
  | reliableFragment clock => exact counts.pollScheduled (fun _ _ _ => rfl) stable h
  | unreliableHeartbeat clock => exact counts.pollScheduled (fun _ _ _ => rfl) stable h
  | reliableHeartbeat clock => exact counts.pollScheduled (fun _ _ _ => rfl) stable h
  | retryDataTransfer clock => exact (counts.pollRetry stable h).counts counts.tally hcareful
  | retryFragment clock => exact (counts.pollRetry stable h).counts counts.tally hcareful

end Counting

section Client

variable {crc32 : Crc32} {net after : AntarcNet Client} {asked : List SocketAddr}
  {numbering : Numbering SocketAddr PacketId}

def ClientPass.Retries : ClientPass → Prop
  | shared pass => pass.Retries
  | retryConnectionRequest _ => True
  | _ => False

def ClientPass.Careful (net : AntarcNet Client) : ClientPass → Prop
  | shared pass => pass.Careful net
  | _ => True

theorem ClientPass.retried (counts : CountsAt crc32 (ClientSide asked []) numbering net)
    (pass : ClientPass) (hretries : pass.Retries) (h : pass.run crc32 net = .ok after) :
    Retried crc32 (ClientSide asked []) numbering net after (pass.Careful net) := by
  have stable := stable_clientSide crc32 .none asked []
  cases pass with
  | shared pass => exact pass.retried counts stable hretries h
  | retryConnectionRequest clock =>
    have hbooks := counts.books.pollRetryConnectionRequest clock
    rw [show net.pollRetryConnectionRequest crc32 clock = .ok after from h] at hbooks
    obtain ⟨books, hsocket⟩ := hbooks
    refine ⟨numbering, none, books, ?_, load_pollRetryConnectionRequest h, iff_of_true rfl trivial⟩
    rw [hsocket]
    exact .nothing
  | _ => exact absurd hretries id

theorem ClientPass.counts (counts : CountsAt crc32 (ClientSide asked []) numbering net)
    (pass : ClientPass) (hcareful : pass.Careful net) (h : pass.run crc32 net = .ok after) :
    ∃ asked, Counts crc32 (ClientSide asked []) after := by
  have stable := stable_clientSide crc32 .none asked []
  cases pass with
  | shared pass => exact ⟨asked, pass.counts counts stable hcareful h⟩
  | connect address now =>
    obtain ⟨result, antarc, hcall, rfl⟩ := forwarded_eq_ok h
    rcases connect_cases hcall with ⟨_, -, rfl⟩ | ⟨tracker, -, htracker, rfl, rfl⟩
    · exact ⟨asked, numbering, counts⟩
    · rcases counts.books.connect trivial hcall with ⟨_, herror, -⟩ | ⟨-, books⟩
      · contradiction
      · refine ⟨_, counts.quiet books rfl rfl ?_⟩
        exact (Nat.le_succ _).trans_eq (addU64_one_eq_ok htracker).symm
  | connectionRequest clock =>
    have hsends := counts.books.pollConnectionRequest clock
    rw [show net.pollConnectionRequest crc32 clock = .ok after from h] at hsends
    obtain ⟨later, books, sends⟩ := hsends
    exact ⟨asked, counts.handshake books sends (isFragment_of_mem_queue (fun _ => rfl) _)
      (load_pollConnectionRequest h)⟩
  | retryConnectionRequest clock =>
    exact ⟨asked, (retried counts (.retryConnectionRequest clock) trivial h).counts counts.tally
      trivial⟩
  | receive received elapsed datagram =>
    obtain ⟨result, hcall, rfl⟩ := map_eq_ok.mp h
    have hbooks := counts.books.clientReceive received elapsed datagram
      fun _ _ _ _ => ⟨fun _ _ _ _ => trivial, trivial⟩
    rw [hcall] at hbooks
    have hload := load_clientReceive hcall
    refine ⟨asked, counts.quiet hbooks (clientReceive_socket hcall) ?_ ?_⟩
    · rw [hload]
    · rw [hload]

theorem clientCounts_of_passes {net : AntarcNet Client}
    (h : (clientPassRuns crc32 ClientPass.Careful).Reachable (.ok net)) :
    ∃ asked, Counts crc32 (ClientSide asked []) net := by
  refine holds_after_passes (?_ : ∀ net, _ → ∃ asked, Counts crc32 (ClientSide asked []) net) ?_ h
  · rintro _ ⟨address, rfl⟩
    refine ⟨[], .start, ?_, .start 0⟩
    exact ⟨ledger_newClient crc32 .none address, fun _ => rfl, .refl, clientSide_new address⟩
  · rintro net pass after ⟨asked, numbering, counts⟩ hcareful hrun
    exact pass.counts counts hcareful hrun

end Client

section Server

variable {crc32 : Crc32} {net after : AntarcNet Server} {registry : Registry SocketAddr}
  {numbering : Numbering SocketAddr PacketId}

/-- The newest accept that is kept is not due, or its peer awaits no ack any more. -/
def RepeatsNoAwaited (net : AntarcNet Server) (now : Duration) : Prop :=
  ∀ packet, net.antarc.service.reliabilityHandler.service.listSentConnectionAccepted.getLast? =
      some packet → Due now packet →
    packet.message.connectionId ∉ net.antarc.service.awaitingConnectionAck

theorem movedByAccept_eq_none {now : Duration} {packet : Option (Packet ToSend ConnectionAccepted)}
    {antarc : Protocol Server}
    (h : net.antarc.retryReliableConnectionAccepted now = .ok (packet, antarc)) :
    movedByAccept net.antarc.service packet = none ↔ RepeatsNoAwaited net now := by
  obtain ⟨list, hlast, -⟩ := retryConnectionAccepted_frame h
  exact newest_due_iff (movedByAccept net.antarc.service) hlast rfl fun stored =>
    Option.map_eq_none_iff.trans Finmap.lookup_eq_none

def ServerPass.Retries : ServerPass → Prop
  | shared pass => pass.Retries
  | retryConnectionAccepted _ => True
  | _ => False

def ServerPass.Careful (net : AntarcNet Server) : ServerPass → Prop
  | shared pass => pass.Careful net
  | retryConnectionAccepted clock => RepeatsNoAwaited net (clock 0)
  | _ => True

theorem ServerPass.retried (counts : CountsAt crc32 (ServerSide registry []) numbering net)
    (pass : ServerPass) (hretries : pass.Retries) (h : pass.run crc32 net = .ok after) :
    Retried crc32 (ServerSide registry []) numbering net after (pass.Careful net) := by
  have stable := stable_serverSide crc32 .none registry []
  cases pass with
  | shared pass => exact pass.retried counts stable hretries h
  | retryConnectionAccepted clock =>
    have hsends := counts.books.pollRetryConnectionAccepted clock
    rw [show net.pollRetryConnectionAccepted crc32 clock = .ok after from h] at hsends
    obtain ⟨later, books, packet, antarc, hretry, sends⟩ := hsends
    exact ⟨later, _, books, sends, load_pollRetryConnectionAccepted h,
      movedByAccept_eq_none hretry⟩
  | _ => exact absurd hretries id

theorem ServerPass.counts (counts : CountsAt crc32 (ServerSide registry []) numbering net)
    (pass : ServerPass) (hcareful : pass.Careful net) (h : pass.run crc32 net = .ok after) :
    ∃ registry, Counts crc32 (ServerSide registry []) after := by
  have stable := stable_serverSide crc32 .none registry []
  cases pass with
  | shared pass => exact ⟨registry, pass.counts counts stable hcareful h⟩
  | connectionAccepted clock =>
    have hsends := counts.books.pollConnectionAccepted clock
    rw [show net.pollConnectionAccepted crc32 clock = .ok after from h] at hsends
    obtain ⟨later, books, sends⟩ := hsends
    exact ⟨registry, counts.handshake books sends (isFragment_of_mem_queue (fun _ => rfl) _)
      (load_pollConnectionAccepted h)⟩
  | retryConnectionAccepted clock =>
    exact ⟨registry, (retried counts (.retryConnectionAccepted clock) trivial h).counts
      counts.tally hcareful⟩
  | receive hash peerHash received elapsed now datagram =>
    obtain ⟨result, hcall, rfl⟩ := map_eq_ok.mp h
    have hbooks := counts.books.serverReceive hash peerHash received elapsed now datagram
      fun _ _ _ _ => ⟨fun _ _ _ _ _ _ => ⟨trivial, trivial⟩, fun _ _ => trivial⟩
    rw [hcall] at hbooks
    obtain ⟨later, -, books⟩ := hbooks
    obtain ⟨hqueued, htracker⟩ := load_serverReceive hcall
    exact ⟨later, counts.quiet books (serverReceive_socket hcall) hqueued htracker⟩

theorem serverCounts_of_passes {net : AntarcNet Server}
    (h : (serverPassRuns crc32 ServerPass.Careful).Reachable (.ok net)) :
    ∃ registry, Counts crc32 (ServerSide registry []) net := by
  refine holds_after_passes
    (?_ : ∀ net, _ → ∃ registry, Counts crc32 (ServerSide registry []) net) ?_ h
  · rintro _ ⟨address, reliableTtl, rfl⟩
    refine ⟨.empty, .start, ?_, .start 0⟩
    exact ⟨ledger_newServer crc32 .none address reliableTtl, fun _ => rfl, .refl,
      serverSide_new address reliableTtl⟩
  · rintro net pass after ⟨registry, numbering, counts⟩ hcareful hrun
    exact pass.counts counts hcareful hrun

end Server

section Resent

def lateTransfer (id : PacketId) (sequence : Sequence) : Packet ToSend DataTransfer :=
  ⟨⟨id, ⟨.fromSecs 600, .v4 0 0⟩⟩, sequence, 1, .new .one [1, 2, 3]⟩

def sequenceAfter (packets : UInt32) : Sequence :=
  (NonZeroU32.one.checkedAdd packets).getD .one

def clientWith (tracker : PacketId) (packets : UInt32)
    (queued : List (Scheduled Reliable DataTransfer)) (kept : List (Packet Sent DataTransfer))
    (sent : List Transmission) : AntarcNet Client where
  antarc :=
    { packetIdTracker := tracker
      service := { Client.new with
        connected := Finmap.insert .one ⟨sequenceAfter packets, 1, 1, .v4 0 0,
          ⟨⟨.zero, 0, .zero⟩, .one, .zero, ∅⟩⟩ ∅
        scheduler := { Client.new.scheduler with listScheduledReliableDataTransfer := queued }
        reliabilityHandler := { Client.new.reliabilityHandler with
          listSentReliableDataTransfer := kept } }
      reliableTtl := .fromSecs 2 }
  address := .v4 1 1
  socket := ⟨askedRequest.datagram ieeeCrc32, .connectionRequest askedRequest, true⟩ :: sent

def shortEntry (id : PacketId) : Scheduled Reliable DataTransfer :=
  ⟨id, .v4 0 0, .zero, {}, .new .one [1, 2, 3]⟩

def transmitted (packet : Packet ToSend DataTransfer) (first : Bool) : Transmission :=
  ⟨packet.datagram ieeeCrc32, .dataTransfer packet, first⟩

def firstTransfer : Packet ToSend DataTransfer :=
  lateTransfer 1 (sequenceAfter 1)

def secondTransfer : Packet ToSend DataTransfer :=
  lateTransfer 2 (sequenceAfter 2)

def keepingClient : AntarcNet Client :=
  clientWith 3 3 [] [secondTransfer.sent (.fromSecs 600) (.fromSecs 2)]
    [transmitted firstTransfer true, transmitted secondTransfer true]

def resendingClient : AntarcNet Client :=
  clientWith 3 4 [] [secondTransfer.sent (.fromSecs 600) (.fromSecs 2)]
    [transmitted firstTransfer true, transmitted secondTransfer true,
      transmitted secondTransfer false]

set_option maxRecDepth 6000 in
theorem keepingClient_reachable :
    (clientPassRuns ieeeCrc32 ClientPass.Careful).Reachable (.ok keepingClient) := by
  let machine := clientPassRuns ieeeCrc32 ClientPass.Careful
  let hash : RandomState := Classical.arbitrary RandomState
  have hfits : ∀ net : AntarcNet Client, FitsByte net.antarc.core (.single .one) [1, 2, 3] :=
    fun _ _ _ => by decide
  have hasked : machine.Reachable (.ok askedRun.net) :=
    .next (.start ⟨_, ⟨.v4 1 1, rfl⟩, rfl⟩) ⟨_, rfl, .connect (.v4 0 0) .zero, trivial, rfl⟩
  have hconnected : machine.Reachable (.ok (clientWith 1 1 [] [] [])) :=
    (hasked.next ⟨_, rfl, .connectionRequest fun _ => .zero, trivial, rfl⟩).next
      ⟨_, rfl, .receive .zero .zero (some (fromServer answeringAccept)), trivial, rfl⟩
  have hqueued : machine.Reachable (.ok (clientWith 2 1 [shortEntry 1] [] [])) :=
    hconnected.next ⟨_, rfl, .shared (.schedule hash .reliable (.single .one) [1, 2, 3] .zero),
      hfits _, rfl⟩
  have hagain : machine.Reachable (.ok (clientWith 3 1 [shortEntry 1, shortEntry 2] [] [])) :=
    hqueued.next ⟨_, rfl, .shared (.schedule hash .reliable (.single .one) [1, 2, 3] .zero),
      hfits _, rfl⟩
  exact (hagain.next ⟨_, rfl, .shared (.reliableDataTransfer fun _ => .fromSecs 600),
    trivial, rfl⟩).next ⟨_, rfl, .receive (.fromSecs 600) (.fromSecs 600)
      (some (fromServer answeringAccept)), trivial, rfl⟩

set_option maxRecDepth 6000 in
theorem keepingClient_retries : keepingClient.pollRetryDataTransfer ieeeCrc32
    (fun _ => .fromSecs 600) = .ok resendingClient :=
  rfl

end Resent

/-- Whatever the run, as long as it is careful: every peer's tracker is one more than the
packets that went to it, and a retry pass leaves the trackers as they were exactly where
it is careful. -/
theorem careful_sequences_count_packets (crc32 : Crc32) :
    (∀ net, (clientPassRuns crc32 ClientPass.Careful).Reachable (.ok net) →
      CountsPackets net ∧
        ∀ (pass : ClientPass) after, pass.Retries → pass.run crc32 net = .ok after →
          (KeepsTrackers net after ↔ pass.Careful net)) ∧
    ∀ net, (serverPassRuns crc32 ServerPass.Careful).Reachable (.ok net) →
      net.antarc.service.requestingConnection = ∅ ∧ CountsPackets net ∧
        ∀ (pass : ServerPass) after, pass.Retries → pass.run crc32 net = .ok after →
          (KeepsTrackers net after ↔ pass.Careful net) := by
  constructor
  · intro net h
    obtain ⟨asked, counts⟩ := clientCounts_of_passes h
    refine ⟨counts.packets, fun pass after hretries hrun => ?_⟩
    obtain ⟨numbering, counts⟩ := counts
    exact (pass.retried counts hretries hrun).keeps_iff counts.books
  · intro net h
    obtain ⟨registry, counts⟩ := serverCounts_of_passes h
    refine ⟨?_, counts.packets, fun pass after hretries hrun => ?_⟩
    · obtain ⟨numbering, counts⟩ := counts
      exact counts.books.side.table.requesting
    · obtain ⟨numbering, counts⟩ := counts
      exact (pass.retried counts hretries hrun).keeps_iff counts.books

/-- A client whose server is sent a request and two data transfers, and the second of them
once more, has counted four packets. -/
theorem resent_transfer_counted_twice :
    (clientPassRuns ieeeCrc32 anyPass).Reachable (.ok resendingClient) ∧
      packetsTo (.v4 0 0) (firstSent resendingClient.socket) = 3 ∧
      ¬CountsPackets resendingClient := by
  have hreachable := (reachable_anyPass keepingClient_reachable).next
    ⟨_, rfl, .shared (.retryDataTransfer fun _ => .fromSecs 600), trivial,
      keepingClient_retries.symm⟩
  have hpackets : packetsTo (.v4 0 0) (firstSent resendingClient.socket) = 3 := by decide
  refine ⟨hreachable, hpackets, fun h => ?_⟩
  have hcounted := h (.v4 0 0) ⟨sequenceAfter 4, 1, 1⟩ (.inl ⟨.one, _, rfl, rfl, rfl⟩)
  rw [hpackets] at hcounted
  contradiction

/-- Before it was sent once more, each packet was counted once. -/
theorem keepingClient_counts : CountsPackets keepingClient ∧
    ¬KeepsTrackers keepingClient resendingClient := by
  obtain ⟨hcounts, hkeeps⟩ :=
    (careful_sequences_count_packets ieeeCrc32).1 keepingClient keepingClient_reachable
  let pass : ClientPass := .shared (.retryDataTransfer fun _ => .fromSecs 600)
  refine ⟨hcounts, fun h => ?_⟩
  have hcareful := (hkeeps pass resendingClient trivial keepingClient_retries).mp h
  have hends := hcareful (secondTransfer.sent (.fromSecs 600) (.fromSecs 2)) rfl
    ⟨_, rfl, by decide⟩
  contradiction

end Antarc.Properties
