import Antarc.Protocol.Operations

/-! What a poll of the handler takes. It looks at the heads of its lists, adds up the times
of the packets there, and drops them whatever the sums are; the heartbeats it never looks at. -/
namespace Antarc.Properties

open Library

section Expiries

variable {M : Type} {now : Duration}

def expiryOf (packet : Packet Sent M) : Duration × Duration :=
  (packet.delivery.metadata.time, packet.delivery.ttl)

/-- The sum of the time and the ttl is a time. -/
def InRange (expiry : Duration × Duration) : Prop :=
  expiry.1.nanos + expiry.2.nanos < 2 ^ 64 * 10 ^ 9

def Past (now : Duration) (expiry : Duration × Duration) : Prop :=
  expiry.1.nanos + expiry.2.nanos ≤ now.nanos

instance (expiry : Duration × Duration) : Decidable (InRange expiry) :=
  inferInstanceAs (Decidable (_ < _))

instance (now : Duration) (expiry : Duration × Duration) : Decidable (Past now expiry) :=
  inferInstanceAs (Decidable (_ ≤ _))

theorem Past.inRange {expiry : Duration × Duration} (h : Past now expiry) : InRange expiry :=
  Nat.lt_of_le_of_lt h now.inRange

theorem add_eq_ok_iff_inRange {a b : Duration} : (∃ sum, a.add b = .ok sum) ↔ InRange (a, b) := by
  unfold Duration.add InRange
  split
  · next h => exact iff_of_true ⟨_, rfl⟩ h
  · next h => exact iff_of_false (by simp) h

/-- The oldest packet is taken for expired as soon as there is one whose times add up. -/
theorem firstExpires_eq_ok {list : List (Packet Sent M)} {expires : Bool} :
    firstExpires now list = .ok expires ↔
      (∀ packet ∈ list.head?, InRange (expiryOf packet)) ∧ expires = !list.isEmpty := by
  constructor
  · intro h
    obtain ⟨tested, htested, h⟩ := bind_eq_ok.mp h
    cases h
    cases list with
    | nil =>
      cases htested
      exact ⟨fun _ hnone => by contradiction, rfl⟩
    | cons packet rest =>
      obtain ⟨test, htest, htested⟩ := bind_eq_ok.mp htested
      obtain ⟨sum, hsum, -⟩ := bind_eq_ok.mp htest
      cases htested
      refine ⟨fun _ hhead => ?_, rfl⟩
      cases hhead
      exact add_eq_ok_iff_inRange.mp ⟨sum, hsum⟩
  · rintro ⟨hrange, rfl⟩
    cases list with
    | nil => rfl
    | cons packet rest =>
      obtain ⟨sum, hsum⟩ := add_eq_ok_iff_inRange.mpr (hrange packet rfl)
      refine bind_eq_ok.mpr ⟨some (if sum > now then some () else none), ?_, rfl⟩
      exact bind_eq_ok.mpr ⟨_, bind_eq_ok.mpr ⟨sum, hsum, rfl⟩, rfl⟩

end Expiries

section Handshakes

/-- The service's part of the handler keeps the packets of one kind, and polls them as the
handler polls its own. -/
class Handshaking (S : Type) (M : outParam Type) [ServiceReliability S] where
  listSent : S → List (Packet Sent M)
  ofList : List (Packet Sent M) → S
  listSent_ofList : ∀ list, listSent (ofList list) = list
  poll_eq_ok : ∀ {handler next : S} {now : Duration},
    ServiceReliability.poll handler now = .ok next ↔
      (∀ packet ∈ (listSent handler).head?, InRange (expiryOf packet)) ∧
        next = ofList (listSent handler).tail

attribute [simp] Handshaking.listSent_ofList

theorem ifExpires_eq_ok {M : Type} {now : Duration} {list : List (Packet Sent M)}
    {dropped kept final : σ} (hempty : list = [] → kept = dropped) :
    (do if ← firstExpires now list then pure dropped else pure kept : Exec σ) = .ok final ↔
      (∀ packet ∈ list.head?, InRange (expiryOf packet)) ∧ final = dropped := by
  rw [bind_eq_ok]
  constructor
  · rintro ⟨expires, hexpires, h⟩
    obtain ⟨hrange, rfl⟩ := firstExpires_eq_ok.mp hexpires
    refine ⟨hrange, ?_⟩
    cases list with
    | nil =>
      cases h
      exact hempty rfl
    | cons packet rest =>
      cases h
      rfl
  · rintro ⟨hrange, rfl⟩
    refine ⟨_, firstExpires_eq_ok.mpr ⟨hrange, rfl⟩, ?_⟩
    cases list with
    | nil =>
      rw [hempty rfl]
      rfl
    | cons packet rest => rfl

instance : Handshaking ServerReliabilityHandler ConnectionAccepted where
  listSent := ServerReliabilityHandler.listSentConnectionAccepted
  ofList list := ⟨list⟩
  listSent_ofList _ := rfl
  poll_eq_ok {handler _ _} := by
    apply ifExpires_eq_ok
    intro h
    cases handler
    cases h
    rfl

instance : Handshaking ClientReliabilityHandler ConnectionRequest where
  listSent := ClientReliabilityHandler.listSentConnectionRequest
  ofList list := ⟨list⟩
  listSent_ofList _ := rfl
  poll_eq_ok {handler _ _} := by
    apply ifExpires_eq_ok
    intro h
    cases handler
    cases h
    rfl

theorem serverHandler_poll {handler next : ServerReliabilityHandler} {now : Duration}
    (h : ServiceReliability.poll handler now = .ok next) :
    next.listSentConnectionAccepted = handler.listSentConnectionAccepted.tail :=
  congrArg ServerReliabilityHandler.listSentConnectionAccepted (Handshaking.poll_eq_ok.mp h).2

theorem clientHandler_poll {handler next : ClientReliabilityHandler} {now : Duration}
    (h : ServiceReliability.poll handler now = .ok next) :
    next.listSentConnectionRequest = handler.listSentConnectionRequest.tail :=
  congrArg ClientReliabilityHandler.listSentConnectionRequest (Handshaking.poll_eq_ok.mp h).2

end Handshakes

section Heads

variable {S : Type} {handler next : ReliabilityHandler S} {now : Duration}

def headExpiry {M : Type} (list : List (Packet Sent M)) : List (Duration × Duration) :=
  (list.head?.map expiryOf).toList

theorem forall_headExpiry {M : Type} {list : List (Packet Sent M)}
    {holds : Duration × Duration → Prop} :
    (∀ head ∈ headExpiry list, holds head) ↔ ∀ packet ∈ list.head?, holds (expiryOf packet) := by
  cases list with
  | nil => simp [headExpiry]
  | cons packet rest => simp [headExpiry]

/-- The heads of the two lists that are looked at: of the fragments only while no data transfer
is kept. -/
def listHeads (handler : ReliabilityHandler S) : List (Duration × Duration) :=
  match handler.listSentReliableDataTransfer with
  | [] => headExpiry handler.listSentReliableFragment
  | packet :: _ => [expiryOf packet]

def dropListHeads (handler : ReliabilityHandler S) : ReliabilityHandler S :=
  match handler.listSentReliableDataTransfer with
  | [] => { handler with listSentReliableFragment := handler.listSentReliableFragment.tail }
  | _ :: rest => { handler with listSentReliableDataTransfer := rest }

@[simp] theorem dropListHeads_service : (dropListHeads handler).service = handler.service := by
  unfold dropListHeads
  split <;> rfl

@[simp] theorem dropListHeads_transfers : (dropListHeads handler).listSentReliableDataTransfer =
    handler.listSentReliableDataTransfer.tail := by
  unfold dropListHeads
  split
  · next h => simp [h]
  · next h => simp [h]

@[simp] theorem dropListHeads_heartbeats :
    (dropListHeads handler).listSentReliableHeartbeat = handler.listSentReliableHeartbeat := by
  unfold dropListHeads
  split <;> rfl

@[simp] theorem dropListHeads_fragments : (dropListHeads handler).listSentReliableFragment =
    handler.listSentReliableFragment.drop (1 - handler.listSentReliableDataTransfer.length) := by
  unfold dropListHeads
  split
  · next h => simp [h]
  · next h => simp [h]

theorem dropListHeads_subset {α : Type} (onTransfer : Packet Sent DataTransfer → α)
    (onHeartbeat : Packet Sent Heartbeat → α) (onFragment : Packet Sent Fragment → α) :
    (dropListHeads handler).listSentReliableDataTransfer.map onTransfer ++
        (dropListHeads handler).listSentReliableHeartbeat.map onHeartbeat ++
        (dropListHeads handler).listSentReliableFragment.map onFragment ⊆
      handler.listSentReliableDataTransfer.map onTransfer ++
        handler.listSentReliableHeartbeat.map onHeartbeat ++
        handler.listSentReliableFragment.map onFragment := by
  intro item
  simp only [dropListHeads_transfers, dropListHeads_heartbeats, dropListHeads_fragments,
    List.mem_append]
  rintro ((hmem | hmem) | hmem)
  · exact .inl (.inl (List.map_subset _ (List.tail_subset _) hmem))
  · exact .inl (.inr hmem)
  · exact .inr (List.map_subset _ (List.drop_subset _ _) hmem)

theorem dropExpired_eq_ok : handler.dropExpired now = .ok next ↔
    (∀ head ∈ listHeads handler, InRange head) ∧ next = dropListHeads handler := by
  obtain ⟨transfers, heartbeats, fragments, service⟩ := handler
  cases transfers with
  | nil =>
    have hnone : firstExpires now ([] : List (Packet Sent DataTransfer)) = .ok false := rfl
    simp only [ReliabilityHandler.dropExpired, hnone, ok_bind]
    refine (ifExpires_eq_ok fun h => ?_).trans (and_congr_left' forall_headExpiry.symm)
    cases h
    rfl
  | cons packet rest =>
    unfold ReliabilityHandler.dropExpired
    rw [bind_eq_ok]
    constructor
    · rintro ⟨expires, hexpires, h⟩
      obtain ⟨hrange, rfl⟩ := firstExpires_eq_ok.mp hexpires
      cases h
      exact ⟨List.forall_mem_singleton.mpr (hrange packet rfl), rfl⟩
    · rintro ⟨hrange, rfl⟩
      refine ⟨true, firstExpires_eq_ok.mpr ⟨fun _ hhead => ?_, rfl⟩, rfl⟩
      cases hhead
      exact List.forall_mem_singleton.mp hrange

variable {M : Type} [ServiceReliability S] [Handshaking S M]

def testedHeads (handler : ReliabilityHandler S) : List (Duration × Duration) :=
  listHeads handler ++ headExpiry (Handshaking.listSent handler.service)

def dropHeads (handler : ReliabilityHandler S) : ReliabilityHandler S :=
  { dropListHeads handler with
    service := Handshaking.ofList (Handshaking.listSent handler.service).tail }

@[simp] theorem dropHeads_transfers : (dropHeads handler).listSentReliableDataTransfer =
    handler.listSentReliableDataTransfer.tail :=
  dropListHeads_transfers

@[simp] theorem dropHeads_heartbeats :
    (dropHeads handler).listSentReliableHeartbeat = handler.listSentReliableHeartbeat :=
  dropListHeads_heartbeats

@[simp] theorem dropHeads_fragments : (dropHeads handler).listSentReliableFragment =
    handler.listSentReliableFragment.drop (1 - handler.listSentReliableDataTransfer.length) :=
  dropListHeads_fragments

@[simp] theorem dropHeads_handshakes : Handshaking.listSent (dropHeads handler).service =
    (Handshaking.listSent handler.service).tail :=
  Handshaking.listSent_ofList _

theorem handlerPoll_eq_ok : handler.poll now = .ok next ↔
    (∀ head ∈ testedHeads handler, InRange head) ∧ next = dropHeads handler := by
  unfold ReliabilityHandler.poll
  rw [bind_eq_ok, testedHeads, List.forall_mem_append, forall_headExpiry]
  simp only [bind_eq_ok, Handshaking.poll_eq_ok, dropExpired_eq_ok]
  constructor
  · rintro ⟨_, ⟨hlists, rfl⟩, _, ⟨hservice, rfl⟩, h⟩
    cases h
    exact ⟨⟨hlists, fun packet hhead => hservice packet (by rwa [dropListHeads_service])⟩,
      by rw [dropHeads, dropListHeads_service]⟩
  · rintro ⟨⟨hlists, hservice⟩, rfl⟩
    refine ⟨_, ⟨hlists, rfl⟩, _, ⟨fun packet hhead => hservice packet ?_, rfl⟩, ?_⟩
    · rwa [dropListHeads_service] at hhead
    · rw [dropListHeads_service]
      rfl

end Heads

section Unexpired

variable {M : Type} {now : Duration} {list : List (Packet Sent M)}

/-- What is left of a list is in order, and all packets whose ttl is not over are left. -/
def KeepsUnexpired (now : Duration) (before after : List (Packet Sent M)) : Prop :=
  after.Sublist before ∧
    after.filter (fun packet => !decide (Past now (expiryOf packet))) =
      before.filter fun packet => !decide (Past now (expiryOf packet))

theorem KeepsUnexpired.refl (now : Duration) (list : List (Packet Sent M)) :
    KeepsUnexpired now list list :=
  ⟨.refl _, rfl⟩

theorem keepsUnexpired_tail_iff :
    KeepsUnexpired now list list.tail ↔ ∀ head ∈ headExpiry list, Past now head := by
  rw [forall_headExpiry]
  cases list with
  | nil => simp [KeepsUnexpired.refl]
  | cons packet rest =>
    simp only [List.head?_cons, Option.mem_some, forall_eq', List.tail_cons]
    constructor
    · rintro ⟨-, hfilter⟩
      by_contra hlasts
      rw [List.filter_cons_of_pos (by simp [hlasts])] at hfilter
      exact absurd hfilter (List.ne_cons_self)
    · intro hpast
      refine ⟨List.sublist_cons_self _ _, ?_⟩
      rw [List.filter_cons_of_neg (by simp [hpast])]

variable {S : Type} [ServiceReliability S] [Handshaking S M]

structure PollKeepsUnexpired (now : Duration) (before after : ReliabilityHandler S) : Prop where
  transfers : KeepsUnexpired now before.listSentReliableDataTransfer
    after.listSentReliableDataTransfer
  heartbeats : KeepsUnexpired now before.listSentReliableHeartbeat after.listSentReliableHeartbeat
  fragments : KeepsUnexpired now before.listSentReliableFragment after.listSentReliableFragment
  handshakes : KeepsUnexpired now (Handshaking.listSent before.service)
    (Handshaking.listSent after.service)

theorem pollKeepsUnexpired_iff {handler next : ReliabilityHandler S}
    (h : handler.poll now = .ok next) :
    PollKeepsUnexpired now handler next ↔ ∀ head ∈ testedHeads handler, Past now head := by
  obtain ⟨-, rfl⟩ := handlerPoll_eq_ok.mp h
  have hhandshakes : Handshaking.listSent (dropHeads handler).service = _ := dropHeads_handshakes
  rw [testedHeads, List.forall_mem_append, ← keepsUnexpired_tail_iff, ← hhandshakes]
  clear hhandshakes
  obtain ⟨transfers, heartbeats, fragments, service⟩ := handler
  cases transfers with
  | nil =>
    constructor
    · intro hkeeps
      exact ⟨keepsUnexpired_tail_iff.mp hkeeps.fragments, hkeeps.handshakes⟩
    · rintro ⟨hheads, hservice⟩
      exact ⟨.refl _ _, .refl _ _, keepsUnexpired_tail_iff.mpr hheads, hservice⟩
  | cons packet rest =>
    have hhead : KeepsUnexpired now (packet :: rest) rest ↔
        ∀ head ∈ [expiryOf packet], Past now head := keepsUnexpired_tail_iff
    constructor
    · intro hkeeps
      exact ⟨hhead.mp hkeeps.transfers, hkeeps.handshakes⟩
    · rintro ⟨hheads, hservice⟩
      exact ⟨hhead.mpr hheads, .refl _ _, .refl _ _, hservice⟩

/-- A poll loses only packets whose ttl is over exactly when the ttl of every head that it
looks at is over. -/
theorem poll_keeps_unexpired_iff (now : Duration) :
    (∀ handler next : ReliabilityHandler ServerReliabilityHandler, handler.poll now = .ok next →
      (PollKeepsUnexpired now handler next ↔ ∀ head ∈ testedHeads handler, Past now head)) ∧
    ∀ handler next : ReliabilityHandler ClientReliabilityHandler, handler.poll now = .ok next →
      (PollKeepsUnexpired now handler next ↔ ∀ head ∈ testedHeads handler, Past now head) :=
  ⟨fun _ _ h => pollKeepsUnexpired_iff h, fun _ _ h => pollKeepsUnexpired_iff h⟩

def keptTransfer : Packet Sent DataTransfer :=
  ⟨⟨0, .fromSecs 2, ⟨.zero, .v4 0 0⟩⟩, .one, 0, .new .one [1]⟩

def keptAtServer : ReliabilityHandler ServerReliabilityHandler :=
  ⟨[keptTransfer], [], [], ⟨[]⟩⟩

def keptAtClient : ReliabilityHandler ClientReliabilityHandler :=
  ⟨[keptTransfer], [], [], ⟨[]⟩⟩

theorem keptTransfer_heads : testedHeads keptAtServer = [expiryOf keptTransfer] ∧
    testedHeads keptAtClient = [expiryOf keptTransfer] :=
  ⟨rfl, rfl⟩

theorem keptTransfer_polled (now : Duration) :
    keptAtServer.poll now = .ok ⟨[], [], [], ⟨[]⟩⟩ ∧
      keptAtClient.poll now = .ok ⟨[], [], [], ⟨[]⟩⟩ := by
  have hheads : ∀ head ∈ [expiryOf keptTransfer], InRange head := by
    decide
  constructor
  · exact handlerPoll_eq_ok.mpr ⟨by rwa [keptTransfer_heads.1], rfl⟩
  · exact handlerPoll_eq_ok.mpr ⟨by rwa [keptTransfer_heads.2], rfl⟩

/-- The first poll drops it in the moment in which it was sent. -/
theorem keptTransfer_dropped :
    (∃ next, keptAtServer.poll .zero = .ok next ∧ ¬PollKeepsUnexpired .zero keptAtServer next) ∧
      ∃ next, keptAtClient.poll .zero = .ok next ∧ ¬PollKeepsUnexpired .zero keptAtClient next := by
  have hlasts : ¬∀ head ∈ [expiryOf keptTransfer], Past .zero head := by decide
  obtain ⟨hserver, hclient⟩ := keptTransfer_polled .zero
  exact ⟨⟨_, hserver, fun h => hlasts ((pollKeepsUnexpired_iff hserver).mp h)⟩,
    _, hclient, fun h => hlasts ((pollKeepsUnexpired_iff hclient).mp h)⟩

theorem keptTransfer_expired :
    (∃ next, keptAtServer.poll (.fromSecs 2) = .ok next ∧
      PollKeepsUnexpired (.fromSecs 2) keptAtServer next) ∧
    ∃ next, keptAtClient.poll (.fromSecs 2) = .ok next ∧
      PollKeepsUnexpired (.fromSecs 2) keptAtClient next := by
  have hpast : ∀ head ∈ [expiryOf keptTransfer], Past (.fromSecs 2) head := by decide
  obtain ⟨hserver, hclient⟩ := keptTransfer_polled (.fromSecs 2)
  obtain ⟨hiff, hiff'⟩ := poll_keeps_unexpired_iff (.fromSecs 2)
  exact ⟨⟨_, hserver, (hiff _ _ hserver).mpr hpast⟩, _, hclient, (hiff' _ _ hclient).mpr hpast⟩

end Unexpired

section Exhaustion

variable {S M : Type} [ServiceReliability S] [Handshaking S M] {handler : ReliabilityHandler S}
  {now : Duration}

def keptCount (handler : ReliabilityHandler S) : Nat :=
  handler.listSentReliableDataTransfer.length + handler.listSentReliableFragment.length +
    handler.listSentReliableHeartbeat.length + (Handshaking.listSent handler.service).length

structure AllPast (now : Duration) (handler : ReliabilityHandler S) : Prop where
  transfers : ∀ packet ∈ handler.listSentReliableDataTransfer, Past now (expiryOf packet)
  heartbeats : ∀ packet ∈ handler.listSentReliableHeartbeat, Past now (expiryOf packet)
  fragments : ∀ packet ∈ handler.listSentReliableFragment, Past now (expiryOf packet)
  handshakes : ∀ packet ∈ Handshaking.listSent handler.service, Past now (expiryOf packet)

structure KeepsNothing (handler : ReliabilityHandler S) : Prop where
  transfers : handler.listSentReliableDataTransfer = []
  heartbeats : handler.listSentReliableHeartbeat = []
  fragments : handler.listSentReliableFragment = []
  handshakes : Handshaking.listSent handler.service = []

/-- As many polls at one time as there are packets leave none. -/
def Exhausts (now : Duration) (handler : ReliabilityHandler S) : Prop :=
  ∃ after, iterateM (fun handler => handler.poll now) (keptCount handler) handler = .ok after ∧
    KeepsNothing after

theorem AllPast.testedHeads (h : AllPast now handler) :
    ∀ head ∈ testedHeads handler, Past now head := by
  rw [Properties.testedHeads, List.forall_mem_append, forall_headExpiry, listHeads]
  refine ⟨?_, fun packet hhead => h.handshakes packet (List.mem_of_head? hhead)⟩
  split
  · rw [forall_headExpiry]
    exact fun packet hhead => h.fragments packet (List.mem_of_head? hhead)
  · next packet rest hlist =>
    rw [List.forall_mem_singleton]
    exact h.transfers packet (hlist ▸ List.mem_cons_self)

theorem AllPast.poll (h : AllPast now handler) :
    handler.poll now = .ok (dropHeads handler) ∧ AllPast now (dropHeads handler) := by
  constructor
  · exact handlerPoll_eq_ok.mpr ⟨fun head hmem => (h.testedHeads head hmem).inRange, rfl⟩
  · constructor
    · rw [dropHeads_transfers]
      exact fun packet hmem => h.transfers packet (List.mem_of_mem_tail hmem)
    · rw [dropHeads_heartbeats]
      exact h.heartbeats
    · rw [dropHeads_fragments]
      exact fun packet hmem => h.fragments packet (List.mem_of_mem_drop hmem)
    · rw [dropHeads_handshakes]
      exact fun packet hmem => h.handshakes packet (List.mem_of_mem_tail hmem)

/-- The fragments have to wait until no data transfer is left. -/
theorem iterate_dropHeads (count : Nat) (handler : ReliabilityHandler S) :
    (dropHeads^[count] handler).listSentReliableDataTransfer =
        handler.listSentReliableDataTransfer.drop count ∧
      (dropHeads^[count] handler).listSentReliableHeartbeat = handler.listSentReliableHeartbeat ∧
      (dropHeads^[count] handler).listSentReliableFragment = handler.listSentReliableFragment.drop
        (count - handler.listSentReliableDataTransfer.length) ∧
      Handshaking.listSent (dropHeads^[count] handler).service =
        (Handshaking.listSent handler.service).drop count := by
  induction count with
  | zero => simp
  | succ count ih =>
    obtain ⟨htransfers, hheartbeats, hfragments, hhandshakes⟩ := ih
    rw [Function.iterate_succ_apply']
    refine ⟨?_, ?_, ?_, ?_⟩
    · rw [dropHeads_transfers, htransfers, List.tail_drop]
    · rw [dropHeads_heartbeats, hheartbeats]
    · rw [dropHeads_fragments, htransfers, hfragments, List.drop_drop, List.length_drop]
      congr 1
      omega
    · rw [dropHeads_handshakes, hhandshakes, List.tail_drop]

theorem exhausts_iff (h : AllPast now handler) :
    Exhausts now handler ↔ handler.listSentReliableHeartbeat = [] := by
  have hrun := iterateM_eq_iterate (AllPast now) (fun _ => AllPast.poll) (keptCount handler) h
  obtain ⟨htransfers, hheartbeats, hfragments, hhandshakes⟩ :=
    iterate_dropHeads (keptCount handler) handler
  constructor
  · rintro ⟨after, hafter, hnothing⟩
    cases hrun.symm.trans hafter
    rw [← hheartbeats]
    exact hnothing.heartbeats
  · intro hnone
    refine ⟨_, hrun, ⟨?_, hheartbeats.trans hnone, ?_, ?_⟩⟩
    · rw [htransfers, List.drop_eq_nil_iff, keptCount]
      omega
    · rw [hfragments, List.drop_eq_nil_iff, keptCount]
      omega
    · rw [hhandshakes, List.drop_eq_nil_iff, keptCount]
      omega

/-- Polls that come late enough leave no packet exactly when no heartbeat was kept. -/
theorem expired_packets_leave_iff (now : Duration) :
    (∀ handler : ReliabilityHandler ServerReliabilityHandler, AllPast now handler →
      (Exhausts now handler ↔ handler.listSentReliableHeartbeat = [])) ∧
    ∀ handler : ReliabilityHandler ClientReliabilityHandler, AllPast now handler →
      (Exhausts now handler ↔ handler.listSentReliableHeartbeat = []) :=
  ⟨fun _ h => exhausts_iff h, fun _ h => exhausts_iff h⟩

def keptHeartbeat : Packet Sent Heartbeat :=
  ⟨⟨0, .fromSecs 2, ⟨.zero, .v4 0 0⟩⟩, .one, 0, .new .one⟩

def beatAtServer : ReliabilityHandler ServerReliabilityHandler :=
  ⟨[], [keptHeartbeat], [], ⟨[]⟩⟩

def beatAtClient : ReliabilityHandler ClientReliabilityHandler :=
  ⟨[], [keptHeartbeat], [], ⟨[]⟩⟩

theorem keptHeartbeat_stays :
    (AllPast (.fromSecs 2) beatAtServer ∧ ¬Exhausts (.fromSecs 2) beatAtServer) ∧
      AllPast (.fromSecs 2) beatAtClient ∧ ¬Exhausts (.fromSecs 2) beatAtClient := by
  have hpast : ∀ packet ∈ [keptHeartbeat], Past (.fromSecs 2) (expiryOf packet) := by decide
  have hserver : AllPast (.fromSecs 2) beatAtServer :=
    ⟨List.forall_mem_nil _, hpast, List.forall_mem_nil _, List.forall_mem_nil _⟩
  have hclient : AllPast (.fromSecs 2) beatAtClient :=
    ⟨List.forall_mem_nil _, hpast, List.forall_mem_nil _, List.forall_mem_nil _⟩
  refine ⟨⟨hserver, fun h => ?_⟩, hclient, fun h => ?_⟩
  · exact List.cons_ne_nil _ _ ((exhausts_iff hserver).mp h)
  · exact List.cons_ne_nil _ _ ((exhausts_iff hclient).mp h)

theorem keptTransfer_leaves :
    Exhausts (.fromSecs 2) keptAtServer ∧ Exhausts (.fromSecs 2) keptAtClient := by
  have hpast : ∀ packet ∈ [keptTransfer], Past (.fromSecs 2) (expiryOf packet) := by decide
  have hserver : AllPast (.fromSecs 2) keptAtServer :=
    ⟨hpast, List.forall_mem_nil _, List.forall_mem_nil _, List.forall_mem_nil _⟩
  have hclient : AllPast (.fromSecs 2) keptAtClient :=
    ⟨hpast, List.forall_mem_nil _, List.forall_mem_nil _, List.forall_mem_nil _⟩
  obtain ⟨hiff, hiff'⟩ := expired_packets_leave_iff (.fromSecs 2)
  exact ⟨(hiff _ hserver).mpr rfl, (hiff' _ hclient).mpr rfl⟩

end Exhaustion

end Antarc.Properties
