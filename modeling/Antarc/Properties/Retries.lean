import Antarc.Properties.Accounting

/-! What becomes of a stored packet. A retry takes the newest one off its list, and only
where it is due does the `sent_` call that follows put it back. -/
namespace Antarc.Properties

open Library

section Lists

variable {M : Type} {now later : Duration} {list : List (Packet Sent M)} {packet : Packet Sent M}

def again (packet : Packet Sent M) (now : Duration) : Packet ToSend M :=
  ⟨⟨packet.delivery.id, ⟨now, packet.delivery.metadata.address⟩⟩, packet.sequence, packet.ack,
    packet.message⟩

/-- The send time of a stored packet and `now` add up, to more than a thousand seconds. -/
def Due (now : Duration) (packet : Packet Sent M) : Prop :=
  ∃ sum, packet.delivery.metadata.time.add now = .ok sum ∧ sum > .fromSecs 1000

theorem retryLast_nil : retryLast now ([] : List (Packet Sent M)) = .ok (none, []) :=
  rfl

theorem retryLast_due (hlast : list.getLast? = some packet) (hdue : Due now packet) :
    retryLast now list = .ok (some (again packet now), list.dropLast) := by
  obtain ⟨sum, hsum, hlong⟩ := hdue
  unfold retryLast
  simp only [hlast, hsum, ok_bind]
  rw [if_pos hlong]
  rfl

/-- Where it is not, it is lost, unless the addition overflows. -/
theorem retryLast_not_due (hlast : list.getLast? = some packet) (hdue : ¬Due now packet) :
    retryLast now list = .ok (none, list.dropLast) ∨ retryLast now list = .error .overflow := by
  unfold retryLast
  simp only [hlast]
  cases hsum : packet.delivery.metadata.time.add now with
  | error panic =>
    unfold Duration.add at hsum
    split at hsum
    · contradiction
    · cases hsum
      exact .inr rfl
  | ok sum =>
    left
    have hshort : ¬sum > .fromSecs 1000 := fun hlong => hdue ⟨sum, hsum, hlong⟩
    rw [ok_bind, if_neg hshort]
    rfl

theorem retryLast_result {result : Option (Packet ToSend M)} {after : List (Packet Sent M)}
    (h : retryLast now list = .ok (result, after)) :
    (result = none ∧ ∀ stored, list.getLast? = some stored → ¬Due now stored) ∨
      ∃ stored, list.getLast? = some stored ∧ Due now stored ∧
        result = some (again stored now) := by
  cases hlast : list.getLast? with
  | none =>
    rw [List.getLast?_eq_none_iff.mp hlast, retryLast_nil] at h
    cases h
    exact .inl ⟨rfl, fun _ h => by contradiction⟩
  | some stored =>
    by_cases hdue : Due now stored
    · cases (retryLast_due hlast hdue).symm.trans h
      exact .inr ⟨stored, rfl, hdue, rfl⟩
    · rcases retryLast_not_due hlast hdue with htaken | hpanic
      · cases htaken.symm.trans h
        refine .inl ⟨rfl, fun other hother => ?_⟩
        rw [← Option.some.inj hother]
        exact hdue
      · cases hpanic.symm.trans h

def keyOf (packet : Packet Sent M) : PacketId × Sequence × Ack × M :=
  (packet.delivery.id, packet.sequence, packet.ack, packet.message)

/-- The same packets as before, sent at whatever time. -/
def Retains (before after : List (Packet Sent M)) : Prop :=
  (after.map keyOf : Multiset (PacketId × Sequence × Ack × M)) = before.map keyOf

theorem Retains.length (h : Retains list after) : after.length = list.length := by
  have hcard := congrArg Multiset.card h
  simpa using hcard

theorem retains_resent (hlast : list.getLast? = some packet) (ttl : Duration) :
    Retains list (list.dropLast ++ [(again packet now).sent later ttl]) := by
  have hlist : list = list.dropLast ++ [packet] := (List.dropLast_append_getLast? packet hlast).symm
  unfold Retains
  conv_rhs => rw [hlist]
  rw [List.map_append, List.map_append]
  rfl

end Lists

section Calls

variable {S M : Type}

/-- A retry and, if it returned a packet, the `sent_` call for that packet. -/
def resend (retry : Protocol S → Duration → Exec (Option (Packet ToSend M) × Protocol S))
    (account : Protocol S → Packet ToSend M → Duration → Exec (Protocol S))
    (protocol : Protocol S) (now later : Duration) : Exec (Protocol S) := do
  let (packet, protocol) ← retry protocol now
  match packet with
  | some packet => account protocol packet later
  | none => pure protocol

/-- A kind of packet that a protocol keeps for a retry: its list, the two calls on it, and
the state in which the `sent_` call returns. -/
structure Store (S M : Type) where
  list : Protocol S → List (Packet Sent M)
  put : Protocol S → List (Packet Sent M) → Protocol S
  retry : Protocol S → Duration → Exec (Option (Packet ToSend M) × Protocol S)
  account : Protocol S → Packet ToSend M → Duration → Exec (Protocol S)
  ready : Protocol S → Packet ToSend M → Duration → Prop
  list_put : ∀ protocol packets, list (put protocol packets) = packets
  retry_eq : ∀ protocol now, retry protocol now =
    (fun taken => (taken.1, put protocol taken.2)) <$> retryLast now (list protocol)
  account_iff : ∀ protocol packets packet later,
    (∃ next, account (put protocol packets) packet later = .ok next) ↔ ready protocol packet later
  list_account : ∀ protocol packet later next, account protocol packet later = .ok next →
    ∃ ttl, list next = list protocol ++ [packet.sent later ttl]

namespace Store

variable (store : Store S M) {protocol next : Protocol S} {now later : Duration}
  {packet : Packet Sent M}

/-- The two calls return, and the list holds the packets that it held. -/
def Resends (protocol : Protocol S) (now later : Duration) : Prop :=
  ∃ next, resend store.retry store.account protocol now later = .ok next ∧
    Retains (store.list protocol) (store.list next)

theorem resends_nil (hlist : store.list protocol = []) : store.Resends protocol now later := by
  refine ⟨store.put protocol [], ?_, ?_⟩
  · unfold resend
    rw [store.retry_eq, hlist, retryLast_nil]
    rfl
  · rw [store.list_put, hlist]
    rfl

theorem resends_due (hlast : (store.list protocol).getLast? = some packet) (hdue : Due now packet)
    (hready : store.ready protocol (again packet now) later) :
    store.Resends protocol now later := by
  obtain ⟨next, hnext⟩ :=
    (store.account_iff protocol (store.list protocol).dropLast _ _).mpr hready
  refine ⟨next, ?_, ?_⟩
  · unfold resend
    rw [store.retry_eq, retryLast_due hlast hdue]
    exact hnext
  · obtain ⟨ttl, hlist⟩ := store.list_account _ _ _ _ hnext
    rw [hlist, store.list_put]
    exact retains_resent hlast ttl

theorem not_resends_of_not_due (hlast : (store.list protocol).getLast? = some packet)
    (hdue : ¬Due now packet) : ¬store.Resends protocol now later := by
  rintro ⟨next, hnext, hretains⟩
  unfold resend at hnext
  rcases retryLast_not_due hlast hdue with htaken | hpanics
  · rw [store.retry_eq, htaken] at hnext
    cases hnext
    have hlength := hretains.length
    rw [store.list_put, List.length_dropLast] at hlength
    have hpositive := List.length_pos_of_mem (List.mem_of_getLast? hlast)
    omega
  · rw [store.retry_eq, hpanics] at hnext
    contradiction

theorem not_resends_of_not_ready (hlast : (store.list protocol).getLast? = some packet)
    (hdue : Due now packet) (hready : ¬store.ready protocol (again packet now) later) :
    ¬store.Resends protocol now later := by
  rintro ⟨next, hnext, -⟩
  unfold resend at hnext
  rw [store.retry_eq, retryLast_due hlast hdue] at hnext
  exact hready ((store.account_iff _ _ _ _).mp ⟨next, hnext⟩)

theorem resends_iff : store.Resends protocol now later ↔
    store.list protocol = [] ∨ ∃ packet, (store.list protocol).getLast? = some packet ∧
      Due now packet ∧ store.ready protocol (again packet now) later := by
  cases hlast : (store.list protocol).getLast? with
  | none =>
    have hnil := List.getLast?_eq_none_iff.mp hlast
    simp [hnil, store.resends_nil hnil]
  | some packet =>
    have hne : store.list protocol ≠ [] := by
      intro hnil
      rw [hnil] at hlast
      contradiction
    simp only [hne, false_or, Option.some.injEq, exists_eq_left']
    constructor
    · intro hresends
      have hdue : Due now packet := by
        by_contra hdue
        exact store.not_resends_of_not_due hlast hdue hresends
      refine ⟨hdue, ?_⟩
      by_contra hready
      exact store.not_resends_of_not_ready hlast hdue hready hresends
    · rintro ⟨hdue, hready⟩
      exact store.resends_due hlast hdue hready

end Store

end Calls

section Advances

def CanAdvance (peer : Peer Connection) : Prop :=
  peer.sequenceTracker.get.toNat + 1 < UInt32.size

theorem advance_returns_iff (peer : Peer Connection) :
    (∃ next, peer.advance = .ok next) ↔ CanAdvance peer := by
  constructor
  · rintro ⟨next, h⟩
    obtain ⟨sequence, hsequence, -⟩ := advance_eq_ok.mp h
    have hnext := NonZeroU32.checkedAdd_one hsequence
    unfold CanAdvance
    rw [← hnext]
    exact sequence.get.toNat_lt
  · intro h
    obtain ⟨sequence, hsequence⟩ := NonZeroU32.checkedAdd_one_isSome h
    exact ⟨_, advance_eq_ok.mpr ⟨sequence, hsequence, rfl⟩⟩

theorem advanceConnected_returns_iff {A B E : Type} (core : ServiceCore A B E)
    (id : ConnectionId) : (∃ next, core.advanceConnected id = .ok next) ↔
      ∀ peer, core.connected.lookup id = some peer → CanAdvance peer := by
  unfold ServiceCore.advanceConnected
  cases core.connected.lookup id with
  | none => simp [pure, Except.pure]
  | some peer =>
    simp only [Option.some.injEq, forall_eq', ← advance_returns_iff]
    constructor
    · rintro ⟨next, h⟩
      obtain ⟨advanced, hadvanced, -⟩ := bind_eq_ok.mp h
      exact ⟨advanced, hadvanced⟩
    · rintro ⟨advanced, hadvanced⟩
      exact ⟨_, bind_eq_ok.mpr ⟨advanced, hadvanced, rfl⟩⟩

end Advances

section Carriage

variable {S A B E M : Type} [Service S A B E] [Carried M]

class PromotesApart (S : Type) {A B E : outParam Type} [Service S A B E] : Prop where
  handler : ∀ (service : S) address id time,
    (Service.core (Service.promoteAwaiting service address id time)).reliabilityHandler =
      (Service.core service).reliabilityHandler
  connected : ∀ (service : S) handler address id time,
    (Service.core (Service.promoteAwaiting (Service.setCore service
      { Service.core service with reliabilityHandler := handler }) address id time)).connected =
      (Service.core (Service.promoteAwaiting service address id time)).connected

instance : PromotesApart Server where
  handler _ _ _ _ := rfl
  connected _ _ _ _ _ := rfl

instance : PromotesApart Client where
  handler client address id time := by
    change (client.promoteAwaiting address id time).reliabilityHandler = client.reliabilityHandler
    unfold Client.promoteAwaiting
    split <;> rfl
  connected client handler address id time := by
    change ({ client with reliabilityHandler := handler }.promoteAwaiting address id time).connected
      = (client.promoteAwaiting address id time).connected
    unfold Client.promoteAwaiting
    dsimp only
    cases client.awaitingConnectionAck.lookup address <;> rfl

/-- A packet of a connection can be accounted as sent: a fragment's total is not zero, and
where the packet ends its sequence, the tracker of its connected peer can move on. -/
def CanAccount (service : S) (packet : Packet ToSend M) (time : Duration) : Prop :=
  ∃ completes, Carried.completes packet.message = .ok completes ∧ (completes = true →
    ∀ peer, (Service.core (Service.promoteAwaiting service packet.delivery.metadata.address
      (Carried.connectionId packet.message) time)).connected.lookup
        (Carried.connectionId packet.message) = some peer → CanAdvance peer)

theorem sent_returns_iff (protocol : Protocol S) (packet : Packet ToSend M)
    (reliability : ReliabilityType) (now : Duration) :
    (∃ next, protocol.sent packet reliability now = .ok next) ↔
      CanAccount protocol.service packet now := by
  unfold CanAccount
  simp only [← advanceConnected_returns_iff]
  constructor
  · rintro ⟨next, h⟩
    obtain ⟨completes, core, hcompletes, hcore, -⟩ := sent_frame h
    refine ⟨completes, hcompletes, ?_⟩
    rintro rfl
    exact ⟨core, hcore⟩
  · rintro ⟨completes, hcompletes, hadvances⟩
    unfold Protocol.sent sentCarried
    dsimp only [Packet.sent]
    rw [hcompletes]
    cases completes with
    | false => exact ⟨_, rfl⟩
    | true =>
      obtain ⟨core, hcore⟩ := hadvances rfl
      simp only [ok_bind, if_true, hcore]
      exact ⟨_, rfl⟩

def carriedStore (S M : Type) {A B E : Type} [Service S A B E] [PromotesApart S] [Carried M] :
    Store S M where
  list protocol := Carried.listSent protocol.core.reliabilityHandler
  put protocol packets := protocol.setCore { protocol.core with
    reliabilityHandler := Carried.setListSent protocol.core.reliabilityHandler packets }
  retry := Protocol.retry M
  account protocol packet now := protocol.sent packet .reliable now
  ready protocol packet now := CanAccount protocol.service packet now
  list_put protocol packets := by
    simp only [Protocol.setCore, Protocol.core, Service.core_setCore, Carried.listSent_setListSent]
  retry_eq protocol now := by
    unfold Protocol.retry ReliabilityHandler.retry
    dsimp only
    cases retryLast now (Carried.listSent protocol.core.reliabilityHandler :
      List (Packet Sent M)) <;> rfl
  account_iff protocol packets packet later := by
    rw [sent_returns_iff]
    unfold CanAccount
    simp only [Protocol.setCore, Protocol.core, PromotesApart.connected]
  list_account protocol packet later next h := by
    obtain ⟨completes, core, -, hcore, rfl⟩ := sent_frame h
    obtain ⟨connected, rfl⟩ := advanced_frame hcore
    refine ⟨protocol.reliableTtl, ?_⟩
    simp only [Protocol.core, Service.core_setCore, ReliabilityHandler.keep,
      Carried.listSent_setListSent, PromotesApart.handler]

end Carriage

section Handshakes

theorem sentConnectionAccepted_returns_iff (protocol : Protocol Server)
    (packet : Packet ToSend ConnectionAccepted) (now : Duration) :
    (∃ next, protocol.sentConnectionAccepted packet now = .ok next) ↔ ∀ peer,
      protocol.service.awaitingConnectionAck.lookup packet.message.connectionId = some peer →
      CanAdvance peer := by
  constructor
  · rintro ⟨next, h⟩ peer hfound
    obtain ⟨awaiting, hawaiting, -⟩ := sentConnectionAccepted_frame h
    rcases hawaiting with ⟨hnone, -⟩ | ⟨known, advanced, hknown, hadvanced, -⟩
    · cases hfound.symm.trans hnone
    · cases hfound.symm.trans hknown
      exact (advance_returns_iff peer).mp ⟨advanced, hadvanced⟩
  · intro h
    unfold Protocol.sentConnectionAccepted Server.sentConnectionAccepted
    dsimp only [Packet.sent]
    cases hfound :
        protocol.service.awaitingConnectionAck.lookup packet.message.connectionId with
    | none => exact ⟨_, rfl⟩
    | some peer =>
      obtain ⟨advanced, hadvanced⟩ := (advance_returns_iff peer).mpr (h peer hfound)
      simp only [hadvanced, ok_bind]
      exact ⟨_, rfl⟩

theorem sentConnectionRequest_returns_iff (protocol : Protocol Client)
    (packet : Packet ToSend ConnectionRequest) (now : Duration) :
    (∃ next, protocol.sentConnectionRequest packet now = .ok next) ↔ ∃ peer,
      protocol.service.requestingConnection.lookup packet.delivery.metadata.address = some peer ∧
      CanAdvance peer := by
  constructor
  · rintro ⟨next, h⟩
    obtain ⟨peer, advanced, hfound, hadvanced, -⟩ := sentConnectionRequest_frame h
    exact ⟨peer, hfound, (advance_returns_iff peer).mp ⟨advanced, hadvanced⟩⟩
  · rintro ⟨peer, hfound, hadvances⟩
    obtain ⟨advanced, hadvanced⟩ := (advance_returns_iff peer).mpr hadvances
    unfold Protocol.sentConnectionRequest Client.sentConnectionRequest
    dsimp only [Packet.sent]
    simp only [hfound, unwrap, ok_bind, hadvanced]
    exact ⟨_, rfl⟩

def acceptStore : Store Server ConnectionAccepted where
  list protocol := protocol.service.reliabilityHandler.service.listSentConnectionAccepted
  put protocol packets := { protocol with service := { protocol.service with
    reliabilityHandler := { protocol.service.reliabilityHandler with service := ⟨packets⟩ } } }
  retry := Protocol.retryReliableConnectionAccepted
  account := Protocol.sentConnectionAccepted
  ready protocol packet _ := ∀ peer,
    protocol.service.awaitingConnectionAck.lookup packet.message.connectionId = some peer →
    CanAdvance peer
  list_put _ _ := rfl
  retry_eq protocol now := by
    unfold Protocol.retryReliableConnectionAccepted Server.retryReliableConnectionAccepted
      ServerReliabilityHandler.retryReliableConnectionAccepted
    cases retryLast now
      protocol.service.reliabilityHandler.service.listSentConnectionAccepted <;> rfl
  account_iff protocol packets packet later :=
    sentConnectionAccepted_returns_iff _ packet later
  list_account protocol packet later next h := by
    obtain ⟨awaiting, -, rfl⟩ := sentConnectionAccepted_frame h
    exact ⟨_, rfl⟩

def requestStore : Store Client ConnectionRequest where
  list protocol := protocol.service.reliabilityHandler.service.listSentConnectionRequest
  put protocol packets := { protocol with service := { protocol.service with
    reliabilityHandler := { protocol.service.reliabilityHandler with service := ⟨packets⟩ } } }
  retry := Protocol.resendReliableConnectionRequest
  account := Protocol.sentConnectionRequest
  ready protocol packet _ := ∃ peer,
    protocol.service.requestingConnection.lookup packet.delivery.metadata.address = some peer ∧
    CanAdvance peer
  list_put _ _ := rfl
  retry_eq protocol now := by
    unfold Protocol.resendReliableConnectionRequest Client.resendReliableConnectionRequest
      ClientReliabilityHandler.resendReliableConnectionRequest
    cases retryLast now
      protocol.service.reliabilityHandler.service.listSentConnectionRequest <;> rfl
  account_iff protocol packets packet later :=
    sentConnectionRequest_returns_iff _ packet later
  list_account protocol packet later next h := by
    obtain ⟨_, _, -, -, rfl⟩ := sentConnectionRequest_frame h
    exact ⟨_, rfl⟩

end Handshakes

/-- What a store retains in a state, at the times of a retry and of the `sent_` call. -/
def RetainsIffDue {S M : Type} (store : Store S M) (protocol : Protocol S)
    (now later : Duration) : Prop :=
  store.Resends protocol now later ↔
    store.list protocol = [] ∨ ∃ packet, (store.list protocol).getLast? = some packet ∧
      Due now packet ∧ store.ready protocol (again packet now) later

/-- A retry and the `sent_` call after it leave the stored packets as they were exactly where
none is stored, or where the newest one is due and can be accounted again. -/
theorem retry_retains_iff (server : Protocol Server) (client : Protocol Client)
    (now later : Duration) :
    (RetainsIffDue (carriedStore Server DataTransfer) server now later ∧
      RetainsIffDue (carriedStore Server Fragment) server now later ∧
      RetainsIffDue (carriedStore Server Heartbeat) server now later ∧
      RetainsIffDue acceptStore server now later) ∧
    RetainsIffDue (carriedStore Client DataTransfer) client now later ∧
      RetainsIffDue (carriedStore Client Fragment) client now later ∧
      RetainsIffDue (carriedStore Client Heartbeat) client now later ∧
      RetainsIffDue requestStore client now later :=
  ⟨⟨Store.resends_iff _, Store.resends_iff _, Store.resends_iff _, Store.resends_iff _⟩,
    Store.resends_iff _, Store.resends_iff _, Store.resends_iff _, Store.resends_iff _⟩

def beatingServer : Protocol Server :=
  let sent : Packet Sent Heartbeat :=
    ⟨⟨0, .fromSecs 2, ⟨.zero, .v4 1 1⟩⟩, .one, 0, .new .one⟩
  ⟨1, { Server.new with reliabilityHandler :=
    { (.new ⟨[]⟩ : ReliabilityHandler ServerReliabilityHandler) with
      listSentReliableHeartbeat := [sent] } }, .fromSecs 2⟩

/-- Its retry returns nothing a second later, and forgets the heartbeat. -/
theorem beatingServer_forgets :
    ∃ next, beatingServer.retry Heartbeat (.fromSecs 1) = .ok (none, next) ∧
      (carriedStore Server Heartbeat).list beatingServer ≠ [] ∧
      ¬Retains ((carriedStore Server Heartbeat).list beatingServer)
        ((carriedStore Server Heartbeat).list next) := by
  refine ⟨{ beatingServer with service := .new }, rfl, List.cons_ne_nil _ _, fun hretains => ?_⟩
  exact absurd hretains.length (by decide)

end Antarc.Properties
