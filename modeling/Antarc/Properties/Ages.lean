import Antarc.Properties.Retries

/-! What decides a retry. The test adds the send time to the time that it is now, where an age
would be their difference: what is returned depends on how long the clock has been running. -/
namespace Antarc.Properties

open Library

section Lists

variable {M : Type} {now later amount : Duration} {list : List (Packet Sent M)}
  {packet shifted : Packet Sent M}

/-- More than a thousand seconds, and still a time. -/
def InWindow (nanos : Nat) : Prop :=
  (Duration.fromSecs 1000).nanos < nanos ∧ nanos < 2 ^ 64 * 10 ^ 9

instance (nanos : Nat) : Decidable (InWindow nanos) :=
  inferInstanceAs (Decidable (_ ∧ _))

def sumOf (packet : Packet Sent M) (now : Duration) : Nat :=
  packet.delivery.metadata.time.nanos + now.nanos

theorem due_iff : Due now packet ↔ InWindow (sumOf packet now) := by
  unfold Due InWindow sumOf
  constructor
  · rintro ⟨sum, hsum, hlong⟩
    have heq := Duration.add_eq_ok.mp hsum
    rw [← heq]
    exact ⟨hlong, sum.inRange⟩
  · rintro ⟨hlong, hrange⟩
    exact ⟨⟨_, hrange⟩, Duration.add_eq_ok.mpr rfl, hlong⟩

def Shifted (amount : Duration) (packet shifted : Packet Sent M) : Prop :=
  shifted.delivery.metadata.time.nanos = packet.delivery.metadata.time.nanos + amount.nanos ∧
    shifted.delivery.id = packet.delivery.id ∧ shifted.delivery.ttl = packet.delivery.ttl ∧
    shifted.delivery.metadata.address = packet.delivery.metadata.address ∧
    shifted.sequence = packet.sequence ∧ shifted.ack = packet.ack ∧
    shifted.message = packet.message

def sentKey (packet : Packet ToSend M) : PacketId × SocketAddr × Sequence × Ack × M :=
  (packet.delivery.id, packet.delivery.metadata.address, packet.sequence, packet.ack,
    packet.message)

theorem Shifted.sentKey_again (h : Shifted amount packet shifted) :
    sentKey (again shifted later) = sentKey (again packet now) := by
  obtain ⟨-, hid, -, haddress, hsequence, hack, hmessage⟩ := h
  simp [sentKey, again, hid, haddress, hsequence, hack, hmessage]

theorem Shifted.sumOf (h : Shifted amount packet shifted)
    (hlater : later.nanos = now.nanos + amount.nanos) :
    sumOf shifted later = sumOf packet now + 2 * amount.nanos := by
  unfold Properties.sumOf
  rw [h.1, hlater]
  omega

theorem exists_shifted_last {other : List (Packet Sent M)}
    (h : List.Forall₂ (Shifted amount) list other) (hlast : list.getLast? = some packet) :
    ∃ shifted, other.getLast? = some shifted ∧ Shifted amount packet shifted := by
  have hreverse := List.forall₂_reverse_iff.mpr h
  rw [← List.head?_reverse] at hlast
  simp only [← List.head?_reverse]
  generalize list.reverse = first at hlast hreverse
  generalize other.reverse = second at hreverse
  cases hreverse with
  | nil => contradiction
  | cons hhead htail =>
    cases hlast
    exact ⟨_, rfl, hhead⟩

end Lists

section Calls

/-- A retry function, with the list that it takes its packet from. -/
structure RetryCall (H M : Type) where
  list : H → List (Packet Sent M)
  retry : H → Duration → Exec (Option (Packet ToSend M) × H)
  retry_eq : ∀ handler now,
    Prod.fst <$> retry handler now = Prod.fst <$> retryLast now (list handler)

variable {H M : Type} (call : RetryCall H M) {handler shifted : H} {now later amount : Duration}
  {packet : Packet Sent M} {key : PacketId × SocketAddr × Sequence × Ack × M}

namespace RetryCall

def Gives (handler : H) (now : Duration)
    (key : PacketId × SocketAddr × Sequence × Ack × M) : Prop :=
  ∃ packet next, call.retry handler now = .ok (some packet, next) ∧ sentKey packet = key

def GivesAlike (handler : H) (now : Duration) (shifted : H) (later : Duration) : Prop :=
  ∀ key, call.Gives handler now key ↔ call.Gives shifted later key

def GivesStill (handler : H) (now later : Duration) : Prop :=
  (∃ key, call.Gives handler now key) → ∃ key, call.Gives handler later key

theorem gives_iff (hlast : (call.list handler).getLast? = some packet) :
    call.Gives handler now key ↔
      InWindow (sumOf packet now) ∧ sentKey (again packet now) = key := by
  have hretry := call.retry_eq handler now
  rw [← due_iff]
  constructor
  · rintro ⟨given, next, hgiven, rfl⟩
    rw [hgiven] at hretry
    by_cases hdue : Due now packet
    · rw [retryLast_due hlast hdue] at hretry
      cases hretry
      exact ⟨hdue, rfl⟩
    · rcases retryLast_not_due hlast hdue with hnone | hpanics
      · rw [hnone] at hretry
        cases hretry
      · rw [hpanics] at hretry
        cases hretry
  · rintro ⟨hdue, rfl⟩
    rw [retryLast_due hlast hdue] at hretry
    obtain ⟨⟨given, next⟩, hgiven, hsame⟩ := map_eq_ok.mp hretry
    cases hsame
    exact ⟨_, next, hgiven, rfl⟩

/-- What decides is the sum, shifted twice where the age stays the same. -/
theorem givesAlike_iff (hlast : (call.list handler).getLast? = some packet)
    (hshifted : List.Forall₂ (Shifted amount) (call.list handler) (call.list shifted))
    (hlater : later.nanos = now.nanos + amount.nanos) :
    call.GivesAlike handler now shifted later ↔
      (InWindow (sumOf packet now) ↔ InWindow (sumOf packet now + 2 * amount.nanos)) := by
  obtain ⟨last, hother, hlast'⟩ := exists_shifted_last hshifted hlast
  have hkey : sentKey (again last later) = sentKey (again packet now) := hlast'.sentKey_again
  unfold GivesAlike
  simp only [call.gives_iff hlast, call.gives_iff hother, hkey, hlast'.sumOf hlater]
  constructor
  · intro h
    simpa using h (sentKey (again packet now))
  · intro h key
    rw [h]

theorem givesStill_iff (hlast : (call.list handler).getLast? = some packet)
    (hlater : now.nanos ≤ later.nanos) :
    call.GivesStill handler now later ↔
      (InWindow (sumOf packet now) → sumOf packet later < 2 ^ 64 * 10 ^ 9) := by
  unfold GivesStill
  simp only [call.gives_iff hlast, exists_and_left, exists_eq', and_true]
  unfold InWindow sumOf
  constructor
  · exact fun h hnow => (h hnow).2
  · intro h hnow
    refine ⟨?_, h hnow⟩
    omega

end RetryCall

/-- For a retry function: how its answer changes when all times are shifted, and as time
passes. The time of the newest packet and the time of the retry are added, and the sum is
compared with a thousand seconds. -/
def SumDecides (call : RetryCall H M) : Prop :=
  (∀ handler shifted packet amount now later, (call.list handler).getLast? = some packet →
    List.Forall₂ (Shifted amount) (call.list handler) (call.list shifted) →
    later.nanos = now.nanos + amount.nanos →
    (call.GivesAlike handler now shifted later ↔
      (InWindow (sumOf packet now) ↔ InWindow (sumOf packet now + 2 * amount.nanos)))) ∧
  ∀ handler packet now later, (call.list handler).getLast? = some packet → now.nanos ≤ later.nanos →
    (call.GivesStill handler now later ↔
      (InWindow (sumOf packet now) → sumOf packet later < 2 ^ 64 * 10 ^ 9))

theorem RetryCall.sumDecides (call : RetryCall H M) : SumDecides call :=
  ⟨fun _ _ _ _ _ _ hlast hshifted hlater => call.givesAlike_iff hlast hshifted hlater,
    fun _ _ _ _ hlast hlater => call.givesStill_iff hlast hlater⟩

end Calls

section Functions

theorem fst_retry {S M : Type} [Carried M] (handler : ReliabilityHandler S) (now : Duration) :
    Prod.fst <$> (handler.retry now : Exec (Option (Packet ToSend M) × ReliabilityHandler S)) =
      Prod.fst <$> retryLast now (Carried.listSent handler) := by
  unfold ReliabilityHandler.retry
  cases retryLast now (Carried.listSent handler : List (Packet Sent M)) <;> rfl

def transferRetry (S : Type) : RetryCall (ReliabilityHandler S) DataTransfer where
  list := ReliabilityHandler.listSentReliableDataTransfer
  retry := ReliabilityHandler.retryReliableDataTransfer
  retry_eq := fst_retry

def fragmentRetry (S : Type) : RetryCall (ReliabilityHandler S) Fragment where
  list := ReliabilityHandler.listSentReliableFragment
  retry := ReliabilityHandler.retryReliableFragment
  retry_eq := fst_retry

def heartbeatRetry (S : Type) : RetryCall (ReliabilityHandler S) Heartbeat where
  list := ReliabilityHandler.listSentReliableHeartbeat
  retry := ReliabilityHandler.retryReliableHeartbeat
  retry_eq := fst_retry

def acceptRetry : RetryCall ServerReliabilityHandler ConnectionAccepted where
  list := ServerReliabilityHandler.listSentConnectionAccepted
  retry := ServerReliabilityHandler.retryReliableConnectionAccepted
  retry_eq handler now := by
    unfold ServerReliabilityHandler.retryReliableConnectionAccepted
    cases retryLast now handler.listSentConnectionAccepted <;> rfl

def requestRetry : RetryCall ClientReliabilityHandler ConnectionRequest where
  list := ClientReliabilityHandler.listSentConnectionRequest
  retry := ClientReliabilityHandler.resendReliableConnectionRequest
  retry_eq handler now := by
    unfold ClientReliabilityHandler.resendReliableConnectionRequest
    cases retryLast now handler.listSentConnectionRequest <;> rfl

/-- All five retry functions decide by the sum of two times and not by an age. -/
theorem retries_decided_by_sum (S : Type) :
    SumDecides (transferRetry S) ∧ SumDecides (fragmentRetry S) ∧ SumDecides (heartbeatRetry S) ∧
      SumDecides acceptRetry ∧ SumDecides requestRetry :=
  ⟨RetryCall.sumDecides _, RetryCall.sumDecides _, RetryCall.sumDecides _, RetryCall.sumDecides _,
    RetryCall.sumDecides _⟩

def sentAt {M : Type} (message : M) (time : Duration) : Packet Sent M :=
  ⟨⟨0, .fromSecs 2, ⟨time, .v4 0 0⟩⟩, .one, 0, message⟩

def agedServer (time : Duration) : ReliabilityHandler ServerReliabilityHandler :=
  ⟨[sentAt (.new .one [1]) time], [sentAt (.new .one) time], [sentAt (.new .one [1] 0 2) time],
    ⟨[sentAt ⟨⟨connectionAccepted⟩, .one⟩ time]⟩⟩

def agedClient (time : Duration) : ClientReliabilityHandler :=
  ⟨[sentAt ⟨⟨connectionRequest⟩⟩ time]⟩

theorem sentAt_shifted {M : Type} (message : M) {amount time later : Duration}
    (h : later.nanos = time.nanos + amount.nanos) :
    List.Forall₂ (Shifted amount) [sentAt message time] [sentAt message later] :=
  .cons ⟨h, rfl, rfl, rfl, rfl, rfl, rfl⟩ .nil

/-- After ten minutes nothing is sent again if the clock started when the packet was sent, and
the packet is if the clock had been running for ten minutes. -/
theorem ten_minutes_differ :
    ¬(transferRetry _).GivesAlike (agedServer .zero) (.fromSecs 600)
        (agedServer (.fromSecs 600)) (.fromSecs 1200) ∧
      ¬(fragmentRetry _).GivesAlike (agedServer .zero) (.fromSecs 600)
        (agedServer (.fromSecs 600)) (.fromSecs 1200) ∧
      ¬(heartbeatRetry _).GivesAlike (agedServer .zero) (.fromSecs 600)
        (agedServer (.fromSecs 600)) (.fromSecs 1200) ∧
      ¬acceptRetry.GivesAlike (agedServer .zero).service (.fromSecs 600)
        (agedServer (.fromSecs 600)).service (.fromSecs 1200) ∧
      ¬requestRetry.GivesAlike (agedClient .zero) (.fromSecs 600)
        (agedClient (.fromSecs 600)) (.fromSecs 1200) := by
  have hdiffer : ∀ {H M : Type} (call : RetryCall H M) (handler shifted : H) (message : M),
      call.list handler = [sentAt message .zero] →
      call.list shifted = [sentAt message (.fromSecs 600)] →
      ¬call.GivesAlike handler (.fromSecs 600) shifted (.fromSecs 1200) := by
    intro H M call handler shifted message hlist hlist' halike
    have hlast : (call.list handler).getLast? = some (sentAt message .zero) := by
      rw [hlist]
      rfl
    have hshifted : List.Forall₂ (Shifted (.fromSecs 600)) (call.list handler)
        (call.list shifted) := by
      rw [hlist, hlist']
      exact sentAt_shifted message rfl
    have hwindow := (call.givesAlike_iff hlast hshifted rfl).mp halike
    change InWindow (0 + 600 * 10 ^ 9) ↔ InWindow (0 + 600 * 10 ^ 9 + 2 * (600 * 10 ^ 9)) at hwindow
    exact absurd hwindow (by decide)
  exact ⟨hdiffer _ _ _ _ rfl rfl, hdiffer _ _ _ _ rfl rfl, hdiffer _ _ _ _ rfl rfl,
    hdiffer _ _ _ _ rfl rfl, hdiffer _ _ _ _ rfl rfl⟩

/-- Once the clock has been running for long enough, the uptime makes no difference. -/
theorem long_uptimes_alike :
    (transferRetry ServerReliabilityHandler).GivesAlike (agedServer .zero) (.fromSecs 2000)
        (agedServer (.fromSecs 600)) (.fromSecs 2600) ∧
      requestRetry.GivesStill (agedClient .zero) (.fromSecs 2000) (.fromSecs 2600) := by
  obtain ⟨⟨hshift, -⟩, -, -, -, -, hlater⟩ := retries_decided_by_sum ServerReliabilityHandler
  constructor
  · refine (hshift _ _ (sentAt (.new .one [1]) .zero) (.fromSecs 600) _ _ rfl
      (sentAt_shifted _ rfl) rfl).mpr ?_
    change InWindow (0 + 2000 * 10 ^ 9) ↔ InWindow (0 + 2000 * 10 ^ 9 + 2 * (600 * 10 ^ 9))
    decide
  · refine (hlater _ (sentAt ⟨⟨connectionRequest⟩⟩ .zero) _ _ rfl (by decide)).mpr fun _ => ?_
    change 0 + 2600 * 10 ^ 9 < 2 ^ 64 * 10 ^ 9
    omega

end Functions

end Antarc.Properties
