import Antarc.Properties.Receiving
import Antarc.Properties.Scheduling

/-! An operation of the protocol that returns an error has changed nothing. -/
namespace Antarc.Properties

open Library

section Calls

variable {S A B E : Type} [Service S A B E] (hash : RandomState) (reliability : ReliabilityType)
  (sendTo : SendTo) (now : Duration)

theorem atomic_schedule (payload : Payload) :
    Atomic fun protocol : Protocol S => protocol.schedule hash reliability sendTo payload now := by
  intro protocol next error h
  rcases schedule_cases h with ⟨_, -, hsame⟩ | ⟨_, _, -, -, -, hok, -⟩
  · exact hsame
  · contradiction

theorem atomic_heartbeat :
    Atomic fun protocol : Protocol S => protocol.heartbeat hash reliability sendTo now := by
  intro protocol next error h
  rcases heartbeat_cases h with ⟨_, -, hsame⟩ | ⟨_, _, -, -, -, hok, -⟩
  · exact hsame
  · contradiction

end Calls

theorem atomic_connect (remoteAddress : SocketAddr) (now : Duration) :
    Atomic fun protocol : Protocol Client => protocol.connect remoteAddress now := by
  intro protocol next error h
  rcases connect_cases h with ⟨_, -, hsame⟩ | ⟨_, -, -, hok, -⟩
  · exact hsame
  · contradiction

theorem atomic_serverReceived (crc32 : Crc32) (hash : RandomState) (raw : RawPacket)
    (now : Duration) :
    Atomic fun protocol : Protocol Server => protocol.serverReceived crc32 hash raw now := by
  intro protocol next error h
  obtain ⟨answered, hreceived, hrefused⟩ := serverReceived_onReceived h
  obtain ⟨rfl, hnext⟩ := hrefused error rfl
  rcases server_onReceived_cases hreceived with hsame | ⟨_, _, -, -, hok, -⟩ | ⟨_, -, hok, -⟩
  · rw [hnext, hsame]
  · contradiction
  · contradiction

theorem atomic_clientReceived (crc32 : Crc32) (raw : RawPacket) (now : Duration) :
    Atomic fun protocol : Protocol Client => protocol.clientReceived crc32 raw now := by
  intro protocol next error h
  obtain ⟨⟨result, service⟩, hreceived, h⟩ := bind_eq_ok.mp h
  cases h
  rcases client_onReceived_cases hreceived with hsame | ⟨_, -, hok, -⟩
  · rw [hsame]
  · contradiction

/-- Every operation that can return an error leaves the whole protocol as it was when it
does: the connection maps, queues, stored packets, events and both counters. -/
theorem failing_operations_are_atomic :
    (∀ hash reliability sendTo payload now,
      Atomic (fun protocol : Protocol Server =>
        protocol.schedule hash reliability sendTo payload now) ∧
      Atomic (fun protocol : Protocol Client =>
        protocol.schedule hash reliability sendTo payload now)) ∧
    (∀ hash reliability sendTo now,
      Atomic (fun protocol : Protocol Server => protocol.heartbeat hash reliability sendTo now) ∧
      Atomic (fun protocol : Protocol Client => protocol.heartbeat hash reliability sendTo now)) ∧
    (∀ remoteAddress now,
      Atomic (fun protocol : Protocol Client => protocol.connect remoteAddress now)) ∧
    (∀ crc32 hash raw now,
      Atomic (fun protocol : Protocol Server => protocol.serverReceived crc32 hash raw now)) ∧
    (∀ crc32 raw now,
      Atomic (fun protocol : Protocol Client => protocol.clientReceived crc32 raw now)) := by
  refine ⟨?_, ?_, ?_, ?_, ?_⟩
  · intro hash reliability sendTo payload now
    exact ⟨atomic_schedule hash reliability sendTo now payload,
      atomic_schedule hash reliability sendTo now payload⟩
  · intro hash reliability sendTo now
    exact ⟨atomic_heartbeat hash reliability sendTo now,
      atomic_heartbeat hash reliability sendTo now⟩
  · exact atomic_connect
  · exact atomic_serverReceived
  · exact atomic_clientReceived

end Antarc.Properties
