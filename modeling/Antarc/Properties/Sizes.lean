import Antarc.Properties.Arrival
import Antarc.Properties.Broadcast

/-! The length of what is sent for a payload. The protocol id is counted in the header and
left off the wire, the checksum is on the wire and not counted, and the two are of one
length: a chunk that fills a fragment fills the datagram. -/
namespace Antarc.Properties

open Library

section Lengths

variable {R M S A B E : Type} [Service S A B E] {crc32 : Crc32}

/-- Whatever becomes of the protocol until then, the packet that is built from the entry is
encoded in so many bytes. -/
def EncodesTo [Message M] (crc32 : Crc32)
    (create : Protocol S → Scheduled R M → Duration → Exec (Packet ToSend M))
    (entry : Scheduled R M) (fits : Nat → Prop) : Prop :=
  ∀ later now packet, create later entry now = .ok packet →
    ∀ raw, packet.asRaw crc32 = .ok raw → fits raw.bytes.length

/-- Nothing empty is queued, and no datagram is too long. -/
def EntriesFit [Message M] (crc32 : Crc32) (payload : M → Payload)
    (create : Protocol S → Scheduled R M → Duration → Exec (Packet ToSend M))
    (entries : List (Scheduled R M)) : Prop :=
  ∀ entry ∈ entries, payload entry.message ≠ [] ∧
    EncodesTo crc32 create entry (· ≤ maxFragmentSize)

/-- Of the fragments for one connection all but the last fill their datagram. -/
def GroupsFill (crc32 : Crc32)
    (create : Protocol S → Scheduled R Fragment → Duration → Exec (Packet ToSend Fragment))
    (entries : List (Scheduled R Fragment)) : Prop :=
  ∀ id, ∀ entry ∈ (entriesAt id entries).dropLast,
    EncodesTo crc32 create entry (· = maxFragmentSize)

structure AppendedFit (S : Type) {A B E : Type} [Service S A B E] (crc32 : Crc32)
    (before after : Scheduler A) : Prop where
  extends_queues : Extends before after
  reliableTransfers : EntriesFit crc32 DataTransfer.payload
    (Protocol.createReliableDataTransfer (S := S))
    (appended before after).listScheduledReliableDataTransfer
  unreliableTransfers : EntriesFit crc32 DataTransfer.payload
    (Protocol.createUnreliableDataTransfer (S := S))
    (appended before after).listScheduledUnreliableDataTransfer
  reliableFragments : EntriesFit crc32 Fragment.payload
    (Protocol.createReliableFragment (S := S))
    (appended before after).listScheduledReliableFragment
  unreliableFragments : EntriesFit crc32 Fragment.payload
    (Protocol.createUnreliableFragment (S := S))
    (appended before after).listScheduledUnreliableFragment
  reliableGroups : GroupsFill crc32 (Protocol.createReliableFragment (S := S))
    (appended before after).listScheduledReliableFragment
  unreliableGroups : GroupsFill crc32 (Protocol.createUnreliableFragment (S := S))
    (appended before after).listScheduledUnreliableFragment

theorem encodesTo_of_length [Message M] [Carried M] {message : String} {entry : Scheduled R M}
    {fits : Nat → Prop} (h : fits (12 + (Message.encoded entry.message).length)) :
    EncodesTo crc32 (fun (protocol : Protocol S) => protocol.core.createCarried message) entry
      fits := by
  intro later now packet hcreate raw hraw
  obtain ⟨peer, -, hpure⟩ := bind_eq_ok.mp hcreate
  cases hpure
  obtain ⟨-, rfl⟩ := Packet.asRaw_eq_ok.mp hraw
  rw [length_datagram]
  have hlength : 4 + 4 + (Message.encoded entry.message).length + 4 =
      12 + (Message.encoded entry.message).length := by omega
  rw [hlength.symm] at h
  exact h

theorem length_encoded_dataTransfer (message : DataTransfer) :
    (Message.encoded message).length = 3 + message.payload.length := by
  simp [Message.encoded, PacketType.toBeBytes, u8.length_encode, u8_width, u16.length_encode,
    u16_width]
  omega

theorem length_encoded_fragment (message : Fragment) :
    (Message.encoded message).length = 5 + message.payload.length := by
  simp [Message.encoded, PacketType.toBeBytes, u8.length_encode, u8_width, u16.length_encode,
    u16_width]
  omega

end Lengths

section Chunks

variable {payload : Payload} {chunk : Payload × Nat}

theorem numberedChunk_ne_nil (h : chunk ∈ numberedChunks payload) : chunk.1 ≠ [] :=
  chunk_ne_nil (by decide) (List.fst_mem_of_mem_zipIdx h)

theorem length_numberedChunk_of_mem_dropLast (h : chunk ∈ (numberedChunks payload).dropLast) :
    chunk.1.length = 1483 := by
  have hmem := List.mem_map_of_mem (f := Prod.fst) h
  rw [List.map_dropLast, numberedChunks, List.zipIdx_map_fst] at hmem
  exact length_chunk_of_mem_dropLast (by decide) hmem

end Chunks

section Entries

variable {R S A B E : Type} [Service S A B E] {crc32 : Crc32} {message : String}
  (reliability : R) (packetId : PacketId) (time : Duration) (targets : List Target)
  (payload : Payload)

theorem transfersFit : EntriesFit crc32 DataTransfer.payload
    (fun protocol : Protocol S => protocol.core.createCarried message)
    (entriesFor reliability dataTransferMessage packetId time targets
      (numberedChunks payload)) := by
  intro entry hentry
  obtain ⟨chunk, hchunk, hmem⟩ := List.mem_flatMap.mp hentry
  obtain ⟨target, -, rfl⟩ := List.mem_map.mp hmem
  refine ⟨numberedChunk_ne_nil hchunk, encodesTo_of_length ?_⟩
  have hlength : chunk.1.length ≤ 1483 := length_numberedChunk_le hchunk
  rw [length_encoded_dataTransfer]
  change 12 + (3 + chunk.1.length) ≤ 1500
  omega

theorem fragmentsFit (total : Nat) : EntriesFit crc32 Fragment.payload
    (fun protocol : Protocol S => protocol.core.createCarried message)
    (entriesFor reliability (fragmentMessage total) packetId time targets
      (numberedChunks payload)) := by
  intro entry hentry
  obtain ⟨chunk, hchunk, hmem⟩ := List.mem_flatMap.mp hentry
  obtain ⟨target, -, rfl⟩ := List.mem_map.mp hmem
  refine ⟨numberedChunk_ne_nil hchunk, encodesTo_of_length ?_⟩
  have hlength : chunk.1.length ≤ 1483 := length_numberedChunk_le hchunk
  rw [length_encoded_fragment]
  change 12 + (5 + chunk.1.length) ≤ 1500
  omega

/-- A chunk that is not the last is full, and the fragment's header takes the rest. -/
theorem groupsFill (total : Nat)
    (hdistinct : numberedChunks payload = [] ∨ (targets.map Prod.fst).Nodup) : GroupsFill crc32
      (fun protocol : Protocol S => protocol.core.createCarried message)
      (entriesFor reliability (fragmentMessage total) packetId time targets
        (numberedChunks payload)) := by
  intro id entry hentry
  rw [entriesAt_entriesFor id reliability fun _ _ => rfl] at hentry
  rcases hdistinct with hnone | hdistinct
  · rw [hnone] at hentry
    contradiction
  · rcases filter_key_cases hdistinct id with hnobody | ⟨target, -, -, htarget⟩
    · have hnil : entriesFor reliability (fragmentMessage total) packetId time
          (targetsAt id targets) (numberedChunks payload) = [] := by
        rw [targetsAt, hnobody]
        exact List.flatMap_eq_nil_iff.mpr fun _ _ => rfl
      rw [hnil] at hentry
      contradiction
    · rw [targetsAt, htarget, entriesFor] at hentry
      simp only [List.map_cons, List.map_nil, ← List.map_eq_flatMap, ← List.map_dropLast,
        List.mem_map] at hentry
      obtain ⟨chunk, hchunk, rfl⟩ := hentry
      apply encodesTo_of_length
      have hlength := length_numberedChunk_of_mem_dropLast hchunk
      rw [length_encoded_fragment]
      change 12 + (5 + chunk.1.length) = 1500
      omega

theorem entriesFit_nil {M : Type} [Message M] {bytes : M → Payload}
    {create : Protocol S → Scheduled R M → Duration → Exec (Packet ToSend M)} :
    EntriesFit crc32 bytes create [] := by
  intro entry hentry
  contradiction

theorem groupsFill_nil
    {create : Protocol S → Scheduled R Fragment → Duration → Exec (Packet ToSend Fragment)} :
    GroupsFill crc32 create [] := by
  intro id entry hentry
  contradiction

end Entries

section Calls

variable {S A B E : Type} [Service S A B E] {crc32 : Crc32}

theorem appendedFit_queued (scheduler : Scheduler A) (reliability : ReliabilityType)
    (packetId : PacketId) (time : Duration) (targets : List Target) (total : Nat)
    (payload : Payload)
    (hdistinct : numberedChunks payload = [] ∨ (targets.map Prod.fst).Nodup) :
    AppendedFit S crc32 scheduler (queued scheduler reliability packetId time targets total
      (numberedChunks payload)) := by
  have hextends := extends_queued scheduler reliability packetId time targets total
    (numberedChunks payload)
  by_cases hmany : total > 1
  · cases reliability with
    | reliable =>
      refine ⟨hextends, ?_, ?_, ?_, ?_, ?_, ?_⟩ <;>
        rw [appended_queued, queued, if_pos hmany]
      · exact entriesFit_nil
      · exact entriesFit_nil
      · exact fragmentsFit ({} : Reliable) packetId time targets payload total
      · exact entriesFit_nil
      · exact groupsFill ({} : Reliable) packetId time targets payload total hdistinct
      · exact groupsFill_nil
    | unreliable =>
      refine ⟨hextends, ?_, ?_, ?_, ?_, ?_, ?_⟩ <;>
        rw [appended_queued, queued, if_pos hmany]
      · exact entriesFit_nil
      · exact entriesFit_nil
      · exact entriesFit_nil
      · exact fragmentsFit ({} : Unreliable) packetId time targets payload total
      · exact groupsFill_nil
      · exact groupsFill ({} : Unreliable) packetId time targets payload total hdistinct
  · cases reliability with
    | reliable =>
      refine ⟨hextends, ?_, ?_, ?_, ?_, ?_, ?_⟩ <;>
        rw [appended_queued, queued, if_neg hmany]
      · exact transfersFit ({} : Reliable) packetId time targets payload
      · exact entriesFit_nil
      · exact entriesFit_nil
      · exact entriesFit_nil
      · exact groupsFill_nil
      · exact groupsFill_nil
    | unreliable =>
      refine ⟨hextends, ?_, ?_, ?_, ?_, ?_, ?_⟩ <;>
        rw [appended_queued, queued, if_neg hmany]
      · exact entriesFit_nil
      · exact transfersFit ({} : Unreliable) packetId time targets payload
      · exact entriesFit_nil
      · exact entriesFit_nil
      · exact groupsFill_nil
      · exact groupsFill_nil

/-- Whatever is scheduled for whomever, no datagram of it is longer than `MAX_FRAGMENT_SIZE`,
and every fragment but the last of its group is as long. -/
theorem scheduled_entries_fit (protocol next : Protocol S) (hash : RandomState)
    (reliability : ReliabilityType) (sendTo : SendTo) (payload : Payload) (now : Duration)
    (result : Result PacketId) (crc32 : Crc32)
    (h : protocol.schedule hash reliability sendTo payload now = .ok (result, next)) :
    AppendedFit S crc32 protocol.core.scheduler next.core.scheduler := by
  rcases schedule_cases h with
    ⟨error, -, rfl⟩ | ⟨targets, tracker, hconnected, htargets, -, -, rfl⟩
  · refine ⟨.refl _, ?_, ?_, ?_, ?_, ?_, ?_⟩ <;> rw [appended_self]
    · exact entriesFit_nil
    · exact entriesFit_nil
    · exact entriesFit_nil
    · exact entriesFit_nil
    · exact groupsFill_nil
    · exact groupsFill_nil
  · have hdistinct : numberedChunks payload = [] ∨ (targets.map Prod.fst).Nodup :=
      htargets.imp_right fun htargets => (targets_distinct hconnected htargets).1
    change AppendedFit S crc32 protocol.core.scheduler
      (queuedFor protocol reliability targets payload now tracker).core.scheduler
    rw [core_queuedFor]
    exact appendedFit_queued _ reliability _ now targets _ payload hdistinct

theorem twoChunks_fit : ∃ next,
    connectedRun.net.antarc.schedule (Classical.arbitrary RandomState) .reliable .broadcast
      (List.replicate 1484 7) .zero = .ok (.ok 2, next) ∧
    AppendedFit Client ieeeCrc32 connectedRun.net.antarc.core.scheduler next.core.scheduler := by
  obtain ⟨next, hnext⟩ := connectedRun_schedules (List.replicate 1484 7)
  exact ⟨next, hnext, scheduled_entries_fit _ _ _ _ _ _ _ _ _ hnext⟩

end Calls

end Antarc.Properties
