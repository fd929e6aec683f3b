import Antarc.Properties.Receiving

/-! What a peer puts its fragments together to. A group is kept in order of arrival until it
counts as many fragments as its newest one announces; what it leaves as lacks the last of
them. -/
namespace Antarc.Properties

open Library

section Bytes

def groupPayload (fragments : List (Packet Received Fragment)) : Payload :=
  (fragments.map fun fragment => fragment.message.payload).flatten

theorem foldl_payload (fragments : List (Packet Received Fragment)) (start : Payload) :
    fragments.foldl (fun payload fragment => payload ++ fragment.message.payload) start =
      start ++ groupPayload fragments := by
  induction fragments generalizing start with
  | nil => exact (List.append_nil start).symm
  | cons fragment rest ih =>
    rw [List.foldl_cons, ih, List.append_assoc]
    rfl

def heldBytes (fragments : List (Packet Received Fragment)) : Nat :=
  (fragments.map fun fragment => fragment.message.payload.length).sum

theorem heldBytes_append (first second : List (Packet Received Fragment)) :
    heldBytes (first ++ second) = heldBytes first + heldBytes second := by
  rw [heldBytes, List.map_append, List.sum_append]
  rfl

theorem length_groupPayload (fragments : List (Packet Received Fragment)) :
    (groupPayload fragments).length = heldBytes fragments := by
  rw [groupPayload, List.length_flatten, List.map_map]
  rfl

/-- The payload of the last fragment is lost. -/
theorem length_ofFragments_lt {fragments : List (Packet Received Fragment)}
    {whole : Packet Received DataTransfer} (h : Packet.ofFragments fragments = .ok whole)
    (hbytes : ∀ fragment ∈ fragments, fragment.message.payload ≠ []) :
    whole.message.payload.length < heldBytes fragments := by
  obtain ⟨last, hlast, h⟩ := bind_eq_ok.mp h
  cases h
  have hsome := expect_eq_ok.mp hlast
  have hsplit := List.dropLast_append_getLast? last hsome
  have hpositive := List.length_pos_of_ne_nil (hbytes last (List.mem_of_getLast? hsome))
  have hheld : heldBytes fragments = heldBytes fragments.dropLast + last.message.payload.length := by
    rw [← hsplit, heldBytes_append, hsplit]
    simp [heldBytes]
  change (fragments.dropLast.foldl _ []).length < _
  rw [foldl_payload, List.nil_append, length_groupPayload, hheld]
  omega

end Bytes

section Kept

/-- What is kept under the sequences from `start` on are fragments of no more than `bytes`. -/
def KeepsShort (start bytes : Nat) (reassembler : Reassembler) : Prop :=
  ∀ sequence fragments, reassembler.lookup sequence = some fragments →
    start ≤ sequence.get.toNat →
    (∀ fragment ∈ fragments, fragment.message.payload ≠ []) ∧ heldBytes fragments ≤ bytes

theorem KeepsShort.mono {start bytes more : Nat} {reassembler : Reassembler}
    (h : KeepsShort start bytes reassembler) (hle : bytes ≤ more) :
    KeepsShort start more reassembler := by
  intro sequence fragments hfound hstart
  obtain ⟨hbytes, hheld⟩ := h sequence fragments hfound hstart
  exact ⟨hbytes, hheld.trans hle⟩

theorem KeepsShort.insert {start bytes : Nat} {reassembler : Reassembler} {sequence : Sequence}
    {fragments : List (Packet Received Fragment)} (h : KeepsShort start bytes reassembler)
    (hbytes : ∀ fragment ∈ fragments, fragment.message.payload ≠ [])
    (hheld : heldBytes fragments ≤ bytes) :
    KeepsShort start bytes (reassembler.insert sequence fragments) := by
  intro other found hfound hstart
  rw [lookup_insert_eq] at hfound
  split at hfound
  · cases hfound
    exact ⟨hbytes, hheld⟩
  · exact h other found hfound hstart

theorem KeepsShort.erase {start bytes : Nat} {reassembler : Reassembler} (sequence : Sequence)
    (h : KeepsShort start bytes reassembler) :
    KeepsShort start bytes (reassembler.erase sequence) := by
  intro other found hfound hstart
  rw [lookup_erase_eq] at hfound
  split at hfound
  · contradiction
  · exact h other found hfound hstart

theorem joinGroup_short {start bytes : Nat} {reassembler : Reassembler}
    {packet : Packet Received Fragment} (h : KeepsShort start bytes reassembler)
    (hstart : start ≤ packet.sequence.get.toNat) (hpayload : packet.message.payload ≠ []) :
    KeepsShort start (bytes + packet.message.payload.length) (joinGroup reassembler packet).1 := by
  have hone : heldBytes [packet] = packet.message.payload.length := by
    simp [heldBytes]
  unfold joinGroup
  split
  · next fragments hfound =>
    obtain ⟨hbytes, hheld⟩ := h _ fragments hfound hstart
    refine (h.mono (Nat.le_add_right _ _)).insert ?_ ?_
    · intro fragment hmem
      rcases List.mem_append.mp hmem with hmem | hmem
      · exact hbytes fragment hmem
      · rwa [List.mem_singleton.mp hmem]
    · rw [heldBytes_append, hone]
      exact Nat.add_le_add_right hheld _
  · refine (h.mono (Nat.le_add_right _ _)).insert ?_ ?_
    · intro fragment hmem
      rwa [List.mem_singleton.mp hmem]
    · rw [hone]
      exact Nat.le_add_left _ _

theorem reassemble_short {start bytes : Nat} {peer next : Peer Connected}
    {packet : Packet Received Fragment} {whole : Option Payload}
    (h : peer.reassemble packet = .ok (next, whole))
    (hkept : KeepsShort start bytes peer.connection.reassembler)
    (hstart : start ≤ packet.sequence.get.toNat) (hpayload : packet.message.payload ≠ []) :
    KeepsShort start (bytes + packet.message.payload.length) next.connection.reassembler ∧
      ∀ payload, whole = some payload →
        payload.length < bytes + packet.message.payload.length := by
  have hjoined := joinGroup_short hkept hstart hpayload
  unfold Peer.reassemble at h
  split at h
  · next reassembler heq =>
    cases h
    rw [heq] at hjoined
    exact ⟨hjoined, fun _ hnone => by contradiction⟩
  · next reassembler heq =>
    obtain ⟨fragments, hfound, h⟩ := bind_eq_ok.mp h
    obtain ⟨put, hput, h⟩ := bind_eq_ok.mp h
    cases h
    rw [heq] at hjoined
    refine ⟨hjoined.erase _, ?_⟩
    intro payload hsome
    cases hsome
    obtain ⟨hbytes, hheld⟩ := hjoined _ fragments (expect_eq_ok.mp hfound) hstart
    have hperm := List.mergeSort_perm fragments fun a b => decide (a.sequence.get ≤ b.sequence.get)
    have hlt := length_ofFragments_lt hput fun fragment hmem =>
      hbytes fragment (hperm.mem_iff.mp hmem)
    rw [heldBytes, (hperm.map _).sum_eq] at hlt
    exact hlt.trans_le hheld

end Kept

section Groups

variable {peer : Peer Connected} {packet : Packet Received Fragment}
  {held : List (Packet Received Fragment)}

theorem reassemble_opens (hnone : peer.connection.reassembler.lookup packet.sequence = none) :
    peer.reassemble packet = .ok (peer.keepFragments
      (peer.connection.reassembler.insert packet.sequence [packet]), none) := by
  unfold Peer.reassemble joinGroup
  simp only [hnone]
  rfl

theorem reassemble_joins (hfound : peer.connection.reassembler.lookup packet.sequence = some held)
    (hmore : held.length + 1 ≠ packet.message.total.toNat) :
    peer.reassemble packet = .ok (peer.keepFragments
      (peer.connection.reassembler.insert packet.sequence (held ++ [packet])), none) := by
  have hcount : decide ((held ++ [packet]).length = packet.message.total.toNat) = false := by
    rw [List.length_append, List.length_singleton]
    exact decide_eq_false hmore
  unfold Peer.reassemble joinGroup
  simp only [hfound, hcount]
  rfl

/-- The fragment that completes its group is not part of what the group leaves as. -/
theorem reassemble_completes
    (hfound : peer.connection.reassembler.lookup packet.sequence = some held)
    (hheld : ∀ fragment ∈ held, fragment.sequence = packet.sequence)
    (hlast : held.length + 1 = packet.message.total.toNat) :
    peer.reassemble packet = .ok (peer.keepFragments
      ((peer.connection.reassembler.insert packet.sequence (held ++ [packet])).erase
        packet.sequence), some (groupPayload held)) := by
  have hcount : decide ((held ++ [packet]).length = packet.message.total.toNat) = true := by
    rw [List.length_append, List.length_singleton]
    exact decide_eq_true hlast
  have hsame : ∀ fragment ∈ held ++ [packet], fragment.sequence = packet.sequence := by
    intro fragment hmem
    rcases List.mem_append.mp hmem with hmem | hmem
    · exact hheld fragment hmem
    · rw [List.mem_singleton.mp hmem]
  have hsorted : (held ++ [packet]).mergeSort
      (fun a b => decide (a.sequence.get ≤ b.sequence.get)) = held ++ [packet] := by
    apply List.mergeSort_of_pairwise
    apply List.pairwise_of_forall_mem_list
    intro first hfirst second hsecond
    rw [hsame first hfirst, hsame second hsecond]
    exact decide_eq_true (UInt32.le_refl _)
  unfold Peer.reassemble joinGroup
  simp only [hfound, hcount, Finmap.lookup_insert, expect, ok_bind, hsorted, Packet.ofFragments,
    List.getLast?_append, List.dropLast_concat, foldl_payload, List.nil_append]
  rfl

end Groups

end Antarc.Properties
