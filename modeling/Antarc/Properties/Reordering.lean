import Antarc.Properties.Groups

/-! What a group of fragments is handed over as, and when. It is counted and not looked at:
the order of arrival decides which bytes are left out, and copies count like fragments. -/
namespace Antarc.Properties

open Library

def transfersOf (events : List (ProtocolEvent E)) : List (ConnectionId × Payload) :=
  events.filterMap fun event =>
    match event with
    | .dataTransfer id payload => some (id, payload)
    | _ => none

theorem transfersOf_append (events : List (ProtocolEvent E)) (id : ConnectionId)
    (payload : Payload) :
    transfersOf (events ++ [.dataTransfer id payload]) = transfersOf events ++ [(id, payload)] := by
  rw [transfersOf, List.filterMap_append]
  rfl

section Orders

variable {T A B E : Type} [Service T A B E] {crc32 : Crc32} {id : ConnectionId}
  {sequence : Sequence} {protocol : Protocol T}
  {receive : Duration → RawPacket → Protocol T → Exec (Protocol T)}
  {fragments : List (Packet ToSend Fragment)}

/-- All the fragments of one payload that was cut: each index once. -/
structure WholeGroup (id : ConnectionId) (sequence : Sequence)
    (fragments : List (Packet ToSend Fragment)) : Prop where
  many : 2 ≤ fragments.length
  belongs : ∀ packet ∈ fragments, Belongs id sequence fragments.length packet
  indices : (fragments.map fun packet => packet.message.index.toNat).Perm
    (List.range fragments.length)

/-- In any two orders, from anywhere and at any times, the fragments are received and make the
same data transfers. -/
def DeliversInAnyOrder (crc32 : Crc32)
    (receive : Duration → RawPacket → Protocol T → Exec (Protocol T))
    (fragments : List (Packet ToSend Fragment)) (protocol : Protocol T) : Prop :=
  ∀ (first second : List Arrival) (clock other : Nat → Duration),
    (first.map Arrival.packet).Perm fragments → (second.map Arrival.packet).Perm fragments →
      ∃ afterFirst afterSecond,
        receiveEach receive clock (first.map (Arrival.raw crc32)) protocol = .ok afterFirst ∧
        receiveEach receive other (second.map (Arrival.raw crc32)) protocol = .ok afterSecond ∧
        transfersOf afterFirst.core.api = transfersOf afterSecond.core.api

theorem receiveEach_whole (hreceive : ReceivesFragments crc32 id receive)
    (hgroup : WholeGroup id sequence fragments) (hopen : GroupAt protocol id sequence [])
    {arrivals : List Arrival} (hperm : (arrivals.map Arrival.packet).Perm fragments)
    (clock : Nat → Duration) :
    ∃ after, receiveEach receive clock (arrivals.map (Arrival.raw crc32)) protocol = .ok after ∧
      transfersOf after.core.api = transfersOf protocol.core.api ++
        [(id, wordOf (fun packet => packet.message.payload) (arrivals.map Arrival.packet))] := by
  have hbelongs : ∀ arrival ∈ arrivals, Belongs id sequence fragments.length arrival.packet :=
    fun arrival hmem => hgroup.belongs _ (hperm.mem_iff.mp (List.mem_map_of_mem hmem))
  have hcount : arrivals.length = fragments.length := by
    rw [← hperm.length_eq, List.length_map]
  obtain ⟨after, hafter, hapi, -⟩ :=
    receiveEach_completes hreceive hbelongs hgroup.many hcount clock hopen
  refine ⟨after, hafter, ?_⟩
  rw [hapi, transfersOf_append, wordOf_map]
  rfl

theorem deliversInAnyOrder_iff (hreceive : ReceivesFragments crc32 id receive)
    (hgroup : WholeGroup id sequence fragments) (hopen : GroupAt protocol id sequence []) :
    DeliversInAnyOrder crc32 receive fragments protocol ↔
      ∀ first ∈ fragments, ∀ second ∈ fragments,
        first.message.payload = second.message.payload := by
  rw [← orderFree_iff (fun packet : Packet ToSend Fragment => packet.message.payload) hgroup.many]
  constructor
  · intro hdelivers first second hfirst hsecond
    let anywhere := fun packet : Packet ToSend Fragment => (⟨packet, .v4 0 0⟩ : Arrival)
    have hpackets : ∀ packets : List (Packet ToSend Fragment),
        (packets.map anywhere).map Arrival.packet = packets := by
      intro packets
      rw [List.map_map]
      exact List.map_id packets
    have hfirst' : ((first.map anywhere).map Arrival.packet).Perm fragments := by
      rwa [hpackets]
    have hsecond' : ((second.map anywhere).map Arrival.packet).Perm fragments := by
      rwa [hpackets]
    obtain ⟨afterFirst, afterSecond, hafterFirst, hafterSecond, hsame⟩ :=
      hdelivers _ _ (fun _ => .zero) (fun _ => .zero) hfirst' hsecond'
    obtain ⟨_, hfound, htransfers⟩ := receiveEach_whole hreceive hgroup hopen hfirst' fun _ => .zero
    obtain ⟨_, hfound', htransfers'⟩ :=
      receiveEach_whole hreceive hgroup hopen hsecond' fun _ => .zero
    cases hfound.symm.trans hafterFirst
    cases hfound'.symm.trans hafterSecond
    rw [htransfers, htransfers', hpackets, hpackets, List.append_cancel_left_eq] at hsame
    exact congrArg Prod.snd (List.singleton_inj.mp hsame)
  · intro hfree first second clock other hfirst hsecond
    obtain ⟨afterFirst, hafterFirst, htransfers⟩ :=
      receiveEach_whole hreceive hgroup hopen hfirst clock
    obtain ⟨afterSecond, hafterSecond, htransfers'⟩ :=
      receiveEach_whole hreceive hgroup hopen hsecond other
    refine ⟨afterFirst, afterSecond, hafterFirst, hafterSecond, ?_⟩
    rw [htransfers, htransfers', hfree _ _ hfirst hsecond]

end Orders

section Completion

variable {T A B E : Type} [Service T A B E] {crc32 : Crc32} {id : ConnectionId}
  {sequence : Sequence} {total : Nat} {protocol : Protocol T}
  {receive : Duration → RawPacket → Protocol T → Exec (Protocol T)} {arrivals : List Arrival}

/-- Copies of the fragments of one payload, as many of each as there happen to be. -/
structure CopiesOf (id : ConnectionId) (sequence : Sequence) (total : Nat)
    (arrivals : List Arrival) : Prop where
  positive : 0 < total
  belongs : ∀ arrival ∈ arrivals, Belongs id sequence total arrival.packet
  index_lt : ∀ arrival ∈ arrivals, arrival.packet.message.index.toNat < total
  identical : ∀ first ∈ arrivals, ∀ second ∈ arrivals,
    first.packet.message.index = second.packet.message.index → first.packet = second.packet

def Covers (total : Nat) (arrivals : List Arrival) : Prop :=
  ∀ index < total, ∃ arrival ∈ arrivals, arrival.packet.message.index.toNat = index

/-- An arrival that leaves an index missing makes no data transfer, and the one after which
none is missing for the first time makes one. -/
def DeliversWhenComplete (crc32 : Crc32) (id : ConnectionId)
    (receive : Duration → RawPacket → Protocol T → Exec (Protocol T)) (clock : Nat → Duration)
    (total : Nat) (arrivals : List Arrival) (protocol : Protocol T) : Prop :=
  ∀ count < arrivals.length, ∃ before after,
    receiveEach receive clock ((arrivals.take count).map (Arrival.raw crc32)) protocol =
      .ok before ∧
    receiveEach receive clock ((arrivals.take (count + 1)).map (Arrival.raw crc32)) protocol =
      .ok after ∧
    (¬Covers total (arrivals.take (count + 1)) →
      transfersOf after.core.api = transfersOf before.core.api) ∧
    (¬Covers total (arrivals.take count) → Covers total (arrivals.take (count + 1)) →
      ∃ payload, transfersOf after.core.api = transfersOf before.core.api ++ [(id, payload)])

theorem Covers.le_length (h : Covers total arrivals) : total ≤ arrivals.length := by
  have hsubset : List.range total ⊆
      arrivals.map fun arrival => arrival.packet.message.index.toNat := by
    intro index hmem
    obtain ⟨arrival, harrival, rfl⟩ := h index (List.mem_range.mp hmem)
    exact List.mem_map_of_mem harrival
  have hle := (List.nodup_range.subperm hsubset).length_le
  rwa [List.length_range, List.length_map] at hle

theorem Covers.mono {more : List Arrival} (h : Covers total arrivals) (hsubset : arrivals ⊆ more) :
    Covers total more := by
  intro index hindex
  obtain ⟨arrival, hmem, heq⟩ := h index hindex
  exact ⟨arrival, hsubset hmem, heq⟩

/-- A fragment that opens its group is never handed over, though it be the whole of it. -/
theorem receive_opening (hreceive : ReceivesFragments crc32 id receive)
    (hcopies : CopiesOf id sequence total arrivals) (hopen : GroupAt protocol id sequence [])
    (hsome : 0 < arrivals.length) (clock : Nat → Duration) :
    ∃ after, receiveEach receive clock ((arrivals.take 1).map (Arrival.raw crc32)) protocol =
        .ok after ∧ after.core.api = protocol.core.api := by
  cases arrivals with
  | nil => contradiction
  | cons arrival rest =>
    have hbelongs := hcopies.belongs arrival List.mem_cons_self
    obtain ⟨after, hturn, hstep⟩ := receive_fragment hreceive (clock 0) hbelongs.metadata
      hbelongs.connectionId hbelongs.sequence hopen
    rw [if_neg (fun h => h.1 rfl)] at hstep
    refine ⟨after, ?_, hstep.1⟩
    rw [List.take_succ_cons, List.take_zero, List.map_singleton, receiveEach, hturn]
    rfl

theorem CopiesOf.take (hcopies : CopiesOf id sequence total arrivals) (count : Nat) :
    ∀ arrival ∈ arrivals.take count, Belongs id sequence total arrival.packet :=
  fun arrival hmem => hcopies.belongs arrival (List.mem_of_mem_take hmem)

theorem receiveEach_early (hreceive : ReceivesFragments crc32 id receive)
    (hcopies : CopiesOf id sequence total arrivals) (hopen : GroupAt protocol id sequence [])
    (clock : Nat → Duration) {count : Nat} (hearly : count < total) :
    ∃ after, receiveEach receive clock ((arrivals.take count).map (Arrival.raw crc32)) protocol =
      .ok after ∧ after.core.api = protocol.core.api := by
  have hle := List.length_take_le count arrivals
  obtain ⟨after, hafter, hapi, -⟩ := receiveEach_waits hreceive (hcopies.take count) []
    (by rw [List.length_nil]; omega) clock hopen
  exact ⟨after, hafter, hapi⟩

/-- When as many have arrived as are announced, something is handed over, whatever they are. -/
theorem receiveEach_counted (hreceive : ReceivesFragments crc32 id receive)
    (hcopies : CopiesOf id sequence total arrivals) (hopen : GroupAt protocol id sequence [])
    (clock : Nat → Duration) (hmany : 2 ≤ total) (hle : total ≤ arrivals.length) :
    ∃ after payload, receiveEach receive clock ((arrivals.take total).map (Arrival.raw crc32))
        protocol = .ok after ∧
      transfersOf after.core.api = transfersOf protocol.core.api ++ [(id, payload)] := by
  obtain ⟨after, hafter, hapi, -⟩ := receiveEach_completes hreceive (hcopies.take total) hmany
    (List.length_take_of_le hle) clock hopen
  exact ⟨after, _, hafter, by rw [hapi, transfersOf_append]⟩

theorem DeliversWhenComplete.condition (hreceive : ReceivesFragments crc32 id receive)
    (hcopies : CopiesOf id sequence total arrivals) (hopen : GroupAt protocol id sequence [])
    {clock : Nat → Duration}
    (h : DeliversWhenComplete crc32 id receive clock total arrivals protocol)
    (hle : total ≤ arrivals.length) : 2 ≤ total ∧ Covers total (arrivals.take total) := by
  have hpositive := hcopies.positive
  obtain ⟨before, after, hbefore, hafter, hearly, hlate⟩ := h (total - 1) (by omega)
  rw [Nat.sub_add_cancel hpositive] at hafter hearly hlate
  obtain ⟨_, hfound, hapi⟩ := receiveEach_early hreceive hcopies hopen clock
    (Nat.sub_lt hpositive Nat.one_pos)
  cases hfound.symm.trans hbefore
  by_cases hmany : 2 ≤ total
  · refine ⟨hmany, ?_⟩
    by_contra hmissing
    obtain ⟨_, payload, hfound, htransfers⟩ :=
      receiveEach_counted hreceive hcopies hopen clock hmany hle
    cases hfound.symm.trans hafter
    rw [hearly hmissing, hapi] at htransfers
    exact absurd (congrArg List.length htransfers) (by simp)
  · have hone : total = 1 := by omega
    subst hone
    obtain ⟨_, hfound, hopened⟩ := receive_opening hreceive hcopies hopen hle clock
    cases hfound.symm.trans hafter
    have hfirst : Covers 1 (arrivals.take 1) := by
      intro index hindex
      obtain ⟨arrival, hmem⟩ := List.exists_mem_of_length_pos
        (Nat.lt_of_lt_of_eq Nat.one_pos (List.length_take_of_le hle).symm)
      have hlt := hcopies.index_lt arrival (List.mem_of_mem_take hmem)
      exact ⟨arrival, hmem, by omega⟩
    obtain ⟨payload, htransfers⟩ := hlate (fun hnone => absurd hnone.le_length (by simp)) hfirst
    rw [hopened, hapi] at htransfers
    exact absurd (congrArg List.length htransfers) (by simp)

theorem deliversWhenComplete_iff (hreceive : ReceivesFragments crc32 id receive)
    (hcopies : CopiesOf id sequence total arrivals) (hopen : GroupAt protocol id sequence [])
    (clock : Nat → Duration) :
    DeliversWhenComplete crc32 id receive clock total arrivals protocol ↔
      arrivals.length < total ∨ 2 ≤ total ∧ Covers total (arrivals.take total) := by
  constructor
  · intro h
    by_cases hle : total ≤ arrivals.length
    · exact .inr (h.condition hreceive hcopies hopen hle)
    · exact .inl (Nat.lt_of_not_le hle)
  · intro hcondition count hcount
    obtain ⟨before, hbefore⟩ :=
      receiveEach_returns hreceive (hcopies.take count) [] clock hopen
    obtain ⟨after, hafter⟩ :=
      receiveEach_returns hreceive (hcopies.take (count + 1)) [] clock hopen
    refine ⟨before, after, hbefore, hafter, ?_⟩
    by_cases hearly : count + 1 < total
    · obtain ⟨_, hfound, hapi⟩ := receiveEach_early hreceive hcopies hopen clock hearly
      obtain ⟨_, hfound', hapi'⟩ :=
        receiveEach_early hreceive hcopies hopen clock (Nat.lt_of_succ_lt hearly)
      cases hfound.symm.trans hafter
      cases hfound'.symm.trans hbefore
      have hle := List.length_take_le (count + 1) arrivals
      exact ⟨fun _ => by rw [hapi, hapi'],
        fun _ hcovers => absurd (hcovers.le_length.trans hle) (Nat.not_le_of_lt hearly)⟩
    · obtain ⟨hmany, hcovers⟩ := hcondition.resolve_left (by omega)
      have hlate : ∀ later, total ≤ later → Covers total (arrivals.take later) :=
        fun later hle => hcovers.mono (List.take_subset_take_left arrivals hle)
      refine ⟨fun hmissing => absurd (hlate _ (by omega)) hmissing, fun hmissing _ => ?_⟩
      have hlast : count + 1 = total := by
        by_contra hne
        exact hmissing (hlate count (by omega))
      subst hlast
      obtain ⟨_, hfound, hapi⟩ :=
        receiveEach_early hreceive hcopies hopen clock (Nat.lt_succ_self count)
      obtain ⟨_, payload, hfound', htransfers⟩ :=
        receiveEach_counted hreceive hcopies hopen clock hmany hcount
      cases hfound.symm.trans hbefore
      cases hfound'.symm.trans hafter
      exact ⟨payload, by rw [htransfers, hapi]⟩

end Completion

section Roles

/-- What is handed over does not depend on the order of arrival exactly when all fragments of
the payload carry the same bytes. -/
theorem delivers_in_any_order_iff (crc32 : Crc32) (id : ConnectionId) (sequence : Sequence)
    (fragments : List (Packet ToSend Fragment)) (hgroup : WholeGroup id sequence fragments) :
    (∀ (hash : RandomState) (protocol : Protocol Server), GroupAt protocol id sequence [] →
      (DeliversInAnyOrder crc32 (receiveAtServer crc32 hash) fragments protocol ↔
        ∀ first ∈ fragments, ∀ second ∈ fragments,
          first.message.payload = second.message.payload)) ∧
      ∀ protocol : Protocol Client, GroupAt protocol id sequence [] →
        (DeliversInAnyOrder crc32 (receiveAtClient crc32) fragments protocol ↔
          ∀ first ∈ fragments, ∀ second ∈ fragments,
            first.message.payload = second.message.payload) :=
  ⟨fun hash _ hopen => deliversInAnyOrder_iff (server_receivesFragments hash id) hgroup hopen,
    fun _ hopen => deliversInAnyOrder_iff (client_receivesFragments id) hgroup hopen⟩

def halves (first second : Payload) : List (Packet ToSend Fragment) :=
  [⟨⟨0, ⟨.zero, .v4 0 0⟩⟩, .two, 1, .new .one first 0 2⟩,
    ⟨⟨0, ⟨.zero, .v4 0 0⟩⟩, .two, 1, .new .one second 1 2⟩]

theorem halves_whole (first second : Payload) : WholeGroup .one .two (halves first second) := by
  refine ⟨Nat.le_refl 2, fun packet hmem => ?_, .refl _⟩
  rcases List.mem_cons.mp hmem with rfl | hmem
  · exact ⟨rfl, rfl, rfl, rfl⟩
  · rw [List.mem_singleton.mp hmem]
    exact ⟨rfl, rfl, rfl, rfl⟩

theorem connectedServer_open : GroupAt connectedServer.antarc .one .two [] :=
  ⟨_, Finmap.lookup_singleton_eq, Finmap.notMem_empty⟩

theorem connectedRun_open : GroupAt connectedRun.net.antarc .one .two [] :=
  ⟨_, Finmap.lookup_insert _, Finmap.notMem_empty⟩

/-- The half that arrives first is handed over, alone. -/
theorem unlike_halves_ordered :
    WholeGroup .one .two (halves [1] [2]) ∧
      ¬DeliversInAnyOrder ieeeCrc32 (receiveAtServer ieeeCrc32 (Classical.arbitrary RandomState))
        (halves [1] [2]) connectedServer.antarc ∧
      ¬DeliversInAnyOrder ieeeCrc32 (receiveAtClient ieeeCrc32) (halves [1] [2])
        connectedRun.net.antarc := by
  have hunlike : ¬∀ first ∈ halves [1] [2], ∀ second ∈ halves [1] [2],
      first.message.payload = second.message.payload := by
    decide
  refine ⟨halves_whole _ _, fun h => hunlike ?_, fun h => hunlike ?_⟩
  · exact (deliversInAnyOrder_iff (server_receivesFragments _ _) (halves_whole _ _)
      connectedServer_open).mp h
  · exact (deliversInAnyOrder_iff (client_receivesFragments _) (halves_whole _ _)
      connectedRun_open).mp h

theorem alike_halves_unordered :
    DeliversInAnyOrder ieeeCrc32 (receiveAtServer ieeeCrc32 (Classical.arbitrary RandomState))
        (halves [7] [7]) connectedServer.antarc ∧
      DeliversInAnyOrder ieeeCrc32 (receiveAtClient ieeeCrc32) (halves [7] [7])
        connectedRun.net.antarc := by
  have halike : ∀ first ∈ halves [7] [7], ∀ second ∈ halves [7] [7],
      first.message.payload = second.message.payload := by
    decide
  have hroles := delivers_in_any_order_iff ieeeCrc32 .one .two (halves [7] [7]) (halves_whole _ _)
  exact ⟨(hroles.1 _ _ connectedServer_open).mpr halike, (hroles.2 _ connectedRun_open).mpr halike⟩

/-- A group is handed over exactly when it is complete as long as the first arrivals, as many
as it announces, are two or more different fragments. -/
theorem delivers_when_complete_iff (crc32 : Crc32) (id : ConnectionId) (sequence : Sequence)
    (total : Nat) (arrivals : List Arrival) (clock : Nat → Duration)
    (hcopies : CopiesOf id sequence total arrivals) :
    (∀ (hash : RandomState) (protocol : Protocol Server), GroupAt protocol id sequence [] →
      (DeliversWhenComplete crc32 id (receiveAtServer crc32 hash) clock total arrivals protocol ↔
        arrivals.length < total ∨ 2 ≤ total ∧ Covers total (arrivals.take total))) ∧
      ∀ protocol : Protocol Client, GroupAt protocol id sequence [] →
        (DeliversWhenComplete crc32 id (receiveAtClient crc32) clock total arrivals protocol ↔
          arrivals.length < total ∨ 2 ≤ total ∧ Covers total (arrivals.take total)) :=
  ⟨fun hash _ hopen =>
      deliversWhenComplete_iff (server_receivesFragments hash id) hcopies hopen clock,
    fun _ hopen => deliversWhenComplete_iff (client_receivesFragments id) hcopies hopen clock⟩

def copyOf (index total : Nat) : Arrival :=
  ⟨⟨⟨0, ⟨.zero, .v4 0 0⟩⟩, .two, 1, .new .one [7] index total⟩, .v4 0 0⟩

theorem copyOf_whole : CopiesOf .one .two 1 [copyOf 0 1] := by
  constructor
  · exact Nat.one_pos
  · intro arrival hmem
    rw [List.mem_singleton.mp hmem]
    exact ⟨rfl, rfl, rfl, rfl⟩
  · intro arrival hmem
    rw [List.mem_singleton.mp hmem]
    decide
  · intro first hfirst second hsecond _
    rw [List.mem_singleton.mp hfirst, List.mem_singleton.mp hsecond]

theorem copyOf_copies {arrivals : List Arrival}
    (h : ∀ arrival ∈ arrivals, arrival = copyOf 0 2 ∨ arrival = copyOf 1 2) :
    CopiesOf .one .two 2 arrivals := by
  constructor
  · exact Nat.two_pos
  · intro arrival hmem
    rcases h arrival hmem with rfl | rfl
    · exact ⟨rfl, rfl, rfl, rfl⟩
    · exact ⟨rfl, rfl, rfl, rfl⟩
  · intro arrival hmem
    rcases h arrival hmem with rfl | rfl
    · decide
    · decide
  · intro first hfirst second hsecond hindex
    rcases h first hfirst with rfl | rfl <;> rcases h second hsecond with rfl | rfl
    · rfl
    · contradiction
    · contradiction
    · rfl

/-- A single fragment that is a whole group is never handed over, and the second copy of a
fragment completes a group of two. -/
theorem counted_not_complete :
    CopiesOf .one .two 1 [copyOf 0 1] ∧ CopiesOf .one .two 2 [copyOf 0 2, copyOf 0 2] ∧
      (¬DeliversWhenComplete ieeeCrc32 .one
          (receiveAtServer ieeeCrc32 (Classical.arbitrary RandomState)) (fun _ => .zero) 1
          [copyOf 0 1] connectedServer.antarc ∧
        ¬DeliversWhenComplete ieeeCrc32 .one
          (receiveAtServer ieeeCrc32 (Classical.arbitrary RandomState)) (fun _ => .zero) 2
          [copyOf 0 2, copyOf 0 2] connectedServer.antarc) ∧
      ¬DeliversWhenComplete ieeeCrc32 .one (receiveAtClient ieeeCrc32) (fun _ => .zero) 1
          [copyOf 0 1] connectedRun.net.antarc ∧
        ¬DeliversWhenComplete ieeeCrc32 .one (receiveAtClient ieeeCrc32) (fun _ => .zero) 2
          [copyOf 0 2, copyOf 0 2] connectedRun.net.antarc := by
  have htwice : CopiesOf .one .two 2 [copyOf 0 2, copyOf 0 2] :=
    copyOf_copies fun arrival hmem => .inl (by simpa using hmem)
  have hone : ¬([copyOf 0 1].length < 1 ∨ 2 ≤ 1 ∧ Covers 1 ([copyOf 0 1].take 1)) := by
    rintro (hfew | ⟨hmany, -⟩) <;> contradiction
  have htwo : ¬([copyOf 0 2, copyOf 0 2].length < 2 ∨
      2 ≤ 2 ∧ Covers 2 ([copyOf 0 2, copyOf 0 2].take 2)) := by
    rintro (hfew | ⟨-, hcovers⟩)
    · contradiction
    · obtain ⟨arrival, hmem, hindex⟩ := hcovers 1 Nat.one_lt_two
      have heq : arrival = copyOf 0 2 := by simpa using hmem
      subst heq
      contradiction
  refine ⟨copyOf_whole, htwice, ⟨?_, ?_⟩, ?_, ?_⟩
  · rwa [deliversWhenComplete_iff (server_receivesFragments _ _) copyOf_whole connectedServer_open]
  · rwa [deliversWhenComplete_iff (server_receivesFragments _ _) htwice connectedServer_open]
  · rwa [deliversWhenComplete_iff (client_receivesFragments _) copyOf_whole connectedRun_open]
  · rwa [deliversWhenComplete_iff (client_receivesFragments _) htwice connectedRun_open]

theorem both_halves_complete :
    DeliversWhenComplete ieeeCrc32 .one
        (receiveAtServer ieeeCrc32 (Classical.arbitrary RandomState)) (fun _ => .zero) 2
        [copyOf 1 2, copyOf 0 2, copyOf 0 2] connectedServer.antarc ∧
      DeliversWhenComplete ieeeCrc32 .one (receiveAtClient ieeeCrc32) (fun _ => .zero) 2
        [copyOf 1 2, copyOf 0 2, copyOf 0 2] connectedRun.net.antarc := by
  have hcopies : CopiesOf .one .two 2 [copyOf 1 2, copyOf 0 2, copyOf 0 2] := by
    apply copyOf_copies
    intro arrival hmem
    simp only [List.mem_cons, List.not_mem_nil, or_false, or_self] at hmem
    exact hmem.symm
  have hcovers : Covers 2 ([copyOf 1 2, copyOf 0 2, copyOf 0 2].take 2) := by
    intro index hindex
    cases index with
    | zero => exact ⟨copyOf 0 2, by simp, rfl⟩
    | succ index => exact ⟨copyOf 1 2, by simp, by change 1 = _; omega⟩
  have hroles := delivers_when_complete_iff ieeeCrc32 .one .two 2 _ (fun _ => .zero) hcopies
  exact ⟨(hroles.1 _ _ connectedServer_open).mpr (.inr ⟨Nat.le_refl 2, hcovers⟩),
    (hroles.2 _ connectedRun_open).mpr (.inr ⟨Nat.le_refl 2, hcovers⟩)⟩

end Roles

end Antarc.Properties
