import Antarc.Library.Concatenation
import Antarc.Properties.Delivery
import Antarc.Properties.IdealLink
import Antarc.Properties.Reassembly

/-! Fragments of one sequence arriving at a connected peer, whichever role it has. A fragment
opens the group of its sequence, joins it or completes it. -/
namespace Antarc.Properties

open Library

section Receivers

variable {T A B E : Type} [Service T A B E] {crc32 : Crc32} {id : ConnectionId}

def reassembledFor (protocol : Protocol T) (id : ConnectionId)
    (result : Peer Connected × Option Payload) : Protocol T :=
  protocol.setCore { protocol.core with
    connected := protocol.core.connected.insert id result.1
    api := protocol.core.api ++ result.2.toList.map (.dataTransfer id) }

theorem core_reassembledFor (protocol : Protocol T) (result : Peer Connected × Option Payload) :
    (reassembledFor protocol id result).core = { protocol.core with
      connected := protocol.core.connected.insert id result.1
      api := protocol.core.api ++ result.2.toList.map (.dataTransfer id) } :=
  core_setCore _ _

/-- A service takes a fragment of a connected peer by having the peer reassemble it. -/
def ReceivesFragments (crc32 : Crc32) (id : ConnectionId)
    (receive : Duration → RawPacket → Protocol T → Exec (Protocol T)) : Prop :=
  ∀ (protocol : Protocol T) (peer : Peer Connected) (packet : Packet ToSend Fragment)
    (source : SocketAddr) (time : Duration),
    packet.message.metadata = ⟨fragment⟩ → packet.message.connectionId = id →
    protocol.core.connected.lookup id = some peer →
    receive time ⟨source, (packet.datagram crc32).bytes⟩ protocol =
      reassembledFor protocol id <$> (peer.acknowledge packet.sequence packet.ack).reassemble
        (Codec.arrived packet source time)

theorem server_receivesFragments (hash : RandomState) (id : ConnectionId) :
    ReceivesFragments crc32 id (receiveAtServer crc32 hash) := by
  rintro protocol peer packet source time hmetadata rfl hfound
  have hdecode := (Codec.roundTrips_fragment crc32 packet source time hmetadata).2.1
  have hacknowledged : protocol.service.acknowledge packet.message.connectionId packet.sequence
      packet.ack time = some { protocol.service with
        connected := protocol.service.connected.insert packet.message.connectionId
          (peer.acknowledge packet.sequence packet.ack) } := by
    unfold Server.acknowledge
    rw [show protocol.service.connected.lookup packet.message.connectionId = some peer from hfound]
  unfold receiveAtServer Protocol.serverReceived Server.onReceived
  rw [hdecode]
  change Prod.snd <$> (protocol.service.onFragment (Codec.arrived packet source time) time >>= _) = _
  unfold Server.onFragment
  simp only [Codec.arrived, hacknowledged, Finmap.lookup_insert, expect, ok_bind,
    Finmap.insert_insert]
  cases (peer.acknowledge packet.sequence packet.ack).reassemble _ with
  | error panic => rfl
  | ok result =>
    obtain ⟨reassembled, whole⟩ := result
    cases whole with
    | none =>
      simp only [reassembledFor, Option.toList_none, List.map_nil, List.append_nil, Functor.map,
        Except.map]
      rfl
    | some payload => rfl

theorem client_receivesFragments (id : ConnectionId) :
    ReceivesFragments crc32 id (receiveAtClient crc32) := by
  rintro protocol peer packet source time hmetadata rfl hfound
  have hdecode := (Codec.roundTrips_fragment crc32 packet source time hmetadata).2.2
  have hlookup : protocol.service.connected.lookup packet.message.connectionId = some peer := hfound
  unfold receiveAtClient Protocol.clientReceived Client.onReceived
  rw [hdecode]
  change Prod.snd <$> (protocol.service.onFragment (Codec.arrived packet source time) >>= _) = _
  unfold Client.onFragment
  simp only [Codec.arrived, hlookup, Finmap.lookup_insert, expect, ok_bind, Finmap.insert_insert]
  cases (peer.acknowledge packet.sequence packet.ack).reassemble _ with
  | error panic => rfl
  | ok result =>
    obtain ⟨reassembled, whole⟩ := result
    cases whole with
    | none =>
      simp only [reassembledFor, Option.toList_none, List.map_nil, List.append_nil, Functor.map,
        Except.map]
      rfl
    | some payload => rfl

end Receivers

section Holding

variable {T A B E : Type} [Service T A B E] {crc32 : Crc32} {id : ConnectionId}
  {sequence : Sequence} {protocol : Protocol T}
  {receive : Duration → RawPacket → Protocol T → Exec (Protocol T)}

/-- The payloads of the group that is kept under a sequence, in order of arrival. A group
without fragments is not kept. -/
def KeepsGroup (reassembler : Reassembler) (sequence : Sequence) : List Payload → Prop
  | [] => sequence ∉ reassembler
  | payload :: payloads => ∃ group, reassembler.lookup sequence = some group ∧
      group.map (fun fragment => fragment.message.payload) = payload :: payloads ∧
      ∀ fragment ∈ group, fragment.sequence = sequence

def GroupAt (protocol : Protocol T) (id : ConnectionId) (sequence : Sequence)
    (payloads : List Payload) : Prop :=
  ∃ peer, protocol.core.connected.lookup id = some peer ∧
    KeepsGroup peer.connection.reassembler sequence payloads

structure Arrival where
  packet : Packet ToSend Fragment
  source : SocketAddr

def Arrival.raw (crc32 : Crc32) (arrival : Arrival) : RawPacket :=
  ⟨arrival.source, (arrival.packet.datagram crc32).bytes⟩

def Arrival.payload (arrival : Arrival) : Payload :=
  arrival.packet.message.payload

theorem keepsGroup_insert {reassembler : Reassembler} {group : List (Packet Received Fragment)}
    (hgroup : group ≠ []) (hsame : ∀ fragment ∈ group, fragment.sequence = sequence) :
    KeepsGroup (reassembler.insert sequence group) sequence
      (group.map fun fragment => fragment.message.payload) := by
  cases group with
  | nil => contradiction
  | cons fragment rest => exact ⟨_, Finmap.lookup_insert _, rfl, hsame⟩

theorem receive_fragment (hreceive : ReceivesFragments crc32 id receive) {arrival : Arrival}
    (time : Duration) {payloads : List Payload}
    (hmetadata : arrival.packet.message.metadata = ⟨fragment⟩)
    (hid : arrival.packet.message.connectionId = id) (hsequence : arrival.packet.sequence = sequence)
    (h : GroupAt protocol id sequence payloads) :
    ∃ next, receive time (arrival.raw crc32) protocol = .ok next ∧
      if payloads ≠ [] ∧ payloads.length + 1 = arrival.packet.message.total.toNat then
        next.core.api = protocol.core.api ++ [.dataTransfer id payloads.flatten] ∧
          GroupAt next id sequence []
      else next.core.api = protocol.core.api ∧
        GroupAt next id sequence (payloads ++ [arrival.payload]) := by
  obtain ⟨peer, hfound, hkeeps⟩ := h
  subst hsequence
  let taken := Codec.arrived arrival.packet arrival.source time
  let acknowledged := peer.acknowledge arrival.packet.sequence arrival.packet.ack
  have hturn : receive time (arrival.raw crc32) protocol =
      reassembledFor protocol id <$> acknowledged.reassemble taken :=
    hreceive protocol peer arrival.packet arrival.source time hmetadata hid hfound
  change KeepsGroup acknowledged.connection.reassembler taken.sequence payloads at hkeeps
  have hlookup : ∀ result, (reassembledFor protocol id result).core.connected.lookup id =
      some result.1 := by
    intro result
    rw [core_reassembledFor]
    exact Finmap.lookup_insert _
  have happended : ∀ result, (reassembledFor protocol id result).core.api =
      protocol.core.api ++ result.2.toList.map (.dataTransfer id) := by
    intro result
    rw [core_reassembledFor]
  cases payloads with
  | nil =>
    have hopens := reassemble_opens (Finmap.lookup_eq_none.mpr hkeeps)
    rw [hopens] at hturn
    refine ⟨_, hturn, ?_⟩
    rw [if_neg (fun h => h.1 rfl)]
    refine ⟨(happended _).trans (List.append_nil _), _, hlookup _, ?_⟩
    exact keepsGroup_insert (List.cons_ne_nil _ _) fun fragment hmem => by
      rw [List.mem_singleton.mp hmem]
  | cons payload rest =>
    obtain ⟨group, hgroup, hpayloads, hsame⟩ := hkeeps
    have hlength : group.length = (payload :: rest).length := by
      rw [← hpayloads, List.length_map]
    have hbytes : groupPayload group = (payload :: rest).flatten := congrArg List.flatten hpayloads
    by_cases hlast : (payload :: rest).length + 1 = arrival.packet.message.total.toNat
    · have hcompletes := reassemble_completes hgroup hsame (by rw [hlength]; exact hlast)
      rw [hcompletes] at hturn
      refine ⟨_, hturn, ?_⟩
      rw [if_pos ⟨List.cons_ne_nil _ _, hlast⟩]
      refine ⟨by rw [happended, ← hbytes]; rfl, _, hlookup _, ?_⟩
      exact Finmap.lookup_eq_none.mp (Finmap.lookup_erase _ _)
    · have hjoins := reassemble_joins hgroup (by rw [hlength]; exact hlast)
      rw [hjoins] at hturn
      refine ⟨_, hturn, ?_⟩
      rw [if_neg (fun h => hlast h.2)]
      refine ⟨(happended _).trans (List.append_nil _), _, hlookup _, ?_⟩
      have hjoined : (group ++ [taken]).map (fun fragment => fragment.message.payload) =
          payload :: rest ++ [arrival.payload] := by
        rw [List.map_append, hpayloads]
        rfl
      rw [← hjoined]
      refine keepsGroup_insert (by simp) fun fragment hmem => ?_
      rcases List.mem_append.mp hmem with hmem | hmem
      · exact hsame fragment hmem
      · rw [List.mem_singleton.mp hmem]

end Holding

section Deliveries

variable {T A B E : Type} [Service T A B E] {crc32 : Crc32} {id : ConnectionId}
  {sequence : Sequence} {total : Nat} {protocol : Protocol T}
  {receive : Duration → RawPacket → Protocol T → Exec (Protocol T)} {arrivals : List Arrival}

structure Belongs (id : ConnectionId) (sequence : Sequence) (total : Nat)
    (packet : Packet ToSend Fragment) : Prop where
  metadata : packet.message.metadata = ⟨fragment⟩
  connectionId : packet.message.connectionId = id
  sequence : packet.sequence = sequence
  total : packet.message.total.toNat = total

theorem receiveEach_append {P : Type} {receive : Duration → RawPacket → P → Exec P}
    {clock : Nat → Duration} (first second : List RawPacket) (state : P) :
    receiveEach receive clock (first ++ second) state =
      receiveEach receive clock first state >>=
        receiveEach receive (fun reading => clock (reading + first.length)) second := by
  induction first generalizing state clock with
  | nil => rfl
  | cons raw rest ih =>
    rw [List.cons_append, receiveEach, receiveEach, bind_assoc]
    congr 1
    funext next
    rw [ih]
    simp only [List.length_cons, Nat.add_assoc]

theorem receiveEach_waits (hreceive : ReceivesFragments crc32 id receive)
    (harrivals : ∀ arrival ∈ arrivals, Belongs id sequence total arrival.packet)
    (payloads : List Payload) (hmissing : payloads.length + arrivals.length < total)
    (clock : Nat → Duration) (h : GroupAt protocol id sequence payloads) :
    ∃ after, receiveEach receive clock (arrivals.map (Arrival.raw crc32)) protocol = .ok after ∧
      after.core.api = protocol.core.api ∧
      GroupAt after id sequence (payloads ++ arrivals.map Arrival.payload) := by
  induction arrivals generalizing protocol payloads clock with
  | nil => exact ⟨protocol, rfl, rfl, by rwa [List.map_nil, List.append_nil]⟩
  | cons arrival rest ih =>
    rw [List.length_cons] at hmissing
    have hbelongs := harrivals arrival List.mem_cons_self
    obtain ⟨next, hturn, hstep⟩ := receive_fragment hreceive (clock 0) hbelongs.metadata
      hbelongs.connectionId hbelongs.sequence h
    rw [hbelongs.total, if_neg (by omega)] at hstep
    obtain ⟨hapi, hgroup⟩ := hstep
    obtain ⟨after, hafter, hkept, hheld⟩ := ih
      (fun other hmem => harrivals other (List.mem_cons_of_mem _ hmem))
      _ (by rw [List.length_append, List.length_singleton]; omega)
      (fun reading => clock (reading + 1)) hgroup
    refine ⟨after, ?_, hkept.trans hapi, ?_⟩
    · rw [List.map_cons, receiveEach, hturn]
      exact hafter
    · rwa [List.map_cons, ← List.singleton_append, ← List.append_assoc]

/-- As many fragments as are announced are handed over together, less the last to arrive. -/
theorem receiveEach_completes (hreceive : ReceivesFragments crc32 id receive)
    (harrivals : ∀ arrival ∈ arrivals, Belongs id sequence total arrival.packet)
    (hmany : 2 ≤ total) (hcount : arrivals.length = total) (clock : Nat → Duration)
    (h : GroupAt protocol id sequence []) :
    ∃ after, receiveEach receive clock (arrivals.map (Arrival.raw crc32)) protocol = .ok after ∧
      after.core.api = protocol.core.api ++ [.dataTransfer id (wordOf Arrival.payload arrivals)] ∧
      GroupAt after id sequence [] := by
  rcases List.eq_nil_or_concat arrivals with rfl | ⟨before, last, rfl⟩
  · rw [List.length_nil] at hcount
    omega
  · rw [List.concat_eq_append] at harrivals hcount ⊢
    rw [List.length_append, List.length_singleton] at hcount
    obtain ⟨middle, hmiddle, hsame, hheld⟩ := receiveEach_waits hreceive
      (fun other hmem => harrivals other (List.mem_append_left _ hmem)) []
      (by rw [List.length_nil]; omega) clock h
    have hbelongs := harrivals last (List.mem_append_right _ List.mem_cons_self)
    have hnonempty : before.map Arrival.payload ≠ [] := by
      intro hnil
      rw [List.map_eq_nil_iff.mp hnil, List.length_nil] at hcount
      omega
    rw [List.nil_append] at hheld
    obtain ⟨next, hturn, hstep⟩ := receive_fragment hreceive
      (clock (0 + (before.map (Arrival.raw crc32)).length)) hbelongs.metadata
      hbelongs.connectionId hbelongs.sequence hheld
    rw [hbelongs.total, if_pos ⟨hnonempty, by rw [List.length_map]; exact hcount⟩, hsame] at hstep
    refine ⟨next, ?_, ?_, hstep.2⟩
    · rw [List.map_append, receiveEach_append, hmiddle, ok_bind, List.map_singleton, receiveEach,
        hturn]
      rfl
    · rw [wordOf, List.dropLast_concat]
      exact hstep.1

theorem receiveEach_returns (hreceive : ReceivesFragments crc32 id receive)
    (harrivals : ∀ arrival ∈ arrivals, Belongs id sequence total arrival.packet)
    (payloads : List Payload) (clock : Nat → Duration) (h : GroupAt protocol id sequence payloads) :
    ∃ after, receiveEach receive clock (arrivals.map (Arrival.raw crc32)) protocol = .ok after := by
  induction arrivals generalizing protocol payloads clock with
  | nil => exact ⟨protocol, rfl⟩
  | cons arrival rest ih =>
    have hbelongs := harrivals arrival List.mem_cons_self
    obtain ⟨next, hturn, hstep⟩ := receive_fragment hreceive (clock 0) hbelongs.metadata
      hbelongs.connectionId hbelongs.sequence h
    have hgroup : ∃ held, GroupAt next id sequence held := by
      split at hstep
      · exact ⟨_, hstep.2⟩
      · exact ⟨_, hstep.2⟩
    obtain ⟨held, hheld⟩ := hgroup
    obtain ⟨after, hafter⟩ := ih (fun other hmem => harrivals other (List.mem_cons_of_mem _ hmem))
      held (fun reading => clock (reading + 1)) hheld
    refine ⟨after, ?_⟩
    rw [List.map_cons, receiveEach, hturn]
    exact hafter

end Deliveries

end Antarc.Properties
