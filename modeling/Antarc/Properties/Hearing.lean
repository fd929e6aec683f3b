import Antarc.Properties.Queueing
import Antarc.Properties.Receiving

/-! A packet that is heard moves the acks of one peer and sends nothing. What has to be
known of the packet for the books to stay in order is stated once, in the words of
the policy. -/
namespace Antarc.Properties

open Library

def trackersHearing (trackers : Trackers) (header : Header) : Trackers :=
  { trackers with remoteAck := header.sequence.get, localAck := header.ack }

def freshTrackers (remoteAck : Ack) : Trackers :=
  ⟨.one, remoteAck, 0⟩

section Books

variable {S A B E : Type} [Service S A B E] [PeerTable S] {crc32 : Crc32} {policy : Policy}
  {numbering start : Numbering SocketAddr PacketId} {net : AntarcNet S}
  {side : AntarcNet S → Prop}

/-- One peer hears a packet, in whichever map it was and is: every other peer is as before. -/
theorem Ledger.hears (ledger : Ledger crc32 policy numbering net) {antarc : Protocol S}
    {address : SocketAddr} {before : Trackers} {header : Header}
    (hbefore : Holds net.antarc.service address before)
    (htrusted : policy.peer address (trackersHearing before header))
    (hholds : ∀ other trackers, Holds antarc.service other trackers →
      Holds net.antarc.service other trackers ∨
        other = address ∧ trackers = trackersHearing before header)
    (hkept : ∀ other trackers, Holds net.antarc.service other trackers →
      ∃ later, Holds antarc.service other later)
    (hconnected : ∀ id other, ConnectedAt net.antarc.service id other →
      ConnectedAt antarc.service id other)
    (hnamed : ∀ id other, ConnectedAt antarc.service id other → policy.id other id)
    (hdistinct : Distinct antarc.service)
    (hscheduler : antarc.core.scheduler = net.antarc.core.scheduler)
    (hhandler : antarc.core.reliabilityHandler = net.antarc.core.reliabilityHandler) :
    Ledger crc32 policy numbering { net with antarc := antarc } := by
  refine ledger.follow ⟨?_, hkept, hconnected, hdistinct⟩ ?_ hnamed ?_ ?_
  · intro other trackers h
    left
    rcases hholds other trackers h with hold | ⟨rfl, rfl⟩
    · exact ⟨trackers, hold, rfl⟩
    · exact ⟨before, hbefore, rfl⟩
  · intro other trackers h
    rcases hholds other trackers h with hold | ⟨rfl, rfl⟩
    · exact ledger.trusted other trackers hold
    · exact htrusted
  · rw [hscheduler]
    exact ledger.queued
  · rw [hhandler]
    exact ledger.stored

theorem Ledger.heard (ledger : Ledger crc32 policy numbering net) {id : ConnectionId}
    {peer : Peer Connected} {header : Header}
    (hfound : net.antarc.core.connected.lookup id = some peer)
    (htrusted : policy.peer peer.address (trackersHearing (trackersOf peer) header))
    (reassembler : Reassembler) (events : List (ProtocolEvent E)) :
    Ledger crc32 policy numbering { net with antarc := net.antarc.setCore { net.antarc.core with
      connected := net.antarc.core.connected.insert id (hearing peer header reassembler)
      api := net.antarc.core.api ++ events } } := by
  let core : ServiceCore A B E := { net.antarc.core with
    connected := net.antarc.core.connected.insert id (hearing peer header reassembler)
    api := net.antarc.core.api ++ events }
  change Ledger crc32 policy numbering { net with antarc := net.antarc.setCore core }
  have hnext : (net.antarc.setCore core).core = core := core_setCore _ _
  have hhandshaking : PeerTable.handshaking (net.antarc.setCore core).service =
      PeerTable.handshaking net.antarc.service := PeerTable.handshaking_setCore _ _
  have hat : ∀ id' address, ConnectedAt (net.antarc.setCore core).service id' address ↔
      ConnectedAt net.antarc.service id' address := by
    intro id' address
    rw [connectedAt_iff, connectedAt_iff]
    refine Eq.congr_left ?_
    change ((net.antarc.setCore core).core.connected.lookup id').map Peer.address = _
    rw [hnext]
    exact map_lookup_insert Peer.address (hearing peer header reassembler) hfound rfl id'
  refine ledger.hears (holds_of_connected hfound) htrusted ?_ ?_
    (fun id' address => (hat id' address).mpr)
    (fun id' address h => ledger.named id' address ((hat id' address).mp h))
    (ledger.distinct.congr hat hhandshaking) (by rw [hnext]) (by rw [hnext])
  · rintro address trackers (⟨id', found, hlookup, haddress, htrackers⟩ | hwaiting)
    · change (net.antarc.setCore core).core.connected.lookup id' = some found at hlookup
      rw [hnext, lookup_insert_eq] at hlookup
      split at hlookup
      · cases hlookup
        exact .inr ⟨haddress.symm, htrackers.symm⟩
      · exact .inl (.inl ⟨id', found, hlookup, haddress, htrackers⟩)
    · rw [hhandshaking] at hwaiting
      exact .inl (.inr hwaiting)
  · rintro address before (⟨id', found, hlookup, haddress, htrackers⟩ | hwaiting)
    · obtain ⟨found', hlookup', haddress'⟩ := (hat id' address).mpr ⟨found, hlookup, haddress⟩
      exact ⟨_, .inl ⟨id', found', hlookup', haddress', rfl⟩⟩
    · exact ⟨before, .inr (by rwa [hhandshaking])⟩

theorem BooksAt.report (books : BooksAt crc32 policy start side numbering net)
    (stable : Stable crc32 policy side) (outcome : Result Unit) :
    BooksAt crc32 policy start side numbering (AntarcNet.report outcome net) := by
  cases outcome with
  | ok _ => exact books
  | error fail =>
    have hledger : Ledger crc32 policy numbering (AntarcNet.report (.error fail) net) := by
      refine books.ledger.stay ?_ (PeerTable.handshaking_setCore _ _) ?_ ?_
      all_goals simp only [core_setCore]
      · intro _
        rfl
      · exact books.ledger.queued
      · exact books.ledger.stored
    refine ⟨hledger, books.settled, books.steps, stable net _ numbering books.side ?_ hledger⟩
    exact .of_untouched (untouched_setCore (fun _ => rfl) rfl rfl)

end Books

end Antarc.Properties
