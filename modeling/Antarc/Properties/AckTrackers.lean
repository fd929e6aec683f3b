import Antarc.Properties.Acknowledged
import Antarc.Properties.Isolation

/-! What receiving does to the ack trackers. The peer that a packet is attributed to takes the
sequence and the ack of the packet, whatever it had before, and every other peer keeps
its own: so a packet that the network has held back moves them back. -/
namespace Antarc.Properties

open Library

section TakesAcks

variable {S A B E : Type} [Service S A B E] [PeerTable S] {service next : S}
  {attributed : SocketAddr → Header → Prop}

/-- No peer's ack trackers are below what they were. -/
def NeverBackwards (service next : S) : Prop :=
  ∀ address before after, Holds service address before → Holds next address after →
    before.remoteAck ≤ after.remoteAck ∧ before.localAck ≤ after.localAck

/-- The trackers follow the packet at the peer that it is attributed to, and stay elsewhere. -/
structure TakesAcks (attributed : SocketAddr → Header → Prop) (service next : S) : Prop where
  one : ∀ address address' header header', attributed address header →
    attributed address' header' → address = address' ∧ header = header'
  takes : ∀ address before header, attributed address header → Holds service address before →
    Holds next address (trackersHearing before header)
  stays : ∀ address before, (∀ header, ¬attributed address header) →
    Holds service address before → Holds next address before
  single : ∀ address first second, Holds next address first → Holds next address second →
    first = second

theorem TakesAcks.neverBackwards_iff (h : TakesAcks attributed service next) :
    NeverBackwards service next ↔
      ∀ address before header, attributed address header → Holds service address before →
        before.remoteAck ≤ header.sequence.get ∧ before.localAck ≤ header.ack := by
  constructor
  · intro hnever address before header hattributed hbefore
    exact hnever address before _ hbefore (h.takes address before header hattributed hbefore)
  · intro hnewer address before after hbefore hafter
    by_cases hnone : ∃ header, attributed address header
    · obtain ⟨header, hattributed⟩ := hnone
      cases h.single address _ _ (h.takes address before header hattributed hbefore) hafter
      exact hnewer address before header hattributed hbefore
    · have hstays := h.stays address before (not_exists.mp hnone) hbefore
      cases h.single address _ _ hstays hafter
      exact ⟨UInt32.le_refl _, UInt32.le_refl _⟩

theorem takesAcks_of_none (hnone : ∀ address header, ¬attributed address header)
    (hkept : ∀ address before, Holds service address before → Holds next address before)
    (hsingle : ∀ address first second, Holds next address first → Holds next address second →
      first = second) : TakesAcks attributed service next where
  one := fun address _ header _ hattributed _ => absurd hattributed (hnone address header)
  takes := fun address _ header hattributed _ => absurd hattributed (hnone address header)
  stays := fun address before _ => hkept address before
  single := hsingle

end TakesAcks

section Server

variable {crc32 : Crc32} {registry : Registry SocketAddr} {server next : Server}
  {header : Header} {raw : RawPacket} {now : Duration}

def serverAttributes (crc32 : Crc32) (server : Server) (raw : RawPacket) (now : Duration)
    (address : SocketAddr) (header : Header) : Prop :=
  headerRead crc32 raw now = some header ∧ addressOf server header.connectionId = some address

theorem headerRead_eq_some :
    headerRead crc32 raw now = some header ↔
      ∃ decoded, raw.decode crc32 DecodedForServer.tryFrom now = .ok (.ok decoded) ∧
        forServerHeader decoded = some header := by
  unfold headerRead
  constructor
  · intro h
    split at h
    · next decoded hdecode => exact ⟨decoded, hdecode, h⟩
    · contradiction
  · rintro ⟨decoded, hdecode, hheader⟩
    rw [hdecode]
    exact hheader

theorem serverAttributes_one (address address' : SocketAddr) (header header' : Header)
    (h : serverAttributes crc32 server raw now address header)
    (h' : serverAttributes crc32 server raw now address' header') :
    address = address' ∧ header = header' := by
  obtain ⟨hread, hat⟩ := h
  obtain ⟨hread', hat'⟩ := h'
  cases hread.symm.trans hread'
  exact ⟨Option.some.inj (hat.symm.trans hat'), rfl⟩

theorem mem_of_addressOf {id : ConnectionId} {address : SocketAddr}
    (h : addressOf server id = some address) :
    id ∈ server.connected ∨ id ∈ server.awaitingConnectionAck := by
  rcases Option.or_eq_some_iff.mp h with h | ⟨-, h⟩
  · obtain ⟨peer, hfound, -⟩ := Option.map_eq_some_iff.mp h
    exact .inl (Finmap.mem_of_lookup_eq_some hfound)
  · obtain ⟨peer, hfound, -⟩ := Option.map_eq_some_iff.mp h
    exact .inr (Finmap.mem_of_lookup_eq_some hfound)

theorem ServerTable.holds_single (table : ServerTable registry server) (address : SocketAddr)
    (first second : Trackers) (h : Holds server address first) (h' : Holds server address second) :
    first = second := by
  rcases h with ⟨id, peer, hfound, rfl, rfl⟩ | hwaiting
  · rcases h' with ⟨id', peer', hfound', haddress, rfl⟩ | hwaiting
    · have hid := table.distinct.connected id id' _ ⟨peer, hfound, rfl⟩ ⟨peer', hfound', haddress⟩
      rw [hid] at hfound
      cases hfound.symm.trans hfound'
      rfl
    · exact absurd hwaiting (table.distinct.apart id _ _ ⟨peer, hfound, rfl⟩)
  · rcases h' with ⟨id', peer', hfound', haddress, -⟩ | hwaiting'
    · exact absurd hwaiting (table.distinct.apart id' _ _ ⟨peer', hfound', haddress⟩)
    · obtain ⟨id, peer, hfound, rfl, rfl⟩ := hwaiting
      obtain ⟨id', peer', hfound', haddress, rfl⟩ := hwaiting'
      have hid := table.injective (table.addressOf_awaiting hfound)
        (haddress ▸ table.addressOf_awaiting hfound')
      rw [hid] at hfound
      cases hfound.symm.trans hfound'
      rfl

theorem ServerHears.takes (table : ServerTable registry server)
    (h : ServerHears server header next) {address : SocketAddr} {before : Trackers}
    (hat : addressOf server header.connectionId = some address)
    (hbefore : Holds server address before) :
    Holds next address (trackersHearing before header) := by
  cases h with
  | connected peer found reassembler events delivers =>
    cases hat.symm.trans (ServerTable.addressOf_connected found)
    cases table.holds_single _ _ _ hbefore (holds_of_connected found)
    exact .inl ⟨_, _, Finmap.lookup_insert _, rfl, rfl⟩
  | awaiting peer unconnected found time reassembler events delivers =>
    cases hat.symm.trans (table.addressOf_awaiting found)
    cases table.holds_single _ _ _ hbefore (.inr ⟨_, peer, found, rfl, rfl⟩)
    exact .inl ⟨_, _, Finmap.lookup_insert _, rfl, rfl⟩

theorem ServerHears.stays (table : ServerTable registry server)
    (h : ServerHears server header next) {address : SocketAddr} {before : Trackers}
    (hat : addressOf server header.connectionId ≠ some address)
    (hbefore : Holds server address before) : Holds next address before := by
  have hconnected : ∀ id peer, server.connected.lookup id = some peer → peer.address = address →
      id ≠ header.connectionId := by
    rintro id peer hfound rfl rfl
    exact hat (ServerTable.addressOf_connected hfound)
  have hawaiting : ∀ id peer, server.awaitingConnectionAck.lookup id = some peer →
      peer.address = address → id ≠ header.connectionId := by
    rintro id peer hfound rfl rfl
    exact hat (table.addressOf_awaiting hfound)
  rcases hbefore with
    ⟨id, peer, hfound, haddress, htrackers⟩ | ⟨id, peer, hfound, haddress, htrackers⟩
  · have hne := hconnected id peer hfound haddress
    cases h <;>
      exact .inl ⟨id, peer, (Finmap.lookup_insert_of_ne _ hne).trans hfound, haddress, htrackers⟩
  · have hne := hawaiting id peer hfound haddress
    cases h with
    | connected => exact .inr ⟨id, peer, hfound, haddress, htrackers⟩
    | awaiting =>
      exact .inr ⟨id, peer, (Finmap.lookup_erase_ne hne).trans hfound, haddress, htrackers⟩

theorem ServerAdmits.stays {packet : Packet Received ConnectionRequest} {packetId : PacketId}
    (table : ServerTable registry server) (h : ServerAdmits server packet packetId now next)
    {address : SocketAddr} {before : Trackers} (hbefore : Holds server address before) :
    Holds next address before := by
  cases h with
  | again id peer asking found =>
    rw [table.requesting, Finmap.lookup_empty] at found
    contradiction
  | registered tracker unknown counted =>
    rcases hbefore with hconnected | ⟨id, peer, hfound, haddress, htrackers⟩
    · exact .inl hconnected
    · refine .inr ⟨id, peer, ?_, haddress, htrackers⟩
      refine (Finmap.lookup_insert_of_ne _ ?_).trans hfound
      rintro rfl
      have hmem := (table.mem_iff server.connectionIdTracker).mp
        (.inl (Finmap.mem_of_lookup_eq_some hfound))
      omega

theorem ServerTable.takesAcks (table : ServerTable registry server) {hash : RandomState}
    {packetId : PacketId} {result : Result Bool}
    (h : server.onReceived crc32 hash raw packetId now = .ok (result, next)) :
    TakesAcks (serverAttributes crc32 server raw now) server next := by
  have htable : ∃ later, ServerTable later next := by
    rcases server_onReceived_cases h with hsame | ⟨_, _, -, -, -, hhears⟩ | ⟨_, -, -, hadmits⟩
    · exact ⟨registry, hsame ▸ table⟩
    · exact ⟨registry, table.of_hears hhears⟩
    · exact (table.of_admits hadmits).imp fun _ hlater => hlater.2
  obtain ⟨later, htable⟩ := htable
  by_cases hsome : ∃ address header, serverAttributes crc32 server raw now address header
  · obtain ⟨address, header, hattributed⟩ := hsome
    obtain ⟨hread, hat⟩ := hattributed
    obtain ⟨decoded, hdecode, hheader⟩ := headerRead_eq_some.mp hread
    obtain ⟨-, hhears⟩ := server_onReceived_hears hdecode hheader (mem_of_addressOf hat) h
    exact
    { one := serverAttributes_one
      takes := by
        intro other before header' hattributed hbefore
        obtain ⟨rfl, rfl⟩ := serverAttributes_one _ _ _ _ ⟨hread, hat⟩ hattributed
        exact hhears.takes table hat hbefore
      stays := by
        intro other before hnone hbefore
        exact hhears.stays table (fun hsame => hnone header ⟨hread, hsame⟩) hbefore
      single := htable.holds_single }
  · have hnone : ∀ address header, ¬serverAttributes crc32 server raw now address header :=
      fun address header hattributed => hsome ⟨address, header, hattributed⟩
    refine takesAcks_of_none hnone (fun address before hbefore => ?_) htable.holds_single
    rcases server_onReceived_cases h with
      hsame | ⟨decoded, header, hdecode, hheader, -, hhears⟩ | ⟨_, -, -, hadmits⟩
    · rwa [hsame]
    · have hread := headerRead_eq_some.mpr ⟨decoded, hdecode, hheader⟩
      exact hhears.stays table (fun hsame => hnone _ header ⟨hread, hsame⟩) hbefore
    · exact hadmits.stays table hbefore

end Server

section Client

variable {crc32 : Crc32} {asked pending : List SocketAddr} {client next : Client}
  {header : Header} {raw : RawPacket} {now : Duration}

def clientAttributes (crc32 : Crc32) (client : Client) (raw : RawPacket) (now : Duration)
    (address : SocketAddr) (header : Header) : Prop :=
  ∃ decoded, raw.decode crc32 DecodedForClient.tryFrom now = .ok (.ok decoded) ∧
    forClientHeader decoded = header ∧ addressee client decoded = some address

theorem clientAttributes_one (address address' : SocketAddr) (header header' : Header)
    (h : clientAttributes crc32 client raw now address header)
    (h' : clientAttributes crc32 client raw now address' header') :
    address = address' ∧ header = header' := by
  obtain ⟨decoded, hdecode, rfl, hat⟩ := h
  obtain ⟨decoded', hdecode', rfl, hat'⟩ := h'
  cases hdecode.symm.trans hdecode'
  exact ⟨Option.some.inj (hat.symm.trans hat'), rfl⟩

theorem addressed_of_addressee {decoded : DecodedForClient} {address : SocketAddr}
    (h : addressee client decoded = some address) :
    (connectedAs client (forClientHeader decoded).connectionId).or
      (awaitingAt client (forClientHeader decoded).source) = some address := by
  cases decoded with
  | connectionAccepted packet =>
    rw [addressee] at h
    split at h
    · contradiction
    · next hfresh =>
      have hnone : client.connected.lookup packet.message.connectionId = none :=
        Finmap.lookup_eq_none.mpr fun hmem => hfresh (.inr hmem)
      change (connectedAs client packet.message.connectionId).or _ = _
      rw [connectedAs, hnone]
      exact h
  | dataTransfer packet => exact h
  | fragment packet => exact Option.or_eq_some_iff.mpr (.inl h)
  | heartbeat packet => exact h

theorem ClientTable.holds_single (table : ClientTable asked pending client) (address : SocketAddr)
    (first second : Trackers) (h : Holds client address first) (h' : Holds client address second) :
    first = second := by
  rcases h with ⟨id, peer, hfound, rfl, rfl⟩ | hwaiting
  · rcases h' with ⟨id', peer', hfound', haddress, rfl⟩ | hwaiting
    · have hid := table.single id id' _ ⟨peer, hfound, rfl⟩ ⟨peer', hfound', haddress⟩
      rw [hid] at hfound
      cases hfound.symm.trans hfound'
      rfl
    · exact absurd hwaiting (table.distinct.apart id _ _ ⟨peer, hfound, rfl⟩)
  · rcases h' with ⟨id', peer', hfound', haddress, -⟩ | hwaiting'
    · exact absurd hwaiting (table.distinct.apart id' _ _ ⟨peer', hfound', haddress⟩)
    · rcases hwaiting with ⟨peer, hfound, rfl⟩ | ⟨peer, hfound, rfl⟩ <;>
        rcases hwaiting' with ⟨peer', hfound', rfl⟩ | ⟨peer', hfound', rfl⟩
      · cases hfound.symm.trans hfound'
        rfl
      · exact absurd (Finmap.mem_of_lookup_eq_some hfound')
          (table.disjoint address (Finmap.mem_of_lookup_eq_some hfound))
      · exact absurd (Finmap.mem_of_lookup_eq_some hfound)
          (table.disjoint address (Finmap.mem_of_lookup_eq_some hfound'))
      · cases hfound.symm.trans hfound'
        rfl

theorem ClientHears.takes (table : ClientTable asked pending client)
    (h : ClientHears client header next) {address : SocketAddr} {before : Trackers}
    (hat : (connectedAs client header.connectionId).or (awaitingAt client header.source) =
      some address)
    (hbefore : Holds client address before) :
    Holds next address (trackersHearing before header) := by
  cases h with
  | connected peer found reassembler events delivers =>
    rw [connectedAs, found] at hat
    cases hat
    cases table.holds_single _ _ _ hbefore (holds_of_connected found)
    exact .inl ⟨_, _, Finmap.lookup_insert _, rfl, rfl⟩
  | awaiting peer unconnected found time events delivers =>
    rw [connectedAs, unconnected, awaitingAt, found] at hat
    cases hat
    have hown := table.ownAwaiting _ peer found
    cases table.holds_single _ _ _ hbefore (.inr (.inr ⟨peer, hown ▸ found, rfl⟩))
    exact .inl ⟨_, _, Finmap.lookup_insert _, rfl, rfl⟩

theorem ClientHears.stays (table : ClientTable asked pending client)
    (h : ClientHears client header next) {address : SocketAddr} {before : Trackers}
    (hat : (connectedAs client header.connectionId).or (awaitingAt client header.source) ≠
      some address)
    (hbefore : Holds client address before) : Holds next address before := by
  cases h with
  | connected peer found reassembler events delivers =>
    rw [connectedAs, found] at hat
    rcases hbefore with ⟨id, known, hfound, haddress, htrackers⟩ | hwaiting
    · refine .inl ⟨id, known, (Finmap.lookup_insert_of_ne _ ?_).trans hfound, haddress, htrackers⟩
      rintro rfl
      cases hfound.symm.trans found
      exact hat (congrArg some haddress)
    · exact .inr hwaiting
  | awaiting peer unconnected found time events delivers =>
    rw [connectedAs, unconnected, awaitingAt, found] at hat
    have hne : address ≠ header.source := by
      rintro rfl
      exact hat (congrArg some (table.ownAwaiting _ peer found))
    rcases hbefore with ⟨id, known, hfound, haddress, htrackers⟩ | hrequesting | hawaiting
    · refine .inl ⟨id, known, (Finmap.lookup_insert_of_ne _ ?_).trans hfound, haddress, htrackers⟩
      rintro rfl
      exact absurd (hfound.symm.trans unconnected) (by simp)
    · exact .inr (.inl hrequesting)
    · obtain ⟨known, hfound, htrackers⟩ := hawaiting
      exact .inr (.inr ⟨known, (Finmap.lookup_erase_ne hne).trans hfound, htrackers⟩)

theorem ClientTable.takesAcks (table : ClientTable asked pending client) {result : Result Unit}
    (h : client.onReceived crc32 raw now = .ok (result, next)) :
    TakesAcks (clientAttributes crc32 client raw now) client next := by
  rcases client_onReceived_decides h with ⟨rfl, hnone⟩ |
    ⟨decoded, address, hdecode, haddressee, -, hhears⟩
  · refine takesAcks_of_none ?_ (fun _ _ hbefore => hbefore) table.holds_single
    rintro address header ⟨decoded, hdecode, -, hsome⟩
    cases (hnone decoded hdecode).symm.trans hsome
  · have hat := addressed_of_addressee haddressee
    have hattributed : clientAttributes crc32 client raw now address (forClientHeader decoded) :=
      ⟨decoded, hdecode, rfl, haddressee⟩
    exact
    { one := clientAttributes_one
      takes := by
        intro other before header hother hbefore
        obtain ⟨rfl, rfl⟩ := clientAttributes_one _ _ _ _ hattributed hother
        exact hhears.takes table hat hbefore
      stays := by
        intro other before hnone hbefore
        refine hhears.stays table (fun hsame => ?_) hbefore
        cases hat.symm.trans hsame
        exact hnone _ hattributed
      single := (table.of_hears hhears).holds_single }

end Client

/-- After a packet is received, in any reachable state of either role: the peer that it is
attributed to has its sequence and ack, every other peer has the trackers it had, and so
none has moved back unless the packet is older than what its peer has heard. -/
theorem acks_follow_packet (crc32 : Crc32) (raw : RawPacket) (now : Duration) :
    (∀ history : History Server, (serverHistories crc32).Reachable history →
      ∀ (hash : RandomState) (result : Result Unit) (next : Protocol Server),
        history.protocol.serverReceived crc32 hash raw now = .ok (result, next) →
        let service := history.protocol.service
        let attributed := serverAttributes crc32 service raw now
        TakesAcks attributed service next.service ∧
          (NeverBackwards service next.service ↔
            ∀ address before header, attributed address header → Holds service address before →
              before.remoteAck ≤ header.sequence.get ∧ before.localAck ≤ header.ack)) ∧
    ∀ history : History Client, (clientHistories crc32).Reachable history →
      ∀ (result : Result Unit) (next : Protocol Client),
        history.protocol.clientReceived crc32 raw now = .ok (result, next) →
        let service := history.protocol.service
        let attributed := clientAttributes crc32 service raw now
        TakesAcks attributed service next.service ∧
          (NeverBackwards service next.service ↔
            ∀ address before header, attributed address header → Holds service address before →
              before.remoteAck ≤ header.sequence.get ∧ before.localAck ≤ header.ack) := by
  constructor
  · intro history hreachable hash result next h
    obtain ⟨⟨registry, table⟩, -⟩ := serverHistories_keeps hreachable
    obtain ⟨answered, hreceived, -⟩ := serverReceived_onReceived h
    have htakes := table.takesAcks hreceived
    exact ⟨htakes, htakes.neverBackwards_iff⟩
  · intro history hreachable result next h
    obtain ⟨⟨asked, pending, table⟩, -⟩ := clientHistories_keeps hreachable
    have htakes := table.takesAcks (clientReceived_onReceived h).1
    exact ⟨htakes, htakes.neverBackwards_iff⟩

section Late

theorem connected_holds {server next : Server} {header : Header} {address : SocketAddr}
    {sequence : Sequence} (h : ServerActsOn header address sequence server next) :
    Holds next address ⟨sequence, header.sequence.get, header.ack⟩ := by
  obtain ⟨peer, hfound, haddress, htrackers⟩ := h.acts.peer
  exact .inl ⟨header.connectionId, peer, hfound, haddress, htrackers⟩

/-- A peer's second heartbeat comes before its first one, and the first moves both back. -/
theorem held_back_heartbeat_moves_back :
    ∃ newer older : Protocol Server,
      (serverHistories ieeeCrc32).Reachable (requestedHistory.after newer) ∧
      newer.serverReceived ieeeCrc32 (Classical.arbitrary RandomState) earlyDatagram .zero =
        .ok (.ok (), older) ∧
      Holds newer.service (.v4 0 0) ⟨⟨1, by decide⟩, 2, 1⟩ ∧
      Holds older.service (.v4 0 0) ⟨⟨1, by decide⟩, 1, 0⟩ ∧
      ¬NeverBackwards newer.service older.service := by
  let hash := Classical.arbitrary RandomState
  have hnewer := Codec.roundTrips_heartbeat ieeeCrc32 ackingHeartbeat (.v4 0 0) .zero rfl
  have holder := Codec.roundTrips_heartbeat ieeeCrc32 earlyHeartbeat (.v4 0 0) .zero rfl
  obtain ⟨newer, hreceived, hacts, -⟩ := serverReceived_actsOn hash hnewer.1 rfl
    requestedServer_registered
  obtain ⟨peer, hfound, haddress, htrackers⟩ := hacts.acts.peer
  have hsequence := congrArg Trackers.sequence htrackers
  have hregistered : Registered newer.service _ peer.address peer.sequenceTracker :=
    .connected peer hfound
  obtain ⟨older, hlate, hlateActs, -⟩ := serverReceived_actsOn hash holder.1 rfl hregistered
  rw [haddress, show peer.sequenceTracker = ⟨1, by decide⟩ from hsequence] at hlateActs
  have hbefore := connected_holds hacts
  have hafter := connected_holds hlateActs
  refine ⟨newer, older, (acknowledged_reachable requestedHistory_reachable).next
    ⟨_, .received hash _ .zero (.ok ()) newer hreceived⟩, hlate, hbefore, hafter, ?_⟩
  intro hnever
  exact absurd (hnever _ _ _ hbefore hafter).1 (by decide)

/-- The first heartbeat of a peer is no older than its request. -/
theorem requestedHistory_follows :
    TakesAcks (serverAttributes ieeeCrc32 requestedServer.service earlyDatagram .zero)
        requestedServer.service overtakenServer.service ∧
      (NeverBackwards requestedServer.service overtakenServer.service ↔
        ∀ address before header,
          serverAttributes ieeeCrc32 requestedServer.service earlyDatagram .zero address header →
          Holds requestedServer.service address before →
            before.remoteAck ≤ header.sequence.get ∧ before.localAck ≤ header.ack) :=
  (acks_follow_packet ieeeCrc32 earlyDatagram .zero).1 requestedHistory
    (acknowledged_reachable requestedHistory_reachable) (Classical.arbitrary RandomState) (.ok ())
    overtakenServer (requestedServer_overtaken _)

end Late

end Antarc.Properties
