import Antarc.Properties.Hearing

/-! The client's connection table. A server that the client was asked to connect to is in
exactly one of its three maps: requesting while the request is queued, awaiting once it
is sent, connected when the server has answered. -/
namespace Antarc.Properties

open Library

instance : PeerTable Client where
  handshaking client address trackers :=
    (∃ peer, client.requestingConnection.lookup address = some peer ∧
      trackersOf peer = trackers) ∨
    ∃ peer, client.awaitingConnectionAck.lookup address = some peer ∧ trackersOf peer = trackers
  handshaking_setCore _ _ := rfl
  promote_of_unknown client address id time hunknown := by
    have hnone : client.awaitingConnectionAck.lookup address = none := by
      cases hlookup : client.awaitingConnectionAck.lookup address with
      | none => rfl
      | some peer => exact absurd (.inr ⟨peer, hlookup, rfl⟩) (hunknown (trackersOf peer))
    change client.promoteAwaiting address id time = client
    rw [Client.promoteAwaiting, hnone]

/-- `asked` lists the addresses that `connect` took, `pending` those whose request has
not been sent. -/
structure ClientTable (asked pending : List SocketAddr) (client : Client) : Prop where
  ownRequesting : ∀ address peer, client.requestingConnection.lookup address = some peer →
    peer.address = address
  ownAwaiting : ∀ address peer, client.awaitingConnectionAck.lookup address = some peer →
    peer.address = address
  ownId : ∀ id peer, client.connected.lookup id = some peer → peer.connection.connectionId = id
  disjoint : ∀ address, address ∈ client.requestingConnection →
    address ∉ client.awaitingConnectionAck
  apart : ∀ id address, ConnectedAt client id address →
    address ∉ client.requestingConnection ∧ address ∉ client.awaitingConnectionAck
  single : ∀ id id' address, ConnectedAt client id address → ConnectedAt client id' address →
    id = id'
  asked_iff : ∀ address, address ∈ asked ↔ address ∈ client.requestingConnection ∨
    address ∈ client.awaitingConnectionAck ∨ ∃ id, ConnectedAt client id address
  pending_nodup : pending.Nodup
  pending_iff : ∀ address, address ∈ pending ↔ address ∈ client.requestingConnection

section Table

variable {asked pending : List SocketAddr} {client next : Client}

theorem mem_of_handshaking {address : SocketAddr} {trackers : Trackers}
    (h : PeerTable.handshaking client address trackers) :
    address ∈ client.requestingConnection ∨ address ∈ client.awaitingConnectionAck := by
  rcases h with ⟨peer, hfound, -⟩ | ⟨peer, hfound, -⟩
  · exact .inl (Finmap.mem_of_lookup_eq_some hfound)
  · exact .inr (Finmap.mem_of_lookup_eq_some hfound)

theorem ClientTable.distinct (table : ClientTable asked pending client) : Distinct client where
  connected := table.single
  apart := by
    intro id address trackers hat hhandshaking
    rcases mem_of_handshaking hhandshaking with hmem | hmem
    · exact (table.apart id address hat).1 hmem
    · exact (table.apart id address hat).2 hmem

theorem ClientTable.known_iff (table : ClientTable asked pending client) (address : SocketAddr) :
    client.knownPeer address = true ↔ address ∈ asked := by
  rw [table.asked_iff, Client.knownPeer, Bool.or_eq_true, Bool.or_eq_true, anyValue_iff,
    decide_eq_true_eq, decide_eq_true_eq, or_assoc]
  simp only [decide_eq_true_eq]
  rfl

theorem ClientTable.asked_of_holds (table : ClientTable asked pending client)
    {address : SocketAddr} {trackers : Trackers} (h : Holds client address trackers) :
    address ∈ asked := by
  rw [table.asked_iff]
  rcases h with ⟨id, peer, hfound, haddress, -⟩ | hwaiting
  · exact .inr (.inr ⟨id, peer, hfound, haddress⟩)
  · exact (mem_of_handshaking hwaiting).imp_right .inl

theorem ClientTable.congr (table : ClientTable asked pending client)
    (hrequesting : next.requestingConnection = client.requestingConnection)
    (hawaiting : next.awaitingConnectionAck = client.awaitingConnectionAck)
    (hconnected : ∀ id, (next.connected.lookup id).map identity =
      (client.connected.lookup id).map identity) :
    ClientTable asked pending next :=
  have hat : ∀ id address, ConnectedAt next id address ↔ ConnectedAt client id address :=
    connectedAt_congr (fun _ => rfl) hconnected
  { ownRequesting := by
      rw [hrequesting]
      exact table.ownRequesting
    ownAwaiting := by
      rw [hawaiting]
      exact table.ownAwaiting
    ownId := by
      intro id peer hpeer
      have hidentity := hconnected id
      rw [hpeer, Option.map_some, eq_comm, Option.map_eq_some_iff] at hidentity
      obtain ⟨old, hold, hidentity⟩ := hidentity
      exact (congrArg Prod.snd hidentity).symm.trans (table.ownId id old hold)
    disjoint := by
      rw [hrequesting, hawaiting]
      exact table.disjoint
    apart := by
      rw [hrequesting, hawaiting]
      exact fun id address h => table.apart id address ((hat id address).mp h)
    single := fun id id' address h h' =>
      table.single id id' address ((hat id address).mp h) ((hat id' address).mp h')
    asked_iff := by
      rw [hrequesting, hawaiting]
      simp only [hat]
      exact table.asked_iff
    pending_nodup := table.pending_nodup
    pending_iff := by
      rw [hrequesting]
      exact table.pending_iff }

theorem ClientTable.of_connecting (table : ClientTable asked pending client)
    {address : SocketAddr} (hunknown : client.knownPeer address = false) (packetId : PacketId)
    (time : Duration) :
    ClientTable (asked ++ [address]) (pending ++ [address])
      (connecting client address packetId time) := by
  have hnew : address ∉ asked := by
    rw [← table.known_iff, hunknown]
    simp
  have hnone := mt (table.asked_iff address).mpr hnew
  simp only [not_or, not_exists] at hnone
  have hmem : ∀ other, other ∈ (connecting client address packetId time).requestingConnection ↔
      other = address ∨ other ∈ client.requestingConnection := fun _ => Finmap.mem_insert
  have hat : ∀ id other, ConnectedAt (connecting client address packetId time) id other →
      ConnectedAt client id other ∧ other ≠ address := by
    refine fun id other hat => ⟨hat, ?_⟩
    rintro rfl
    exact hnone.2.2 id hat
  exact
  { ownRequesting := by
      intro other peer hpeer
      rw [connecting, lookup_insert_eq] at hpeer
      split at hpeer
      · next hsame =>
        cases hpeer
        exact hsame.symm
      · exact table.ownRequesting other peer hpeer
    ownAwaiting := table.ownAwaiting
    ownId := table.ownId
    disjoint := by
      intro other hother
      rcases (hmem other).mp hother with rfl | hold
      · exact hnone.2.1
      · exact table.disjoint other hold
    apart := by
      intro id other h
      obtain ⟨hold, hne⟩ := hat id other h
      rw [hmem, not_or]
      exact ⟨⟨hne, (table.apart id other hold).1⟩, (table.apart id other hold).2⟩
    single := table.single
    asked_iff := by
      intro other
      rw [List.mem_append, List.mem_singleton, table.asked_iff, hmem, or_comm, or_assoc]
      rfl
    pending_nodup := by
      refine List.nodup_append.mpr ⟨table.pending_nodup, List.nodup_singleton _, ?_⟩
      intro other hother last hlast heq
      rw [heq, List.mem_singleton.mp hlast] at hother
      exact hnone.1 ((table.pending_iff address).mp hother)
    pending_iff := by
      intro other
      rw [List.mem_append, List.mem_singleton, table.pending_iff, hmem, or_comm] }

theorem ClientTable.of_requested {address : SocketAddr} {pending : List SocketAddr}
    (table : ClientTable asked (address :: pending) client)
    {peer : Peer AwaitingConnectionAck} (hpeer : peer.address = address)
    (hrequesting : next.requestingConnection = client.requestingConnection.erase address)
    (hawaiting : next.awaitingConnectionAck = client.awaitingConnectionAck.insert address peer)
    (hconnected : next.connected = client.connected) :
    ClientTable asked pending next := by
  obtain ⟨hout, hnodup⟩ := List.nodup_cons.mp table.pending_nodup
  have hasking : address ∈ client.requestingConnection :=
    (table.pending_iff address).mp List.mem_cons_self
  have hat : ∀ id other, ConnectedAt next id other ↔ ConnectedAt client id other := by
    intro id other
    rw [connectedAt_iff, connectedAt_iff]
    exact Eq.congr_left (congrArg (fun map => (map.lookup id).map Peer.address) hconnected)
  exact
  { ownRequesting := by
      intro other found hfound
      rw [hrequesting, lookup_erase_eq] at hfound
      split at hfound
      · contradiction
      · exact table.ownRequesting other found hfound
    ownAwaiting := by
      intro other found hfound
      rw [hawaiting, lookup_insert_eq] at hfound
      split at hfound
      · next hsame =>
        cases hfound
        exact hpeer.trans hsame.symm
      · exact table.ownAwaiting other found hfound
    ownId := by
      rw [hconnected]
      exact table.ownId
    disjoint := by
      intro other hother
      rw [hrequesting, Finmap.mem_erase] at hother
      rw [hawaiting, Finmap.mem_insert, not_or]
      exact ⟨hother.1, table.disjoint other hother.2⟩
    apart := by
      intro id other h
      have hold := table.apart id other ((hat id other).mp h)
      rw [hrequesting, hawaiting, Finmap.mem_erase, Finmap.mem_insert]
      refine ⟨fun hmem => hold.1 hmem.2, ?_⟩
      rintro (rfl | hmem)
      · exact hold.1 hasking
      · exact hold.2 hmem
    single := fun id id' other h h' =>
      table.single id id' other ((hat id other).mp h) ((hat id' other).mp h')
    asked_iff := by
      intro other
      rw [table.asked_iff, hrequesting, hawaiting, Finmap.mem_erase, Finmap.mem_insert]
      simp only [hat]
      by_cases hsame : other = address
      · simp [hsame, hasking]
      · simp [hsame]
    pending_nodup := hnodup
    pending_iff := by
      intro other
      rw [hrequesting, Finmap.mem_erase, ← table.pending_iff, List.mem_cons]
      by_cases hsame : other = address
      · simp [hsame, hout]
      · simp [hsame] }

theorem ClientTable.of_accepted (table : ClientTable asked pending client) {address : SocketAddr}
    {id : ConnectionId} {waiting : Peer AwaitingConnectionAck} {peer : Peer Connected}
    (hfound : client.awaitingConnectionAck.lookup address = some waiting)
    (hfree : client.connected.lookup id = none) (haddress : peer.address = address)
    (hid : peer.connection.connectionId = id)
    (hrequesting : next.requestingConnection = client.requestingConnection)
    (hawaiting : next.awaitingConnectionAck = client.awaitingConnectionAck.erase address)
    (hconnected : next.connected = client.connected.insert id peer) :
    ClientTable asked pending next := by
  have hwaiting : address ∈ client.awaitingConnectionAck := Finmap.mem_of_lookup_eq_some hfound
  have hat : ∀ other at', ConnectedAt next other at' ↔
      other = id ∧ peer.address = at' ∨ ConnectedAt client other at' :=
    connectedAt_insert hfree hconnected
  rw [haddress] at hat
  exact
  { ownRequesting := by
      rw [hrequesting]
      exact table.ownRequesting
    ownAwaiting := by
      intro other found hfound
      rw [hawaiting, lookup_erase_eq] at hfound
      split at hfound
      · contradiction
      · exact table.ownAwaiting other found hfound
    ownId := by
      intro other found hfound
      rw [hconnected, lookup_insert_eq] at hfound
      split at hfound
      · next hsame =>
        cases hfound
        exact hid.trans hsame.symm
      · exact table.ownId other found hfound
    disjoint := by
      intro other hother
      rw [hrequesting] at hother
      rw [hawaiting, Finmap.mem_erase]
      exact fun hmem => table.disjoint other hother hmem.2
    apart := by
      intro id' other h
      rw [hrequesting, hawaiting, Finmap.mem_erase]
      rcases (hat id' other).mp h with ⟨-, rfl⟩ | hold
      · exact ⟨fun hmem => table.disjoint _ hmem hwaiting, fun hmem => hmem.1 rfl⟩
      · exact ⟨(table.apart id' other hold).1, fun hmem => (table.apart id' other hold).2 hmem.2⟩
    single := by
      intro first second other h h'
      rcases (hat first other).mp h with ⟨hfirst, rfl⟩ | hold <;>
        rcases (hat second _).mp h' with ⟨hsecond, hsame⟩ | hold'
      · rw [hfirst, hsecond]
      · exact absurd hwaiting (table.apart second _ hold').2
      · exact absurd (hsame ▸ hwaiting) (table.apart first _ hold).2
      · exact table.single first second _ hold hold'
    asked_iff := by
      intro other
      rw [table.asked_iff, hrequesting, hawaiting, Finmap.mem_erase]
      simp only [hat]
      by_cases hsame : other = address
      · simp [hsame, hwaiting]
      · simp [hsame, Ne.symm hsame]
    pending_nodup := table.pending_nodup
    pending_iff := by
      rw [hrequesting]
      exact table.pending_iff }

theorem ClientTable.of_hears {header : Header} (table : ClientTable asked pending client)
    (h : ClientHears client header next) : ClientTable asked pending next := by
  cases h with
  | connected peer found reassembler events _ =>
    refine table.congr rfl rfl fun id => ?_
    exact map_lookup_insert identity (hearing peer header reassembler) found rfl id
  | awaiting peer unconnected found time events _ =>
    have haddress : (hearing (peer.connected time header.connectionId) header ∅).address =
        header.source := table.ownAwaiting _ _ found
    exact table.of_accepted found unconnected haddress rfl rfl rfl rfl

end Table

end Antarc.Properties
