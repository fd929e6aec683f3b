import Antarc.Properties.ClientBooks
import Antarc.Properties.Provenance

/-! What a service hands to its application: the payload of a data transfer that it has just
read, or what a fragment that it has just read completes. Of the fragments that wait in its
groups, whatever was known when they were received is known still. -/
namespace Antarc.Properties

open Library

section Groups

variable {known : Packet Received Fragment → Prop} {id : ConnectionId} {peer : Peer Connected}
  {before after : HashMap ConnectionId (Peer Connected)}

def PeerHolds (known : Packet Received Fragment → Prop) (id : ConnectionId)
    (peer : Peer Connected) : Prop :=
  ∀ sequence group, peer.connection.reassembler.lookup sequence = some group →
    ∀ fragment ∈ group, fragment.sequence = sequence ∧ fragment.message.connectionId = id ∧
      known fragment

def HoldsOnly (known : Packet Received Fragment → Prop)
    (connected : HashMap ConnectionId (Peer Connected)) : Prop :=
  ∀ id peer, connected.lookup id = some peer → PeerHolds known id peer

theorem holdsOnly_empty : HoldsOnly known ∅ := by
  intro id peer hfound
  contradiction

theorem HoldsOnly.mono {weaker : Packet Received Fragment → Prop} (h : HoldsOnly known before)
    (himp : ∀ fragment, known fragment → weaker fragment) : HoldsOnly weaker before := by
  intro id peer hfound sequence group hgroup fragment hmem
  obtain ⟨hsequence, hid, hknown⟩ := h id peer hfound sequence group hgroup fragment hmem
  exact ⟨hsequence, hid, himp fragment hknown⟩

theorem PeerHolds.of_inherits (h : HoldsOnly known before) (hpeer : Inherits before id peer) :
    PeerHolds known id peer := by
  intro sequence group hgroup
  rcases hpeer with ⟨old, hold, -, hkept⟩ | ⟨-, hempty⟩
  · exact h id old hold sequence group (hkept sequence group hgroup)
  · rw [hempty] at hgroup
    contradiction

theorem HoldsOnly.of_keeps (h : HoldsOnly known before) (hkept : KeepsGroups before after) :
    HoldsOnly known after :=
  fun id peer hfound => .of_inherits h (hkept id peer hfound)

theorem PeerHolds.insert {sequence : Sequence} {group : List (Packet Received Fragment)}
    (h : PeerHolds known id peer) (hgroup : ∀ fragment ∈ group, fragment.sequence = sequence ∧
      fragment.message.connectionId = id ∧ known fragment) :
    PeerHolds known id
      (peer.keepFragments (peer.connection.reassembler.insert sequence group)) := by
  intro other found hfound
  change (peer.connection.reassembler.insert sequence group).lookup other = some found at hfound
  rw [lookup_insert_eq] at hfound
  split at hfound
  · next heq =>
    cases hfound
    rwa [heq]
  · exact h other found hfound

theorem PeerHolds.erase (h : PeerHolds known id peer) (sequence : Sequence) :
    PeerHolds known id (peer.keepFragments (peer.connection.reassembler.erase sequence)) := by
  intro other found hfound
  change (peer.connection.reassembler.erase sequence).lookup other = some found at hfound
  rw [lookup_erase_eq] at hfound
  split at hfound
  · contradiction
  · exact h other found hfound

/-- A group that a fragment completes is handed over without that fragment's payload. -/
structure Completes (known : Packet Received Fragment → Prop) (last : Packet Received Fragment)
    (payload : Payload) : Prop where
  parts : ∃ parts : List (Packet Received Fragment),
    (∀ part ∈ parts, part.sequence = last.sequence ∧
      part.message.connectionId = last.message.connectionId ∧ known part) ∧
    parts.length + 1 = last.message.total.toNat ∧ groupPayload parts = payload

theorem PeerHolds.reassembles {packet : Packet Received Fragment} {joined : Peer Connected}
    {whole : Option Payload} (h : PeerHolds known packet.message.connectionId peer)
    (hknown : known packet) (hreassemble : peer.reassemble packet = .ok (joined, whole)) :
    PeerHolds known packet.message.connectionId joined ∧
      ∀ payload ∈ whole, Completes known packet payload := by
  cases hfound : peer.connection.reassembler.lookup packet.sequence with
  | none =>
    rw [reassemble_opens hfound] at hreassemble
    cases hreassemble
    refine ⟨h.insert fun fragment hmem => ?_, fun _ hnone => by contradiction⟩
    rw [List.mem_singleton.mp hmem]
    exact ⟨rfl, rfl, hknown⟩
  | some held =>
    have hheld := h _ _ hfound
    have hinserted : PeerHolds known packet.message.connectionId (peer.keepFragments
        (peer.connection.reassembler.insert packet.sequence (held ++ [packet]))) := by
      refine h.insert fun fragment hmem => ?_
      rcases List.mem_append.mp hmem with hmem | hmem
      · exact hheld fragment hmem
      · rw [List.mem_singleton.mp hmem]
        exact ⟨rfl, rfl, hknown⟩
    by_cases hlast : held.length + 1 = packet.message.total.toNat
    · rw [reassemble_completes hfound (fun fragment hmem => (hheld fragment hmem).1) hlast]
        at hreassemble
      cases hreassemble
      refine ⟨hinserted.erase _, fun payload hpayload => ?_⟩
      cases hpayload
      exact ⟨held, hheld, hlast, rfl⟩
    · rw [reassemble_joins hfound hlast] at hreassemble
      cases hreassemble
      exact ⟨hinserted, fun _ hnone => by contradiction⟩

end Groups

section Receipts

def transferAtServer (crc32 : Crc32) (raw : RawPacket) (now : Duration) :
    List (Packet Received DataTransfer) :=
  match raw.decode crc32 DecodedForServer.tryFrom now with
  | .ok (.ok (.dataTransfer packet)) => [packet]
  | _ => []

def transferAtClient (crc32 : Crc32) (raw : RawPacket) (now : Duration) :
    List (Packet Received DataTransfer) :=
  match raw.decode crc32 DecodedForClient.tryFrom now with
  | .ok (.ok (.dataTransfer packet)) => [packet]
  | _ => []

inductive Hands (known : Packet Received Fragment → Prop)
    (transfers : List (Packet Received DataTransfer))
    (fragments : List (Packet Received Fragment)) (id : ConnectionId) (payload : Payload) :
    Prop where
  | whole (packet : Packet Received DataTransfer) (read : packet ∈ transfers)
      (isFor : packet.message.connectionId = id) (carries : packet.message.payload = payload)
  | joined (last : Packet Received Fragment) (read : last ∈ fragments)
      (isFor : last.message.connectionId = id) (completes : Completes known last payload)

/-- A receipt appends events, and those that hand a payload over may. -/
def Pushes {E : Type} (may : ConnectionId → Payload → Prop)
    (before after : List (ProtocolEvent E)) :
    Prop :=
  ∃ events, after = before ++ events ∧ ∀ id payload, .dataTransfer id payload ∈ events →
    may id payload

variable {A B E : Type} {known : Packet Received Fragment → Prop}
  {may : ConnectionId → Payload → Prop}

theorem Pushes.nothing (events : List (ProtocolEvent E)) : Pushes may events events :=
  ⟨[], (List.append_nil _).symm, fun _ _ hmem => by contradiction⟩

theorem Pushes.fails (events : List (ProtocolEvent E)) (error : ProtocolError) :
    Pushes may events (events ++ [.fail error]) :=
  ⟨_, rfl, fun _ _ hmem => by simp at hmem⟩

theorem Pushes.one {id : ConnectionId} {payload : Payload} (events : List (ProtocolEvent E))
    (hmay : may id payload) : Pushes may events (events ++ [.dataTransfer id payload]) := by
  refine ⟨_, rfl, fun other carried hmem => ?_⟩
  cases List.mem_singleton.mp hmem
  exact hmay

theorem Receipt.holds {read : List (Packet Received Fragment)} {before after : ServiceCore A B E}
    (h : Receipt read before after) (hholds : HoldsOnly known before.connected)
    (hread : ∀ fragment ∈ read, known fragment) :
    HoldsOnly known after.connected ∧ (read ≠ [] →
      Pushes (Hands known [] read) before.api after.api) := by
  cases h with
  | plain kept quiet =>
    refine ⟨hholds.of_keeps kept, fun hsome => ?_⟩
    rcases quiet with hnone | hapi
    · exact absurd hnone hsome
    · rw [hapi]
      exact .nothing _
  | fragment packet peer joined whole reads inherits reassembles connected api =>
    subst reads
    have hpeer := PeerHolds.of_inherits hholds inherits
    obtain ⟨hjoined, hwhole⟩ := hpeer.reassembles (hread _ (List.mem_singleton_self _)) reassembles
    refine ⟨fun id found hfound => ?_, fun _ => ?_⟩
    · rw [connected, lookup_insert_eq] at hfound
      split at hfound
      · next heq =>
        cases hfound
        rwa [heq]
      · exact hholds id found hfound
    · rw [api]
      cases whole with
      | none =>
        rw [Option.toList_none, List.map_nil, List.append_nil]
        exact .nothing _
      | some payload =>
        exact .one _ (.joined packet (List.mem_singleton_self _) rfl (hwhole payload rfl))

theorem Hands.of_fragments {fragments : List (Packet Received Fragment)}
    {transfers : List (Packet Received DataTransfer)} {id : ConnectionId} {payload : Payload}
    (h : Hands known [] fragments id payload) : Hands known transfers fragments id payload := by
  cases h with
  | whole packet read isFor carries => contradiction
  | joined last read isFor completes => exact .joined last read isFor completes

theorem Pushes.mono {weaker : ConnectionId → Payload → Prop} {before after : List (ProtocolEvent E)}
    (h : Pushes may before after) (himp : ∀ id payload, may id payload → weaker id payload) :
    Pushes weaker before after := by
  obtain ⟨events, hafter, hevents⟩ := h
  exact ⟨events, hafter, fun id payload hmem => himp id payload (hevents id payload hmem)⟩

end Receipts

section Server

variable {crc32 : Crc32} {raw : RawPacket} {now : Duration} {server next : Server}
  {known : Packet Received Fragment → Prop} {may : ConnectionId → Payload → Prop}

theorem acknowledge_api {id : ConnectionId} {sequence : Sequence} {ack : Ack} {time : Duration}
    (h : server.acknowledge id sequence ack time = some next) : next.api = server.api := by
  obtain ⟨_, -, -, hapi⟩ := acknowledge_inherits h
  exact hapi

theorem pushes_onDataTransfer {packet : Packet Received DataTransfer} {result : Result Bool}
    (hmay : may packet.message.connectionId packet.message.payload)
    (h : server.onDataTransfer packet now = .ok (result, next)) :
    Pushes may server.api next.api := by
  unfold Server.onDataTransfer at h
  dsimp only at h
  split at h
  · next hacked =>
    cases h
    rw [acknowledge_api hacked]
    exact .one _ hmay
  · cases h
    exact .nothing _

theorem pushes_onHeartbeat {packet : Packet Received Heartbeat} {result : Result Bool}
    (h : server.onHeartbeat packet now = .ok (result, next)) :
    Pushes may server.api next.api := by
  unfold Server.onHeartbeat at h
  dsimp only at h
  split at h
  · next hacked =>
    cases h
    rw [acknowledge_api hacked]
    exact .nothing _
  · cases h
    exact .nothing _

theorem pushes_onConnectionRequest {hash : RandomState}
    {packet : Packet Received ConnectionRequest} {packetId : PacketId} {result : Result Bool}
    (h : server.onConnectionRequest hash packet packetId now = .ok (result, next)) :
    Pushes may server.api next.api := by
  rcases server_onConnectionRequest_cases h with rfl | ⟨-, hadmits⟩
  · exact .nothing _
  · cases hadmits with
    | again id peer asking found =>
      unfold Server.acceptConnection
      split
      · exact .nothing _
      · exact .fails _ _
    | registered tracker unknown counted => exact .nothing _

theorem server_hands {before after : Protocol Server}
    (hholds : HoldsOnly known before.core.connected)
    (hread : ∀ fragment ∈ readAtServer crc32 raw now, known fragment)
    (h : ServerReceives crc32 raw now before after) :
    HoldsOnly known after.core.connected ∧
      Pushes (Hands known (transferAtServer crc32 raw now) (readAtServer crc32 raw now))
        before.core.api after.core.api := by
  obtain ⟨hnext, hfragments⟩ := (server_receipt h).holds hholds hread
  refine ⟨hnext, ?_⟩
  obtain ⟨hash, _, h⟩ := h
  obtain ⟨_, h, -⟩ := serverReceived_onReceived h
  change Pushes _ before.service.api after.service.api
  change readAtServer crc32 raw now ≠ [] → Pushes _ _ after.service.api at hfragments
  generalize after.service = next at h hfragments
  obtain ⟨decoded, hdecode, h⟩ := bind_eq_ok.mp h
  unfold readAtServer at hfragments
  unfold transferAtServer readAtServer
  rw [hdecode] at hfragments ⊢
  rcases decoded with error | packet | packet | packet | packet
  · cases h
    exact .nothing _
  · exact pushes_onConnectionRequest h
  · exact pushes_onDataTransfer (.whole packet (List.mem_singleton_self _) rfl rfl) h
  · exact (hfragments (List.cons_ne_nil _ _)).mono fun _ _ => Hands.of_fragments
  · exact pushes_onHeartbeat h

end Server

section Client

variable {crc32 : Crc32} {raw : RawPacket} {now : Duration} {client next : Client}
  {known : Packet Received Fragment → Prop} {may : ConnectionId → Payload → Prop}
  {result : Result Unit}

theorem pushes_onConnectionAccepted {packet : Packet Received ConnectionAccepted}
    (h : client.onConnectionAccepted packet now = (result, next)) :
    Pushes may client.api next.api := by
  unfold Client.onConnectionAccepted at h
  dsimp only at h
  split at h
  · cases h
    exact .nothing _
  · split at h
    · cases h
      exact .nothing _
    · cases h
      exact .nothing _

theorem pushes_client_onDataTransfer {packet : Packet Received DataTransfer}
    (hmay : may packet.message.connectionId packet.message.payload)
    (h : client.onDataTransfer packet now = (result, next)) :
    Pushes may client.api next.api := by
  unfold Client.onDataTransfer at h
  dsimp only at h
  split at h
  · cases h
    exact .nothing _
  · split at h
    · cases h
      exact .one _ hmay
    · cases h
      exact .nothing _

theorem pushes_client_onHeartbeat {packet : Packet Received Heartbeat}
    (h : client.onHeartbeat packet now = (result, next)) : Pushes may client.api next.api := by
  unfold Client.onHeartbeat at h
  dsimp only at h
  split at h
  · cases h
    exact .nothing _
  · split at h
    · cases h
      exact .nothing _
    · cases h
      exact .nothing _

/-- The client too, though it keeps most data transfers to itself. -/
theorem client_hands {before after : Protocol Client}
    (hholds : HoldsOnly known before.core.connected)
    (hread : ∀ fragment ∈ readAtClient crc32 raw now, known fragment)
    (h : ClientReceives crc32 raw now before after) :
    HoldsOnly known after.core.connected ∧
      Pushes (Hands known (transferAtClient crc32 raw now) (readAtClient crc32 raw now))
        before.core.api after.core.api := by
  obtain ⟨hnext, hfragments⟩ := (client_receipt h).holds hholds hread
  refine ⟨hnext, ?_⟩
  obtain ⟨_, h⟩ := h
  obtain ⟨h, -⟩ := clientReceived_onReceived h
  change Pushes _ before.service.api after.service.api
  change readAtClient crc32 raw now ≠ [] → Pushes _ _ after.service.api at hfragments
  generalize after.service = next at h hfragments
  obtain ⟨decoded, hdecode, h⟩ := bind_eq_ok.mp h
  unfold readAtClient at hfragments
  unfold transferAtClient readAtClient
  rw [hdecode] at hfragments ⊢
  rcases decoded with error | packet | packet | packet | packet
  · cases h
    exact .nothing _
  · exact pushes_onConnectionAccepted (Except.ok.inj h)
  · exact pushes_client_onDataTransfer (.whole packet (List.mem_singleton_self _) rfl rfl)
      (Except.ok.inj h)
  · exact (hfragments (List.cons_ne_nil _ _)).mono fun _ _ => Hands.of_fragments
  · exact pushes_client_onHeartbeat (Except.ok.inj h)

end Client

end Antarc.Properties
