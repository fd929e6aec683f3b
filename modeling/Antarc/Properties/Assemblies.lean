import Antarc.Properties.Reassemblers

/-! What every run of a service keeps true of its reassemblers. The groups hold fragments as
they arrived, each under its own sequence, and so no `expect` about a group fires. -/
namespace Antarc.Properties

open Library

section Invariant

variable {received more : List (Packet Received Fragment)} {id : ConnectionId}

/-- The groups of a connected peer: none is empty, all fragments of a group have its sequence
and the peer's connection id, and they stand in their order of arrival. -/
structure GroupsOf (received : List (Packet Received Fragment)) (id : ConnectionId)
    (peer : Peer Connected) : Prop where
  own : peer.connection.connectionId = id
  nonempty : ∀ sequence group, peer.connection.reassembler.lookup sequence = some group →
    group ≠ []
  keyed : ∀ sequence group, peer.connection.reassembler.lookup sequence = some group →
    ∀ fragment ∈ group, fragment.sequence = sequence ∧
      fragment.message.connectionId = peer.connection.connectionId
  arrived : ∀ sequence group, peer.connection.reassembler.lookup sequence = some group →
    group.Sublist received

/-- A payload is made of the payloads of received fragments of one connection and sequence. -/
def MadeOf (received : List (Packet Received Fragment)) (id : ConnectionId) (payload : Payload) :
    Prop :=
  ∃ sequence parts, List.Sublist parts received ∧ groupPayload parts = payload ∧
    ∀ fragment ∈ parts, fragment.sequence = sequence ∧ fragment.message.connectionId = id

theorem MadeOf.mono {payload : Payload} (h : MadeOf received id payload)
    (hmore : received.Sublist more) : MadeOf more id payload := by
  obtain ⟨sequence, parts, harrived, hpayload, hparts⟩ := h
  exact ⟨sequence, parts, harrived.trans hmore, hpayload, hparts⟩

theorem GroupsOf.mono {peer : Peer Connected} (h : GroupsOf received id peer)
    (hmore : received.Sublist more) : GroupsOf more id peer where
  own := h.own
  nonempty := h.nonempty
  keyed := h.keyed
  arrived := fun sequence group hfound => (h.arrived sequence group hfound).trans hmore

theorem GroupsOf.of_inherits {connected : HashMap ConnectionId (Peer Connected)}
    {peer : Peer Connected}
    (hgroups : ∀ id peer, connected.lookup id = some peer → GroupsOf received id peer)
    (h : Inherits connected id peer) : GroupsOf received id peer := by
  rcases h with ⟨old, hold, hid, hkept⟩ | ⟨hid, hempty⟩
  · have hgroup := hgroups id old hold
    constructor
    · exact hid.trans hgroup.own
    · intro sequence group hfound
      exact hgroup.nonempty sequence group (hkept sequence group hfound)
    · intro sequence group hfound
      rw [hid]
      exact hgroup.keyed sequence group (hkept sequence group hfound)
    · intro sequence group hfound
      exact hgroup.arrived sequence group (hkept sequence group hfound)
  · have hnone : ∀ sequence group,
        peer.connection.reassembler.lookup sequence ≠ some group := by
      intro sequence group hfound
      rw [hempty] at hfound
      contradiction
    exact ⟨hid, fun _ _ h => absurd h (hnone _ _), fun _ _ h => absurd h (hnone _ _),
      fun _ _ h => absurd h (hnone _ _)⟩

theorem GroupsOf.insert {peer : Peer Connected} {sequence : Sequence}
    {group : List (Packet Received Fragment)} (h : GroupsOf received id peer)
    (hnonempty : group ≠ []) (hkeyed : ∀ fragment ∈ group, fragment.sequence = sequence ∧
      fragment.message.connectionId = peer.connection.connectionId)
    (harrived : group.Sublist received) : GroupsOf received id
      (peer.keepFragments (peer.connection.reassembler.insert sequence group)) := by
  have hcases : ∀ other found,
      (peer.connection.reassembler.insert sequence group).lookup other = some found →
        other = sequence ∧ found = group ∨
          peer.connection.reassembler.lookup other = some found := by
    intro other found hfound
    rw [lookup_insert_eq] at hfound
    split at hfound
    · next heq => exact .inl ⟨heq, (Option.some.inj hfound).symm⟩
    · exact .inr hfound
  constructor
  · exact h.own
  · intro other found hfound
    rcases hcases other found hfound with ⟨rfl, rfl⟩ | hfound
    · exact hnonempty
    · exact h.nonempty other found hfound
  · intro other found hfound
    rcases hcases other found hfound with ⟨rfl, rfl⟩ | hfound
    · exact hkeyed
    · exact h.keyed other found hfound
  · intro other found hfound
    rcases hcases other found hfound with ⟨rfl, rfl⟩ | hfound
    · exact harrived
    · exact h.arrived other found hfound

theorem GroupsOf.erase {peer : Peer Connected} (h : GroupsOf received id peer)
    (sequence : Sequence) :
    GroupsOf received id (peer.keepFragments (peer.connection.reassembler.erase sequence)) := by
  have hkept : ∀ other found, (peer.connection.reassembler.erase sequence).lookup other =
      some found → peer.connection.reassembler.lookup other = some found := by
    intro other found hfound
    rw [lookup_erase_eq] at hfound
    split at hfound
    · contradiction
    · exact hfound
  constructor
  · exact h.own
  · intro other found hfound
    exact h.nonempty other found (hkept other found hfound)
  · intro other found hfound
    exact h.keyed other found (hkept other found hfound)
  · intro other found hfound
    exact h.arrived other found (hkept other found hfound)

/-- A fragment joins its group in order of arrival, and what is put together is made of the
fragments that were there before it. -/
theorem GroupsOf.joined {peer joined : Peer Connected} {packet : Packet Received Fragment}
    {whole : Option Payload} (h : GroupsOf received packet.message.connectionId peer)
    (hreassemble : peer.reassemble packet = .ok (joined, whole)) :
    GroupsOf (received ++ [packet]) packet.message.connectionId joined ∧
      ∀ payload ∈ whole, MadeOf (received ++ [packet]) packet.message.connectionId payload := by
  have hmore := h.mono (List.sublist_append_left received [packet])
  cases hfound : peer.connection.reassembler.lookup packet.sequence with
  | none =>
    rw [reassemble_opens hfound] at hreassemble
    cases hreassemble
    refine ⟨hmore.insert (List.cons_ne_nil _ _) ?_ (List.sublist_append_right _ _),
      fun _ hnone => by contradiction⟩
    intro fragment hmem
    rw [List.mem_singleton.mp hmem]
    exact ⟨rfl, h.own.symm⟩
  | some held =>
    have hheld := h.keyed _ _ hfound
    have harrived := (h.arrived _ _ hfound).append (List.Sublist.refl [packet])
    have hjoins : ∀ fragment ∈ held ++ [packet], fragment.sequence = packet.sequence ∧
        fragment.message.connectionId = peer.connection.connectionId := by
      intro fragment hmem
      rcases List.mem_append.mp hmem with hmem | hmem
      · exact hheld fragment hmem
      · rw [List.mem_singleton.mp hmem]
        exact ⟨rfl, h.own.symm⟩
    have hinserted := hmore.insert (by simp) hjoins harrived
    by_cases hlast : held.length + 1 = packet.message.total.toNat
    · rw [reassemble_completes hfound (fun fragment hmem => (hheld fragment hmem).1) hlast]
        at hreassemble
      cases hreassemble
      refine ⟨hinserted.erase _, fun payload hpayload => ?_⟩
      cases hpayload
      refine ⟨packet.sequence, held, (h.arrived _ _ hfound).trans (List.sublist_append_left _ _),
        rfl, fun fragment hmem => ⟨(hheld fragment hmem).1, ?_⟩⟩
      exact (hheld fragment hmem).2.trans h.own
    · rw [reassemble_joins hfound hlast] at hreassemble
      cases hreassemble
      exact ⟨hinserted, fun _ hnone => by contradiction⟩

variable {S A B E : Type} [Service S A B E] {state next : Assembly S}

structure Assembled (state : Assembly S) : Prop where
  groups : ∀ id peer, state.protocol.core.connected.lookup id = some peer →
    GroupsOf state.received id peer
  made : ∀ id payload, (id, payload) ∈ state.reassembled → MadeOf state.received id payload

theorem Assembled.of_keeps {protocol : Protocol S} (h : Assembled state)
    (hkept : KeepsGroups state.protocol.core.connected protocol.core.connected) :
    Assembled { state with protocol := protocol } where
  groups := fun id peer hfound => .of_inherits h.groups (hkept id peer hfound)
  made := h.made

theorem Assembled.of_receipt {read : List (Packet Received Fragment)} {protocol : Protocol S}
    (h : Assembled state) (hreceipt : Receipt read state.protocol.core protocol.core) :
    Assembled ⟨protocol, state.received ++ read,
      state.reassembled ++ putTogether read state.protocol protocol⟩ := by
  cases hreceipt with
  | plain kept quiet =>
    have hnone : putTogether read state.protocol protocol = [] := by
      unfold putTogether
      rcases quiet with rfl | hapi
      · rfl
      · cases read with
        | nil => rfl
        | cons packet rest => rw [hapi, List.drop_length]; rfl
    have hmore := List.sublist_append_left state.received read
    constructor
    · intro id peer hfound
      exact (GroupsOf.of_inherits h.groups (kept id peer hfound)).mono hmore
    · intro id payload hmem
      rw [hnone, List.append_nil] at hmem
      exact (h.made id payload hmem).mono hmore
  | fragment packet peer joined whole reads inherits reassembles connected api =>
    subst reads
    have hpeer := GroupsOf.of_inherits h.groups inherits
    obtain ⟨hjoined, hwhole⟩ := hpeer.joined reassembles
    have hmore := List.sublist_append_left state.received [packet]
    constructor
    · intro id found hfound
      rw [connected, lookup_insert_eq] at hfound
      split at hfound
      · next heq =>
        cases hfound
        rwa [heq]
      · exact (h.groups id found hfound).mono hmore
    · intro id payload hmem
      rcases List.mem_append.mp hmem with hmem | hmem
      · exact (h.made id payload hmem).mono hmore
      · unfold putTogether at hmem
        rw [api, List.drop_left] at hmem
        cases whole with
        | none => contradiction
        | some payload =>
          cases List.mem_singleton.mp hmem
          exact hwhole _ rfl

theorem Assembled.start {protocol : Protocol S} (h : protocol.core.connected = ∅) :
    Assembled ⟨protocol, [], []⟩ where
  groups := fun id peer hfound => by
    rw [h, Finmap.lookup_empty] at hfound
    contradiction
  made := fun _ _ hmem => by contradiction

variable {work : Protocol S → Option Duration → Protocol S → Prop}
  {receives : RawPacket → Duration → Protocol S → Protocol S → Prop}
  {read : RawPacket → Duration → List (Packet Received Fragment)} {label : Label}

/-- Every step keeps the invariant: only a received fragment brings a group in. -/
theorem Assembled.step
    (hwork : ∀ before kept after, work before kept after →
      KeepsGroups before.core.connected after.core.connected)
    (hreceives : ∀ raw now before after, receives raw now before after →
      Receipt (read raw now) before.core after.core)
    (h : Assembled state) (hstep : AssemblyStep work receives read state label next) :
    Assembled next := by
  cases hstep with
  | worked kept next call => exact h.of_keeps (hwork _ _ _ call)
  | heard raw now next call => exact h.of_receipt (hreceives _ _ _ _ call)
  | polled hash id peer polled now found call =>
    apply h.of_keeps
    apply keepsGroups_setCore
    exact .insert (inherits_of_poll found call)

end Invariant

section Runs

variable {crc32 : Crc32}

theorem server_assembled {state : Assembly Server} (h : (serverAssemblies crc32).Reachable state) :
    Assembled state := by
  apply h.invariant Assembled
  · rintro _ ⟨reliableTtl, rfl⟩
    exact .start rfl
  · rintro _ _ - hassembled ⟨label, hstep⟩
    apply hassembled.step _ _ hstep
    · intro before kept after
      exact keepsGroups_server
    · intro raw now before after
      exact server_receipt

theorem client_assembled {state : Assembly Client} (h : (clientAssemblies crc32).Reachable state) :
    Assembled state := by
  apply h.invariant Assembled
  · rintro _ rfl
    exact .start rfl
  · rintro _ _ - hassembled ⟨label, hstep⟩
    apply hassembled.step _ _ hstep
    · intro before kept after
      exact keepsGroups_client
    · intro raw now before after
      exact client_receipt

theorem GroupsOf.keyedGroups {received : List (Packet Received Fragment)} {id : ConnectionId}
    {peer : Peer Connected} (h : GroupsOf received id peer) : Keyed peer.connection.reassembler :=
  fun sequence group hfound fragment hmem => (h.keyed sequence group hfound fragment hmem).1

theorem Assembled.expectsHold {S A B E : Type} [Service S A B E] {state : Assembly S}
    (h : Assembled state) (id : ConnectionId) (peer : Peer Connected) (hash : RandomState)
    (now : Duration) (hfound : state.protocol.core.connected.lookup id = some peer) :
    ExpectsHold (peer.poll hash now) := by
  have hgroups := h.groups id peer hfound
  exact poll_expectsHold hash now hgroups.nonempty hgroups.keyedGroups

theorem returns_serverReceived_fragment {raw : RawPacket} {now : Duration}
    (hash : RandomState) (protocol : Protocol Server) (h : readAtServer crc32 raw now ≠ []) :
    Returns (fun _ => True) (protocol.serverReceived crc32 hash raw now) := by
  unfold readAtServer at h
  split at h
  · next packet hdecode =>
    unfold Protocol.serverReceived Server.onReceived
    rw [hdecode]
    apply Ensures.bind (returns_server_onFragment protocol.service packet now)
    rintro ⟨error | updatePacketId, service⟩ huses
    · trivial
    · cases updatePacketId with
      | false => trivial
      | true => exact absurd rfl huses
  · contradiction

theorem returns_clientReceived_fragment {raw : RawPacket} {now : Duration}
    (protocol : Protocol Client) (h : readAtClient crc32 raw now ≠ []) :
    Returns (fun _ => True) (protocol.clientReceived crc32 raw now) := by
  unfold readAtClient at h
  split at h
  · next packet hdecode =>
    unfold Protocol.clientReceived Client.onReceived
    rw [hdecode]
    refine Ensures.bind (returns_client_onFragment protocol.service packet) ?_
    intro _ _
    trivial
  · contradiction

/-- In every run the groups of a peer are not empty, are kept under the sequence of their
fragments and in their order of arrival; so no `expect` about them fires, and what is handed
over is made of received fragments of one connection and one sequence. -/
theorem reassemblers_hold_arrivals (crc32 : Crc32) :
    (∀ state, (serverAssemblies crc32).Reachable state →
      Assembled state ∧
      (∀ id peer hash now, state.protocol.core.connected.lookup id = some peer →
        ExpectsHold (peer.poll hash now)) ∧
      ∀ hash raw now, readAtServer crc32 raw now ≠ [] →
        ∃ outcome, state.protocol.serverReceived crc32 hash raw now = .ok outcome) ∧
    ∀ state, (clientAssemblies crc32).Reachable state →
      Assembled state ∧
      (∀ id peer hash now, state.protocol.core.connected.lookup id = some peer →
        ExpectsHold (peer.poll hash now)) ∧
      ∀ raw now, readAtClient crc32 raw now ≠ [] →
        ∃ outcome, state.protocol.clientReceived crc32 raw now = .ok outcome := by
  constructor
  · intro state h
    have hassembled := server_assembled h
    refine ⟨hassembled, hassembled.expectsHold, fun hash raw now hread => ?_⟩
    obtain ⟨outcome, houtcome, -⟩ :=
      returns_iff.mp (returns_serverReceived_fragment hash state.protocol hread)
    exact ⟨outcome, houtcome⟩
  · intro state h
    have hassembled := client_assembled h
    refine ⟨hassembled, hassembled.expectsHold, fun raw now hread => ?_⟩
    obtain ⟨outcome, houtcome, -⟩ :=
      returns_iff.mp (returns_clientReceived_fragment state.protocol hread)
    exact ⟨outcome, houtcome⟩

end Runs

section Halfway

def sentHalf : Packet ToSend Fragment :=
  ⟨⟨0, ⟨.zero, .v4 1 1⟩⟩, .two, 1, .new .one [1] 0 2⟩

def halfDatagram : RawPacket :=
  ⟨.v4 0 0, (sentHalf.datagram ieeeCrc32).bytes⟩

def halfwayServer : Protocol Server :=
  let server := requestedServer.service
  let peer := ((Peer.new .zero (.v4 0 0) 1).awaitConnectionAck .zero).acknowledge .two 1
  { requestedServer with service := { server with
      awaitingConnectionAck := server.awaitingConnectionAck.erase .one
      connected := server.connected.insert .one
        ((peer.connected .zero .one).keepFragments halfwayPeer.connection.reassembler) } }

def halfwayClient : Protocol Client :=
  let protocol := connectedRun.net.antarc
  { protocol with service := { protocol.service with
      connected := Finmap.insert .one halfwayPeer ∅ } }

theorem fragment_read {crc32 : Crc32} {packet : Packet ToSend Fragment} (source : SocketAddr)
    (time : Duration) (hmetadata : packet.message.metadata = ⟨fragment⟩) :
    readAtServer crc32 ⟨source, (packet.datagram crc32).bytes⟩ time =
        [Codec.arrived packet source time] ∧
      readAtClient crc32 ⟨source, (packet.datagram crc32).bytes⟩ time =
        [Codec.arrived packet source time] := by
  have hdecode := (Codec.roundTrips_fragment crc32 packet source time hmetadata).2
  constructor
  · unfold readAtServer
    rw [hdecode.1]
  · unfold readAtClient
    rw [hdecode.2]

theorem halfDatagram_read :
    readAtServer ieeeCrc32 halfDatagram .zero = [firstHalf] ∧
      readAtClient ieeeCrc32 halfDatagram .zero = [firstHalf] :=
  fragment_read (.v4 0 0) .zero rfl

theorem requestedServer_halfway (hash : RandomState) :
    requestedServer.serverReceived ieeeCrc32 hash halfDatagram .zero =
      .ok (.ok (), halfwayServer) := by
  have hdecode := (Codec.roundTrips_fragment ieeeCrc32 sentHalf (.v4 0 0) .zero rfl).2.1
  unfold Protocol.serverReceived Server.onReceived halfDatagram
  rw [hdecode]
  simp only [ok_bind, Server.onFragment]
  rfl

theorem connectedClient_halfway :
    connectedRun.net.antarc.clientReceived ieeeCrc32 halfDatagram .zero =
      .ok (.ok (), halfwayClient) := by
  have hdecode := (Codec.roundTrips_fragment ieeeCrc32 sentHalf (.v4 0 0) .zero rfl).2.2
  unfold Protocol.clientReceived Client.onReceived halfDatagram
  rw [hdecode]
  simp only [ok_bind, Client.onFragment]
  rfl

theorem AssemblyStep.quietly {S A B E : Type} [Service S A B E] {state : Assembly S}
    {work : Protocol S → Option Duration → Protocol S → Prop}
    {receives : RawPacket → Duration → Protocol S → Protocol S → Prop}
    {read : RawPacket → Duration → List (Packet Received Fragment)}
    {raw : RawPacket} {now : Duration} {next : Protocol S}
    {fragments : List (Packet Received Fragment)}
    (call : receives raw now state.protocol next) (hread : read raw now = fragments)
    (hapi : next.core.api = state.protocol.core.api) :
    AssemblyStep work receives read state (.heard fragments)
      ⟨next, state.received ++ fragments, state.reassembled⟩ := by
  have hstep : AssemblyStep work receives read state _ _ := .heard raw now next call
  have hnone : putTogether (read raw now) state.protocol next = [] := by
    unfold putTogether
    rw [hapi, List.drop_length]
    split <;> rfl
  rwa [hnone, List.append_nil, hread] at hstep

theorem AssemblyStep.handsOver {S A B E : Type} [Service S A B E] {state : Assembly S}
    {work : Protocol S → Option Duration → Protocol S → Prop}
    {receives : RawPacket → Duration → Protocol S → Protocol S → Prop}
    {read : RawPacket → Duration → List (Packet Received Fragment)}
    {raw : RawPacket} {now : Duration} {next : Protocol S} {last : Packet Received Fragment}
    {id : ConnectionId} {payload : Payload} (call : receives raw now state.protocol next)
    (hread : read raw now = [last])
    (hapi : next.core.api = state.protocol.core.api ++ [.dataTransfer id payload]) :
    AssemblyStep work receives read state (.heard [last])
      ⟨next, state.received ++ [last], state.reassembled ++ [(id, payload)]⟩ := by
  have hstep : AssemblyStep work receives read state _ _ := .heard raw now next call
  have hwhole : putTogether [last] state.protocol next = [(id, payload)] := by
    unfold putTogether
    rw [hapi, List.drop_left]
    rfl
  rwa [hread, hwhole] at hstep

theorem newServer_asked (reliableTtl : Duration) :
    ServerAssemblyStep ieeeCrc32 ⟨.newServer reliableTtl, [], []⟩ (.heard [])
      ⟨{ requestedServer with reliableTtl := reliableTtl }, [], []⟩ := by
  have hdecode :=
    (Codec.roundTrips_connectionRequest ieeeCrc32 askingPacket (.v4 0 0) .zero rfl).2.1
  have hnothing : readAtServer ieeeCrc32 (requestFrom (.v4 0 0)) .zero = [] := by
    unfold readAtServer requestFrom
    rw [hdecode]
  exact .quietly ⟨_, _, newServer_registers (Classical.arbitrary RandomState) reliableTtl⟩
    hnothing rfl

theorem requestedServer_hears : ServerAssemblyStep ieeeCrc32 ⟨requestedServer, [], []⟩
    (.heard [firstHalf]) ⟨halfwayServer, [firstHalf], []⟩ :=
  .quietly ⟨_, _, requestedServer_halfway (Classical.arbitrary RandomState)⟩
    halfDatagram_read.1 rfl

theorem halfwayServer_reachable :
    (serverAssemblies ieeeCrc32).Reachable ⟨halfwayServer, [firstHalf], []⟩ :=
  .next (.next (.start ⟨.zero, rfl⟩) ⟨_, newServer_asked .zero⟩) ⟨_, requestedServer_hears⟩

def awaitingClient : Protocol Client :=
  let protocol := connectedRun.net.antarc
  { protocol with service := { protocol.service with
      awaitingConnectionAck :=
        Finmap.insert (.v4 0 0) ⟨.two, 0, 0, .v4 0 0, ⟨⟨.zero, 0, .zero⟩, 0⟩⟩ ∅
      connected := ∅ } }

theorem awaitingClient_connected :
    awaitingClient.clientReceived ieeeCrc32 (fromServer answeringAccept) .zero =
      .ok (.ok (), connectedRun.net.antarc) := by
  have hdecode :=
    (Codec.roundTrips_connectionAccepted ieeeCrc32 answeringAccept (.v4 0 0) .zero rfl).2.2
  unfold Protocol.clientReceived Client.onReceived fromServer
  rw [hdecode]
  rfl

theorem connectedClient_reachable :
    (clientAssemblies ieeeCrc32).Reachable ⟨connectedRun.net.antarc, [], []⟩ := by
  have hasked : (clientAssemblies ieeeCrc32).Reachable ⟨askedRun.net.antarc, [], []⟩ :=
    .next (.start rfl) ⟨_, .worked _ _ (.connect (.v4 0 0) .zero _ _ rfl)⟩
  have hdrained := hasked.next ⟨_, .worked _ _ (.drainConnectionRequest 0 1 _ _ rfl)⟩
  have hawaiting : (clientAssemblies ieeeCrc32).Reachable ⟨awaitingClient, [], []⟩ :=
    hdrained.next ⟨_, .worked _ _ (.sentConnectionRequest askedRequest .zero _ rfl)⟩
  have hdecode :=
    (Codec.roundTrips_connectionAccepted ieeeCrc32 answeringAccept (.v4 0 0) .zero rfl).2.2
  have hnothing : readAtClient ieeeCrc32 (fromServer answeringAccept) .zero = [] := by
    unfold readAtClient fromServer
    rw [hdecode]
  have haccepted : ClientAssemblyStep ieeeCrc32 ⟨awaitingClient, [], []⟩ (.heard [])
      ⟨connectedRun.net.antarc, [], []⟩ :=
    .quietly ⟨_, awaitingClient_connected⟩ hnothing rfl
  exact hawaiting.next ⟨_, haccepted⟩

theorem halfwayClient_reachable :
    (clientAssemblies ieeeCrc32).Reachable ⟨halfwayClient, [firstHalf], []⟩ := by
  have hhalf : ClientAssemblyStep ieeeCrc32 ⟨connectedRun.net.antarc, [], []⟩
      (.heard [firstHalf]) _ :=
    .quietly ⟨_, connectedClient_halfway⟩ halfDatagram_read.2 rfl
  exact connectedClient_reachable.next ⟨_, hhalf⟩

def sentRest : Packet ToSend Fragment :=
  ⟨⟨0, ⟨.zero, .v4 1 1⟩⟩, .two, 1, .new .one [2] 1 2⟩

def restDatagram : RawPacket :=
  ⟨.v4 0 0, (sentRest.datagram ieeeCrc32).bytes⟩

def secondHalf : Packet Received Fragment :=
  Codec.arrived sentRest (.v4 0 0) .zero

theorem restDatagram_read :
    readAtServer ieeeCrc32 restDatagram .zero = [secondHalf] ∧
      readAtClient ieeeCrc32 restDatagram .zero = [secondHalf] :=
  fragment_read (.v4 0 0) .zero rfl

/-- What a service has put together when the other half arrives: the last half is left out. -/
theorem rest_completes {T A B E : Type} [Service T A B E] {protocol : Protocol T}
    {receive : Duration → RawPacket → Protocol T → Exec (Protocol T)}
    (hreceive : ReceivesFragments ieeeCrc32 .one receive)
    (hheld : GroupAt protocol .one .two [[1]]) :
    ∃ next, receive .zero restDatagram protocol = .ok next ∧
      next.core.api = protocol.core.api ++ [.dataTransfer .one [1]] := by
  let arrival : Arrival := ⟨sentRest, .v4 0 0⟩
  obtain ⟨next, hturn, hwhole⟩ :
      ∃ next, receive .zero (arrival.raw ieeeCrc32) protocol = .ok next ∧ _ :=
    receive_fragment hreceive .zero rfl rfl rfl hheld
  rw [if_pos ⟨List.cons_ne_nil _ _, rfl⟩] at hwhole
  exact ⟨next, hturn, hwhole.1⟩

theorem completedServer_reachable : ∃ protocol,
    (serverAssemblies ieeeCrc32).Reachable
      ⟨protocol, [firstHalf, secondHalf], [(.one, [1])]⟩ := by
  let hash := Classical.arbitrary RandomState
  have hheld : GroupAt halfwayServer .one .two [[1]] := ⟨_, rfl, _, rfl, rfl, by decide⟩
  obtain ⟨next, hturn, hapi⟩ := rest_completes (server_receivesFragments hash .one) hheld
  obtain ⟨⟨result, _⟩, hreceived, rfl⟩ := map_eq_ok.mp hturn
  have hstep : ServerAssemblyStep ieeeCrc32 ⟨halfwayServer, [firstHalf], []⟩
      (.heard [secondHalf]) _ := .handsOver ⟨hash, result, hreceived⟩ restDatagram_read.1 hapi
  exact ⟨_, halfwayServer_reachable.next ⟨_, hstep⟩⟩

theorem completedClient_reachable : ∃ protocol,
    (clientAssemblies ieeeCrc32).Reachable
      ⟨protocol, [firstHalf, secondHalf], [(.one, [1])]⟩ := by
  have hheld : GroupAt halfwayClient .one .two [[1]] := ⟨_, rfl, _, rfl, rfl, by decide⟩
  obtain ⟨next, hturn, hapi⟩ := rest_completes (client_receivesFragments .one) hheld
  obtain ⟨⟨result, _⟩, hreceived, rfl⟩ := map_eq_ok.mp hturn
  have hstep : ClientAssemblyStep ieeeCrc32 ⟨halfwayClient, [firstHalf], []⟩
      (.heard [secondHalf]) _ := .handsOver ⟨result, hreceived⟩ restDatagram_read.2 hapi
  exact ⟨_, halfwayClient_reachable.next ⟨_, hstep⟩⟩

/-- Both hold one half; a poll of it runs into no `expect`, and the half may come again. Once
the other half has come, what each has handed over is made of the two. -/
theorem halves_hold_arrivals :
    Assembled (S := Server) ⟨halfwayServer, [firstHalf], []⟩ ∧
      Assembled (S := Client) ⟨halfwayClient, [firstHalf], []⟩ ∧
      (∀ hash now, ExpectsHold (halfwayPeer.poll hash now)) ∧
      (∀ hash, ∃ outcome,
        halfwayServer.serverReceived ieeeCrc32 hash halfDatagram .zero = .ok outcome) ∧
      (∃ outcome, halfwayClient.clientReceived ieeeCrc32 halfDatagram .zero = .ok outcome) ∧
      (∃ state, (serverAssemblies ieeeCrc32).Reachable state ∧
        state.received = [firstHalf, secondHalf] ∧ state.reassembled = [(.one, [1])] ∧
        Assembled state) ∧
      ∃ state, (clientAssemblies ieeeCrc32).Reachable state ∧
        state.received = [firstHalf, secondHalf] ∧ state.reassembled = [(.one, [1])] ∧
        Assembled state := by
  obtain ⟨hserver, -, hanswers⟩ :=
    (reassemblers_hold_arrivals ieeeCrc32).1 _ halfwayServer_reachable
  obtain ⟨hclient, hpolls, hanswers'⟩ :=
    (reassemblers_hold_arrivals ieeeCrc32).2 _ halfwayClient_reachable
  obtain ⟨server, hcompleted⟩ := completedServer_reachable
  obtain ⟨client, hcompleted'⟩ := completedClient_reachable
  refine ⟨hserver, hclient, fun hash now => ?_, fun hash => ?_, ?_,
    ⟨_, hcompleted, rfl, rfl, ?_⟩, ⟨_, hcompleted', rfl, rfl, ?_⟩⟩
  · exact hpolls .one halfwayPeer hash now (Finmap.lookup_insert _)
  · exact hanswers hash halfDatagram .zero (by rw [halfDatagram_read.1]; simp)
  · exact hanswers' halfDatagram .zero (by rw [halfDatagram_read.2]; simp)
  · exact ((reassemblers_hold_arrivals ieeeCrc32).1 _ hcompleted).1
  · exact ((reassemblers_hold_arrivals ieeeCrc32).2 _ hcompleted').1

end Halfway

end Antarc.Properties
