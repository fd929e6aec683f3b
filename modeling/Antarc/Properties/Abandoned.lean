import Antarc.Properties.Assemblies

/-! Groups whose rest never comes. Once a group is a second old, no poll looks at it again:
a server's polls pass over stale groups, and a client's look at no group at all. -/
namespace Antarc.Properties

open Library

section Groups

variable {connected : HashMap ConnectionId (Peer Connected)}

def groupCount (connected : HashMap ConnectionId (Peer Connected)) : Nat :=
  connected.keys.sum fun id =>
    match connected.lookup id with
    | some peer => peer.connection.reassembler.keys.card
    | none => 0

def NoGroups (connected : HashMap ConnectionId (Peer Connected)) : Prop :=
  ∀ id peer, connected.lookup id = some peer → peer.connection.reassembler = ∅

/-- The last fragment of every stored group is at least a second old. -/
def Abandoned (now : Duration) (connected : HashMap ConnectionId (Peer Connected)) : Prop :=
  ∀ id peer sequence group, connected.lookup id = some peer →
    peer.connection.reassembler.lookup sequence = some group →
    ∃ newest, group.getLast? = some newest ∧
      newest.delivery.metadata.time.nanos + (Duration.fromSecs 1).nanos ≤ now.nanos

theorem NoGroups.groupCount_eq (h : NoGroups connected) : groupCount connected = 0 := by
  apply Finset.sum_eq_zero
  intro id _
  split
  · next peer hfound =>
    rw [h id peer hfound]
    rfl
  · rfl

theorem NoGroups.abandoned {now : Duration} (h : NoGroups connected) : Abandoned now connected := by
  intro id peer sequence group hfound hgroup
  rw [h id peer hfound] at hgroup
  contradiction

theorem Abandoned.poll {now : Duration} (h : Abandoned now connected) {id : ConnectionId}
    {peer : Peer Connected} (hfound : connected.lookup id = some peer) (hash : RandomState) :
    peer.poll hash now = .ok peer := by
  apply poll_of_stale
  · intro sequence group hgroup
    obtain ⟨newest, hnewest, hle⟩ := h id peer sequence group hfound hgroup
    refine ⟨newest, ⟨_, Nat.lt_of_le_of_lt hle now.inRange⟩, hnewest, ?_⟩
    exact Duration.add_eq_ok.mpr rfl
  · rintro sequence group hgroup ⟨newest, hnewest, hlt⟩
    obtain ⟨_, hlast, hle⟩ := h id peer sequence group hfound hgroup
    cases hlast.symm.trans hnewest
    omega

end Groups

section Polls

structure Seeds where
  peers : RandomState
  groups : ConnectionId → RandomState

instance : Nonempty Seeds :=
  ⟨⟨Classical.arbitrary RandomState, fun _ => Classical.arbitrary RandomState⟩⟩

def polledServer (now : Duration) (protocol : Protocol Server) (seeds : Seeds) :
    Exec (Protocol Server) :=
  Prod.snd <$> protocol.serverPoll seeds.peers seeds.groups now now

def polledClient (now : Duration) (protocol : Protocol Client) : Exec (Protocol Client) :=
  Prod.snd <$> protocol.clientPoll now

/-- As many polls of a server at one time as it stores groups, whatever the orders of
iteration, leave no group. -/
def ServerDiscards (now : Duration) (protocol : Protocol Server) : Prop :=
  ∀ seeds : List Seeds, seeds.length = groupCount protocol.core.connected →
    ∃ after, seeds.foldlM (polledServer now) protocol = .ok after ∧
      NoGroups after.core.connected

def ClientDiscards (now : Duration) (protocol : Protocol Client) : Prop :=
  ∃ after, iterateM (polledClient now) (groupCount protocol.core.connected) protocol = .ok after ∧
    NoGroups after.core.connected

theorem polledServer_connected {protocol next : Protocol Server} {seeds : Seeds} {now : Duration}
    (habandoned : Abandoned now protocol.core.connected)
    (h : polledServer now protocol seeds = .ok next) :
    next.core.connected = protocol.core.connected := by
  obtain ⟨⟨events, polled⟩, hpoll, rfl⟩ := map_eq_ok.mp h
  obtain ⟨_, connected, -, hconnected, -, hpolled⟩ := serverPoll_frame hpoll
  dsimp only
  rw [hpolled]
  apply Finmap.ext_lookup
  intro id
  rcases lookup_updateEach_walk _ _ hconnected id with
    ⟨hnone, hnone'⟩ | ⟨peer, polled, hfound, hpoll, hpolled⟩
  · exact hnone'.trans hnone.symm
  · cases (habandoned.poll hfound _).symm.trans hpoll
    exact hpolled.trans hfound.symm

theorem polledClient_connected {protocol next : Protocol Client} {now : Duration}
    (h : polledClient now protocol = .ok next) : next.core.connected = protocol.core.connected := by
  obtain ⟨⟨events, polled⟩, hpoll, rfl⟩ := map_eq_ok.mp h
  obtain ⟨_, -, -, hpolled⟩ := clientPoll_frame hpoll
  dsimp only
  rw [hpolled]
  rfl

theorem serverDiscards_iff {now : Duration} {protocol : Protocol Server}
    (habandoned : Abandoned now protocol.core.connected) :
    ServerDiscards now protocol ↔ NoGroups protocol.core.connected := by
  constructor
  · intro h
    obtain ⟨after, hrun, hnone⟩ := h
      (List.replicate (groupCount protocol.core.connected) (Classical.arbitrary Seeds))
      List.length_replicate
    -- stale groups outlive every poll of the run
    have hkept : after.core.connected = protocol.core.connected := by
      let inv (state : Protocol Server) := state.core.connected = protocol.core.connected
      refine foldlM_keeps inv ?_ rfl hrun
      intro state seeds next hsame hpoll
      have hstill : Abandoned now state.core.connected := by rwa [hsame]
      exact (polledServer_connected hstill hpoll).trans hsame
    rwa [hkept] at hnone
  · intro h seeds hlength
    rw [h.groupCount_eq, List.length_eq_zero_iff] at hlength
    subst hlength
    exact ⟨protocol, rfl, h⟩

theorem clientDiscards_iff {now : Duration} {protocol : Protocol Client} :
    ClientDiscards now protocol ↔ NoGroups protocol.core.connected := by
  constructor
  · rintro ⟨after, hrun, hnone⟩
    have hkept : after.core.connected = protocol.core.connected := by
      let inv (state : Protocol Client) := state.core.connected = protocol.core.connected
      refine iterateM_keeps inv ?_ rfl hrun
      intro state next hsame hpoll
      exact (polledClient_connected hpoll).trans hsame
    rwa [hkept] at hnone
  · intro h
    refine ⟨protocol, ?_, h⟩
    rw [h.groupCount_eq]
    rfl

/-- Abandoned groups are discarded, on either side, exactly when there are none. -/
theorem abandoned_groups_discarded_iff (now : Duration) :
    (∀ protocol : Protocol Server, Abandoned now protocol.core.connected →
      (ServerDiscards now protocol ↔ NoGroups protocol.core.connected)) ∧
    ∀ protocol : Protocol Client, Abandoned now protocol.core.connected →
      (ClientDiscards now protocol ↔ NoGroups protocol.core.connected) := by
  constructor
  · intro protocol habandoned
    exact serverDiscards_iff habandoned
  · intro protocol _
    exact clientDiscards_iff

end Polls

section Halfway

theorem abandoned_of_half {connected : HashMap ConnectionId (Peer Connected)}
    (h : ∀ id peer, connected.lookup id = some peer →
      peer.connection.reassembler = halfwayPeer.connection.reassembler) :
    Abandoned (.fromSecs 1) connected := by
  intro id peer sequence group hfound hgroup
  rw [h id peer hfound] at hgroup
  obtain ⟨-, rfl⟩ := halfwayPeer_lookup hgroup
  exact ⟨firstHalf, rfl, Nat.le_refl _⟩

theorem halfway_some : ¬halfwayPeer.connection.reassembler = ∅ := by
  intro hempty
  have hfound : halfwayPeer.connection.reassembler.lookup .two = some [firstHalf] :=
    Finmap.lookup_singleton_eq
  rw [hempty] at hfound
  contradiction

/-- A second after the first half came, one poll leaves it where it is. -/
theorem halfway_not_discarded :
    ((serverAssemblies ieeeCrc32).Reachable ⟨halfwayServer, [firstHalf], []⟩ ∧
      Abandoned (.fromSecs 1) halfwayServer.core.connected ∧
      ¬ServerDiscards (.fromSecs 1) halfwayServer) ∧
    (clientAssemblies ieeeCrc32).Reachable ⟨halfwayClient, [firstHalf], []⟩ ∧
      Abandoned (.fromSecs 1) halfwayClient.core.connected ∧
      ¬ClientDiscards (.fromSecs 1) halfwayClient := by
  have hserver : Abandoned (.fromSecs 1) halfwayServer.core.connected := by
    apply abandoned_of_half
    intro id peer hfound
    obtain ⟨-, rfl⟩ := eq_of_lookup_insert_empty hfound
    rfl
  have hclient : Abandoned (.fromSecs 1) halfwayClient.core.connected := by
    apply abandoned_of_half
    intro id peer hfound
    obtain ⟨-, rfl⟩ := eq_of_lookup_insert_empty hfound
    rfl
  refine ⟨⟨halfwayServer_reachable, hserver, fun h => ?_⟩,
    halfwayClient_reachable, hclient, fun h => ?_⟩
  · have hnone := (serverDiscards_iff hserver).mp h .one _ (Finmap.lookup_insert _)
    exact halfway_some hnone
  · have hnone := clientDiscards_iff.mp h .one _ (Finmap.lookup_insert _)
    exact halfway_some hnone

/-- Before the half comes there is nothing to discard. -/
theorem unconnected_discarded :
    ServerDiscards (.fromSecs 1) requestedServer ∧
      ClientDiscards (.fromSecs 1) connectedRun.net.antarc := by
  have hserver : NoGroups requestedServer.core.connected := fun _ _ hfound => by contradiction
  have hclient : NoGroups connectedRun.net.antarc.core.connected := by
    intro id peer hfound
    obtain ⟨-, rfl⟩ := eq_of_lookup_insert_empty hfound
    rfl
  constructor
  · exact ((abandoned_groups_discarded_iff (.fromSecs 1)).1 _ hserver.abandoned).mpr hserver
  · exact ((abandoned_groups_discarded_iff (.fromSecs 1)).2 _ hclient.abandoned).mpr hclient

end Halfway

end Antarc.Properties
