import Antarc.Properties.Delivery
import Antarc.Properties.Handshakes

/-! A lost packet of the handshake is still tracked, in every run whose polls keep the
request that the server has not heard for as long as they should. One lost datagram and
one early poll are enough to lose the handshake. -/
namespace Antarc.Properties

open Library

section Runs

variable {crc32 : Crc32} {address host : SocketAddr} {pair next : Pair} {act : Pair.Act}
  {asked : List SocketAddr}

section Steps

variable {later : Nat} {net : AntarcNet Client}

theorem connect_frame {remoteAddress : SocketAddr} {now : Duration} {result : Result Unit}
    (h : pair.client.connect remoteAddress now = .ok (result, net)) :
    net.antarc.service.awaitingConnectionAck =
        pair.client.antarc.service.awaitingConnectionAck ∧
      net.antarc.service.connected = pair.client.antarc.service.connected ∧
      storedRequests net.antarc.service = storedRequests pair.client.antarc.service ∧
      (net.antarc.service.requestingConnection =
          pair.client.antarc.service.requestingConnection ∨
        pair.client.antarc.service.knownPeer remoteAddress = false ∧
          ∃ peer, net.antarc.service.requestingConnection =
            pair.client.antarc.service.requestingConnection.insert remoteAddress peer) := by
  obtain ⟨⟨_, antarc⟩, hconnect, h⟩ := bind_eq_ok.mp h
  cases h
  rcases connect_cases (attempt_eq_ok.mp hconnect) with ⟨_, -, rfl⟩ | ⟨_, hunknown, -, -, rfl⟩
  · exact ⟨rfl, rfl, rfl, .inl rfl⟩
  · exact ⟨rfl, rfl, rfl, .inr ⟨hunknown, _, rfl⟩⟩

theorem Unknown.of_client (stage : Unknown address host pair) (hlater : pair.now ≤ later)
    (hawaiting : net.antarc.service.awaitingConnectionAck =
      pair.client.antarc.service.awaitingConnectionAck)
    (hconnected : net.antarc.service.connected = pair.client.antarc.service.connected)
    (hstored : storedRequests net.antarc.service = storedRequests pair.client.antarc.service) :
    Unknown address host { pair with client := net, now := later } := by
  have hawaits : Awaits host { pair with client := net, now := later } ↔ Awaits host pair := by
    unfold Awaits
    rw [hawaiting]
  refine ⟨⟨hconnected.trans stage.opening.client, stage.opening.server, stage.opening.greets⟩,
    stage.requesting, stage.awaiting, stage.scheduled, stage.stored, stage.once, ?_, ?_, ?_⟩
  · rw [hawaits]
    exact stage.silent
  · exact fun packet hmem => stage.noted packet (hstored ▸ hmem)
  · intro hawaiting
    rcases stage.kept (hawaits.mp hawaiting) with hsome | hover
    · exact .inl (hstored ▸ hsome)
    · exact .inr (hover.mono rfl hlater)

theorem Greeted.of_client (stage : Greeted address host pair)
    (hawaiting : net.antarc.service.awaitingConnectionAck =
      pair.client.antarc.service.awaitingConnectionAck)
    (hconnected : net.antarc.service.connected = pair.client.antarc.service.connected) :
    Greeted address host { pair with client := net, now := later } := by
  refine ⟨⟨hconnected.trans stage.opening.client, stage.opening.server, stage.opening.greets⟩,
    ?_, stage.silent, stage.accept⟩
  unfold Awaits
  rw [hawaiting]
  exact stage.awaits

theorem Unknown.step (stage : Unknown address host pair) (booked : Booked crc32 asked pair)
    (hdistinct : address ≠ host) (hspares : Spares address host pair act)
    (h : Pair.Step crc32 address host pair act next) : Stage address host next := by
  cases h with
  | elapse later passes => exact .unknown (stage.of_client passes rfl rfl rfl)
  | connect remoteAddress now later reads idle result net call =>
    obtain ⟨hawaiting, hconnected, hstored, -⟩ := connect_frame call
    exact .unknown (stage.of_client (reads.1.trans reads.2) hawaiting hconnected hstored)
  | clientCall later passes idle outcome call net returned =>
    cases (carriedDrive_alone stage.opening.client call).symm.trans returned
    exact .unknown (stage.of_client passes rfl rfl rfl)
  | clientSend clock later passes reads idle net call =>
    exact .unknown (stage.clientSent booked.client hspares passes call)
  | clientReceive datagram received elapsed later readsReceived readsElapsed waits arrives addressed
      events net call => exact stage.clientReceive booked hspares readsElapsed arrives call
  | serverCall later passes idle outcome call net returned =>
    cases (carriedDrive_alone stage.opening.server call).symm.trans returned
    exact .unknown (stage.of_client passes rfl rfl rfl)
  | serverSend clock later passes reads idle net call =>
    exact .unknown (stage.serverSent booked.server passes call)
  | serverReceive datagram hash peerHash received elapsed now later readsReceived readsElapsed
      readsNow waits arrives addressed events net call =>
    exact stage.serverReceived booked hdistinct readsElapsed arrives addressed call
  | lose datagram =>
    refine .unknown ⟨⟨stage.opening.client, stage.opening.server, stage.opening.erase datagram⟩,
      stage.requesting, stage.awaiting, stage.scheduled, stage.stored, ?_, ?_, stage.noted,
      stage.kept⟩
    · exact (arrivingAt_erase host pair.inFlight datagram).length_le.trans stage.once
    · exact fun hawaits => arrivingAt_erase_nil datagram (stage.silent hawaits)

theorem Greeted.step (stage : Greeted address host pair) (booked : Booked crc32 asked pair)
    (hdistinct : address ≠ host) (h : Pair.Step crc32 address host pair act next) :
    Greeted address host next ∨ Answered host next := by
  cases h with
  | elapse later passes => exact .inl (stage.of_client rfl rfl)
  | connect remoteAddress now later reads idle result net call =>
    obtain ⟨hawaiting, hconnected, -⟩ := connect_frame call
    exact .inl (stage.of_client hawaiting hconnected)
  | clientCall later passes idle outcome call net returned =>
    cases (carriedDrive_alone stage.opening.client call).symm.trans returned
    exact .inl (stage.of_client rfl rfl)
  | clientSend clock later passes reads idle net call =>
    exact .inl (stage.clientSent booked.client call)
  | clientReceive datagram received elapsed later readsReceived readsElapsed waits arrives addressed
      events net call => exact stage.clientReceive booked arrives call
  | serverCall later passes idle outcome call net returned =>
    cases (carriedDrive_alone stage.opening.server call).symm.trans returned
    exact .inl (stage.of_client rfl rfl)
  | serverSend clock later passes reads idle net call =>
    exact .inl (stage.serverSent hdistinct booked.server idle call)
  | serverReceive datagram hash peerHash received elapsed now later readsReceived readsElapsed
      readsNow waits arrives addressed events net call =>
    -- Nothing more arrives at the server before the client is connected.
    have harriving : datagram ∈ arrivingAt host pair.inFlight :=
      List.mem_filter.mpr ⟨arrives, decide_eq_true addressed⟩
    rw [stage.silent] at harriving
    contradiction
  | lose datagram =>
    exact .inl
      ⟨⟨stage.opening.client, stage.opening.server, stage.opening.erase datagram⟩, stage.awaits,
        arrivingAt_erase_nil datagram stage.silent, stage.accept⟩

theorem Answered.of_through {earlier : List SocketAddr} (stage : Answered host pair)
    (before : Booked crc32 earlier pair) (after : Booked crc32 asked next)
    (hsubset : earlier ⊆ asked) (hthrough : Through host next.client.antarc.service) :
    Answered host next := by
  obtain ⟨_, -, -, -, sideBefore⟩ := before.client
  obtain ⟨_, -, -, -, sideAfter⟩ := after.client
  have hasked := hsubset ((sideBefore.table.asked_iff host).mpr (.inr (.inr stage.connected)))
  refine ⟨hthrough, ?_⟩
  rcases (sideAfter.table.asked_iff host).mp hasked with hmem | hmem | hconnected
  · exact absurd hmem hthrough.1
  · exact absurd hmem hthrough.2
  · exact hconnected

theorem Answered.through_step (stage : Answered host pair) (booked : Booked crc32 asked pair)
    (h : Pair.Step crc32 address host pair act next) :
    Through host next.client.antarc.service := by
  obtain ⟨numbering, ledger, -, -, side⟩ := booked.client
  cases h with
  | connect remoteAddress now later reads idle result net call =>
    obtain ⟨hawaiting, -, -, hsame | ⟨hunknown, peer, hrequesting⟩⟩ := connect_frame call
    · exact stage.through.of_eq hsame hawaiting
    · have hother : host ≠ remoteAddress := by
        rintro rfl
        have hknown := (side.table.asked_iff host).mpr (.inr (.inr stage.connected))
        rw [(side.table.known_iff host).mpr hknown] at hunknown
        contradiction
      refine ⟨?_, ?_⟩
      · change host ∉ net.antarc.service.requestingConnection
        rw [hrequesting, Finmap.mem_insert, not_or]
        exact ⟨hother, stage.through.1⟩
      · change host ∉ net.antarc.service.awaitingConnectionAck
        rw [hawaiting]
        exact stage.through.2
  | clientCall later passes idle outcome call net returned =>
    exact through_carriedDrive ledger stage.through call returned
  | clientSend clock later passes reads idle net call => exact through_clientSend stage.through call
  | clientReceive datagram received elapsed later readsReceived readsElapsed waits arrives addressed
      events net call => exact through_clientReceive stage.through call
  | elapse later passes => exact stage.through
  | serverCall later passes idle outcome call net returned => exact stage.through
  | serverSend clock later passes reads idle net call => exact stage.through
  | serverReceive datagram hash peerHash received elapsed now later readsReceived readsElapsed
      readsNow waits arrives addressed events net call => exact stage.through
  | lose datagram => exact stage.through

end Steps

theorem unknown_new (address host : SocketAddr) (reliableTtl : Duration)
    (clientStarted serverStarted now : Nat) :
    Unknown address host (.new address host reliableTtl clientStarted serverStarted now) where
  opening := ⟨rfl, rfl, fun _ hmem => absurd hmem List.not_mem_nil⟩
  requesting := rfl
  awaiting := rfl
  scheduled := rfl
  stored := rfl
  once := Nat.zero_le 1
  silent := fun _ => rfl
  noted := fun _ hmem => absurd hmem List.not_mem_nil
  kept := fun hawaits => absurd hawaits Finmap.notMem_empty

theorem stage_of_reachable
    (h : (pairs crc32 address host (Spares address host)).Reachable pair) :
    address ≠ host ∧ ∃ asked, Booked crc32 asked pair ∧ Stage address host pair := by
  refine h.invariant
    (fun pair => address ≠ host ∧ ∃ asked, Booked crc32 asked pair ∧ Stage address host pair) ?_ ?_
  · rintro _ ⟨hdistinct, reliableTtl, clientStarted, serverStarted, now, -, -, rfl⟩
    refine ⟨hdistinct, [],
      booked_new crc32 address host reliableTtl clientStarted serverStarted now, ?_⟩
    exact .unknown (unknown_new address host reliableTtl clientStarted serverStarted now)
  · rintro pair next - ⟨hdistinct, asked, booked, stage⟩ ⟨act, hspares, hstep⟩
    obtain ⟨later, hsubset, -, hbooked⟩ := booked.step hstep
    refine ⟨hdistinct, later, hbooked, ?_⟩
    cases stage with
    | unknown stage => exact stage.step booked hdistinct hspares hstep
    | greeted stage => exact (stage.step booked hdistinct hstep).elim .greeted .answered
    | answered stage =>
      exact .answered (stage.of_through booked hbooked hsubset (stage.through_step booked hstep))

/-- While no poll drops the request that the server has not heard before its time, a handshake
that the client awaits the end of is tracked. -/
theorem handshake_tracked_while_spared (crc32 : Crc32) (address host : SocketAddr) (pair : Pair)
    (h : (pairs crc32 address host (Spares address host)).Reachable pair)
    (hawaits : Awaits host pair) : Tracked address host pair := by
  obtain ⟨-, asked, -, stage⟩ := stage_of_reachable h
  exact stage.tracked hawaits

section Apart

/-- Nothing is on its way to the client, which blocks in `recv_from` once it awaits the server. -/
structure Apart (address host : SocketAddr) (pair : Pair) : Prop where
  unaddressed : arrivingAt address pair.inFlight = []
  waits : Awaits host pair → pair.clientWaits = true

/-- The client does not ask its own address for a connection. -/
def AsksOthers (address : SocketAddr) (_ : Pair) (act : Pair.Act) : Prop :=
  ∀ now, act ≠ .connect address now

theorem Apart.spares (apart : Apart address host pair)
    (h : Pair.Step crc32 address host pair act next) : Spares address host pair act := by
  cases h with
  | clientSend clock later passes reads idle net call =>
    intro hunheard
    rw [apart.waits hunheard.1] at idle
    contradiction
  | clientReceive datagram received elapsed later readsReceived readsElapsed waits arrives addressed
      events net call =>
    have harriving : datagram ∈ arrivingAt address pair.inFlight :=
      List.mem_filter.mpr ⟨arrives, decide_eq_true addressed⟩
    rw [apart.unaddressed] at harriving
    contradiction
  | elapse later passes => exact trivial
  | connect remoteAddress now later reads idle result net call => exact trivial
  | clientCall later passes idle outcome call net returned => exact trivial
  | serverCall later passes idle outcome call net returned => exact trivial
  | serverSend clock later passes reads idle net call => exact trivial
  | serverReceive datagram hash peerHash received elapsed now later readsReceived readsElapsed
      readsNow waits arrives addressed events net call => exact trivial
  | lose datagram => exact trivial

theorem Booked.unsent (booked : Booked crc32 asked pair) (hown : address ∉ asked)
    (source : SocketAddr) (before : AntarcNet Client) :
    arrivingAt address (newlySent source before pair.client) = [] := by
  obtain ⟨numbering, ledger, -, -, side⟩ := booked.client
  refine List.filter_eq_nil_iff.mpr fun datagram hmem haddressed => hown ?_
  obtain ⟨transmission, hsent, rfl⟩ := List.mem_map.mp hmem
  have htransmission := List.mem_of_mem_drop hsent
  have hasked := (side.contacted transmission htransmission).1
  rw [← address_sent (ledger.sent transmission htransmission)] at hasked
  rwa [← of_decide_eq_true haddressed]

theorem Apart.step (apart : Apart address host pair) (stage : Unknown address host pair)
    (before : Booked crc32 asked pair) {later : List SocketAddr} (after : Booked crc32 later next)
    (hown : address ∉ later) (h : Pair.Step crc32 address host pair act next) :
    Apart address host next := by
  cases h with
  | elapse later passes => exact ⟨apart.unaddressed, apart.waits⟩
  | connect remoteAddress now later reads idle result net call =>
    obtain ⟨hawaiting, -⟩ := connect_frame call
    refine ⟨apart.unaddressed, fun hawaits => apart.waits ?_⟩
    unfold Awaits at hawaits ⊢
    rwa [hawaiting] at hawaits
  | clientCall later passes idle outcome call net returned =>
    cases (carriedDrive_alone stage.opening.client call).symm.trans returned
    exact ⟨apart.unaddressed, apart.waits⟩
  | clientSend clock later passes reads idle net call =>
    refine ⟨?_, fun _ => rfl⟩
    change arrivingAt address (pair.inFlight ++ newlySent address pair.client net) = []
    rw [arrivingAt_append, apart.unaddressed]
    exact after.unsent hown address pair.client
  | clientReceive datagram received elapsed later readsReceived readsElapsed waits arrives addressed
      events net call =>
    have harriving : datagram ∈ arrivingAt address pair.inFlight :=
      List.mem_filter.mpr ⟨arrives, decide_eq_true addressed⟩
    rw [apart.unaddressed] at harriving
    contradiction
  | serverCall later passes idle outcome call net returned => exact ⟨apart.unaddressed, apart.waits⟩
  | serverSend clock later passes reads idle net call =>
    cases stage.serverSend_idle before.server call
    refine ⟨?_, apart.waits⟩
    change arrivingAt address (pair.inFlight ++ newlySent host pair.server pair.server) = []
    rw [newlySent_self, List.append_nil, apart.unaddressed]
  | serverReceive datagram hash peerHash received elapsed now later readsReceived readsElapsed
      readsNow waits arrives addressed events net call =>
    exact ⟨arrivingAt_erase_nil datagram apart.unaddressed, apart.waits⟩
  | lose datagram => exact ⟨arrivingAt_erase_nil datagram apart.unaddressed, apart.waits⟩

theorem stage_of_asksOthers
    (h : (pairs crc32 address host (AsksOthers address)).Reachable pair) :
    address ≠ host ∧ ∃ asked, address ∉ asked ∧ Booked crc32 asked pair ∧
      (Unknown address host pair ∧ Apart address host pair ∨
        Greeted address host pair ∨ Answered host pair) := by
  refine h.invariant (fun pair => address ≠ host ∧ ∃ asked, address ∉ asked ∧
    Booked crc32 asked pair ∧ (Unknown address host pair ∧ Apart address host pair ∨
      Greeted address host pair ∨ Answered host pair)) ?_ ?_
  · rintro _ ⟨hdistinct, reliableTtl, clientStarted, serverStarted, now, -, -, rfl⟩
    have hnot : ¬Awaits host
        (.new address host reliableTtl clientStarted serverStarted now) := Finmap.notMem_empty
    exact ⟨hdistinct, [], List.not_mem_nil,
      booked_new crc32 address host reliableTtl clientStarted serverStarted now,
      .inl ⟨unknown_new address host reliableTtl clientStarted serverStarted now, rfl,
        fun hawaits => absurd hawaits hnot⟩⟩
  · rintro pair next - ⟨hdistinct, asked, hown, booked, stage⟩ ⟨act, hothers, hstep⟩
    obtain ⟨later, hsubset, hlater, hbooked⟩ := booked.step hstep
    have hown' : address ∉ later := by
      intro hmem
      rcases hlater address hmem with hmem | ⟨now, hact⟩
      · exact hown hmem
      · exact hothers now hact
    refine ⟨hdistinct, later, hown', hbooked, ?_⟩
    rcases stage with ⟨stage, apart⟩ | stage | stage
    · have hnext := apart.step stage booked hbooked hown' hstep
      cases stage.step booked hdistinct (apart.spares hstep) hstep with
      | unknown stage => exact .inl ⟨stage, hnext⟩
      | greeted stage => exact .inr (.inl stage)
      | answered stage => exact .inr (.inr stage)
    · exact .inr (stage.step booked hdistinct hstep)
    · exact .inr (.inr (stage.of_through booked hbooked hsubset (stage.through_step booked hstep)))

/-- A client that asks others only, such as one that asks nobody but the server, needs no more
than that: it blocks until the server has heard it, so that no poll can drop the request. -/
theorem handshake_tracked_of_asksOthers (crc32 : Crc32) (address host : SocketAddr) (pair : Pair)
    (h : (pairs crc32 address host (AsksOthers address)).Reachable pair)
    (hawaits : Awaits host pair) : Tracked address host pair := by
  obtain ⟨-, asked, -, -, stage⟩ := stage_of_asksOthers h
  rcases stage with ⟨stage, -⟩ | stage | stage
  · exact (Stage.unknown stage).tracked hawaits
  · exact (Stage.greeted stage).tracked hawaits
  · exact (Stage.answered stage).tracked hawaits

end Apart

end Runs

section Lost

def ownRequest : Packet ToSend ConnectionRequest :=
  (Scheduled.connectionRequest 1 (.v4 1 1) .zero).intoPacket .one 0 .zero

def requestInFlight (packet : Packet ToSend ConnectionRequest) : Datagram :=
  ⟨.v4 1 1, packet.datagram ieeeCrc32, .connectionRequest packet, true⟩

/-- A client that has asked the server and itself, in this order. -/
def askingPair : Pair :=
  let waiting (address : SocketAddr) : Peer AwaitingConnectionAck :=
    ⟨.two, 0, 0, address, ⟨⟨.zero, 0, .zero⟩, 0⟩⟩
  { Pair.new (.v4 1 1) (.v4 0 0) (.fromSecs 2) 0 0 0 with
    client :=
      { antarc :=
          { packetIdTracker := 2
            service := { Client.new with
              awaitingConnectionAck :=
                ((∅ : HashMap SocketAddr (Peer AwaitingConnectionAck)).insert (.v4 0 0)
                  (waiting (.v4 0 0))).insert (.v4 1 1) (waiting (.v4 1 1))
              reliabilityHandler := .new ⟨[askedRequest.sent .zero (.fromSecs 2),
                ownRequest.sent .zero (.fromSecs 2)]⟩ }
            reliableTtl := .fromSecs 2 }
        address := .v4 1 1
        socket := [(requestInFlight askedRequest).transmission,
          (requestInFlight ownRequest).transmission] }
    clientWaits := true
    inFlight := [requestInFlight askedRequest, requestInFlight ownRequest]
    lastHandshake := some ⟨0, .fromSecs 2⟩ }

theorem reads_zero (pair : Pair) (hstarted : pair.clientStarted = 0) (hnow : pair.now = 0) :
    pair.ClientReads 0 .zero := by
  simp [Pair.ClientReads, hstarted, hnow, Duration.zero]

set_option maxRecDepth 4000 in
theorem askingPair_reachable :
    (pairs ieeeCrc32 (.v4 1 1) (.v4 0 0) (Spares (.v4 1 1) (.v4 0 0))).Reachable askingPair := by
  have hnew : (pairs ieeeCrc32 (.v4 1 1) (.v4 0 0) (Spares (.v4 1 1) (.v4 0 0))).Reachable
      (.new (.v4 1 1) (.v4 0 0) (.fromSecs 2) 0 0 0) :=
    .start ⟨by decide, .fromSecs 2, 0, 0, 0, Nat.le_refl 0, Nat.le_refl 0, rfl⟩
  have hfirst := hnew.next ⟨.connect (.v4 0 0) .zero, trivial,
    .connect (.v4 0 0) .zero 0 (reads_zero _ rfl rfl) rfl _ _ rfl⟩
  have hsecond := hfirst.next ⟨.connect (.v4 1 1) .zero, trivial,
    .connect (.v4 1 1) .zero 0 (reads_zero _ rfl rfl) rfl _ _ rfl⟩
  refine hsecond.next ⟨.clientSend fun _ _ => .zero, ?_,
    .clientSend (fun _ _ => .zero) 0 (Nat.le_refl 0) (fun _ _ => reads_zero _ rfl rfl) rfl _ rfl⟩
  exact fun hunheard => absurd hunheard.1 Finmap.notMem_empty

theorem askingPair_awaits : Awaits (.v4 0 0) askingPair :=
  Finmap.mem_insert.mpr (.inr (Finmap.mem_insert.mpr (.inl rfl)))

/-- While it waits, the client keeps the request that may be lost. -/
theorem askingPair_tracked : Tracked (.v4 1 1) (.v4 0 0) askingPair :=
  handshake_tracked_while_spared ieeeCrc32 (.v4 1 1) (.v4 0 0) askingPair askingPair_reachable
    askingPair_awaits

/-- The same client, after the request to the server was lost and its own has arrived. -/
def forgetfulPair : Pair :=
  { askingPair with
    client := { askingPair.client with antarc := { askingPair.client.antarc with
      service := { askingPair.client.antarc.service with
        reliabilityHandler := .new ⟨[ownRequest.sent .zero (.fromSecs 2)]⟩ } } }
    clientWaits := false
    inFlight := [] }

theorem reachable_unconditionally {crc32 : Crc32} {address host : SocketAddr} {pair : Pair}
    {condition : Pair → Pair.Act → Prop}
    (h : (pairs crc32 address host condition).Reachable pair) :
    (pairs crc32 address host fun _ _ => True).Reachable pair := by
  obtain ⟨start, hinit, hsteps⟩ := h
  refine ⟨start, hinit, Relation.ReflTransGen.mono ?_ _ _ hsteps⟩
  rintro state next ⟨act, -, hstep⟩
  exact ⟨act, trivial, hstep⟩

set_option maxRecDepth 4000 in
/-- The poll that receives a request of the client's own drops the lost one before its time. -/
theorem forgetfulPair_untracked :
    (pairs ieeeCrc32 (.v4 1 1) (.v4 0 0) fun _ _ => True).Reachable forgetfulPair ∧
      Awaits (.v4 0 0) forgetfulPair ∧ ¬Tracked (.v4 1 1) (.v4 0 0) forgetfulPair := by
  refine ⟨?_, askingPair_awaits, ?_⟩
  · have hlost := (reachable_unconditionally askingPair_reachable).next
      ⟨.lose (requestInFlight askedRequest), trivial, .lose _⟩
    exact hlost.next ⟨.clientReceive (requestInFlight ownRequest) .zero .zero, trivial,
      .clientReceive (requestInFlight ownRequest) .zero .zero 0 (reads_zero _ rfl rfl)
        (reads_zero _ rfl rfl) rfl (List.mem_singleton_self (requestInFlight ownRequest)) rfl
        _ _ rfl⟩
  · rintro (⟨_, hmem, -⟩ | ⟨_, hmem, -⟩ | ⟨packet, hmem, haddress⟩ | ⟨_, hmem, -⟩ |
      ⟨last, hlast, hover⟩)
    · exact absurd hmem List.not_mem_nil
    · exact absurd hmem List.not_mem_nil
    · cases List.mem_singleton.mp hmem
      exact absurd haddress (by decide)
    · exact absurd hmem List.not_mem_nil
    · cases hlast
      exact absurd hover (by decide)

end Lost

end Antarc.Properties
