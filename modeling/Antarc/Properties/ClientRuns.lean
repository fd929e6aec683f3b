import Antarc.Library.Crc32
import Antarc.Properties.ClientBooks

/-! What the client's connection table looks like in every run, in the words of its
three maps, its queue of requests and the calls of `connect` that it took. -/
namespace Antarc.Properties

open Library

inductive CarriedPass (crc32 : Crc32) :
    (AntarcNet Client → Drive (AntarcNet Client)) → Prop where
  | unreliableDataTransfer (clock : Nat → Duration) :
      CarriedPass crc32 (AntarcNet.pollUnreliableDataTransfer crc32 clock)
  | reliableDataTransfer (clock : Nat → Duration) :
      CarriedPass crc32 (AntarcNet.pollReliableDataTransfer crc32 clock)
  | unreliableFragment (clock : Nat → Duration) :
      CarriedPass crc32 (AntarcNet.pollUnreliableFragment crc32 clock)
  | reliableFragment (clock : Nat → Duration) :
      CarriedPass crc32 (AntarcNet.pollReliableFragment crc32 clock)
  | unreliableHeartbeat (clock : Nat → Duration) :
      CarriedPass crc32 (AntarcNet.pollUnreliableHeartbeat crc32 clock)
  | reliableHeartbeat (clock : Nat → Duration) :
      CarriedPass crc32 (AntarcNet.pollReliableHeartbeat crc32 clock)
  | retryDataTransfer (clock : Nat → Duration) :
      CarriedPass crc32 (AntarcNet.pollRetryDataTransfer crc32 clock)
  | retryFragment (clock : Nat → Duration) :
      CarriedPass crc32 (AntarcNet.pollRetryFragment crc32 clock)

theorem CarriedPass.kept {crc32 : Crc32} {policy : Policy}
    {pass : AntarcNet Client → Drive (AntarcNet Client)} (h : CarriedPass crc32 pass)
    {numbering : Numbering SocketAddr PacketId} {net : AntarcNet Client}
    (ledger : Ledger crc32 policy numbering net) (settled : Settled numbering) :
    Ensures (fun after => ∃ later, Kept crc32 policy numbering net later after) (Stands crc32)
      (pass net) := by
  cases h with
  | unreliableDataTransfer clock => exact ledger.pass (fun _ _ _ => rfl) settled clock
  | reliableDataTransfer clock => exact ledger.pass (fun _ _ _ => rfl) settled clock
  | unreliableFragment clock => exact ledger.pass (fun _ _ _ => rfl) settled clock
  | reliableFragment clock => exact ledger.pass (fun _ _ _ => rfl) settled clock
  | unreliableHeartbeat clock => exact ledger.pass (fun _ _ _ => rfl) settled clock
  | reliableHeartbeat clock => exact ledger.pass (fun _ _ _ => rfl) settled clock
  | retryDataTransfer clock => exact Ledger.retry (M := DataTransfer) ledger settled clock
  | retryFragment clock => exact Ledger.retry (M := Fragment) ledger settled clock

/-- A client's driver, and the addresses for which `connect` has returned `Ok`. -/
structure ClientRun where
  net : AntarcNet Client
  asked : List SocketAddr

/-- One call, or one pass, that returns. -/
inductive ClientStep (crc32 : Crc32) (run : ClientRun) : ClientRun → Prop where
  | connect (address : SocketAddr) (now : Duration) (antarc : Protocol Client)
      (call : run.net.antarc.connect address now = .ok (.ok (), antarc)) :
      ClientStep crc32 run ⟨{ run.net with antarc := antarc }, run.asked ++ [address]⟩
  | refused (address : SocketAddr) (now : Duration) (error : ProtocolError)
      (antarc : Protocol Client)
      (call : run.net.antarc.connect address now = .ok (.error error, antarc)) :
      ClientStep crc32 run ⟨{ run.net with antarc := antarc }, run.asked⟩
  | received (raw : RawPacket) (now : Duration) (result : Result Unit) (antarc : Protocol Client)
      (call : run.net.antarc.clientReceived crc32 raw now = .ok (result, antarc)) :
      ClientStep crc32 run ⟨{ run.net with antarc := antarc }, run.asked⟩
  | schedule (hash : RandomState) (reliability : ReliabilityType) (sendTo : SendTo)
      (payload : Payload) (now : Duration) (result : Result PacketId) (antarc : Protocol Client)
      (call : run.net.antarc.schedule hash reliability sendTo payload now =
        .ok (result, antarc)) :
      ClientStep crc32 run ⟨{ run.net with antarc := antarc }, run.asked⟩
  | heartbeat (hash : RandomState) (reliability : ReliabilityType) (sendTo : SendTo)
      (now : Duration) (result : Result PacketId) (antarc : Protocol Client)
      (call : run.net.antarc.heartbeat hash reliability sendTo now = .ok (result, antarc)) :
      ClientStep crc32 run ⟨{ run.net with antarc := antarc }, run.asked⟩
  | poll (elapsed : Duration) (events : List (ProtocolEvent ClientEvent))
      (antarc : Protocol Client)
      (call : run.net.antarc.clientPoll elapsed = .ok (events, antarc)) :
      ClientStep crc32 run ⟨{ run.net with antarc := antarc }, run.asked⟩
  | requests (clock : Nat → Duration) (net : AntarcNet Client)
      (call : run.net.pollConnectionRequest crc32 clock = .ok net) :
      ClientStep crc32 run ⟨net, run.asked⟩
  | retryRequest (clock : Nat → Duration) (net : AntarcNet Client)
      (call : run.net.pollRetryConnectionRequest crc32 clock = .ok net) :
      ClientStep crc32 run ⟨net, run.asked⟩
  | carried (pass : AntarcNet Client → Drive (AntarcNet Client)) (kind : CarriedPass crc32 pass)
      (net : AntarcNet Client) (call : pass run.net = .ok net) :
      ClientStep crc32 run ⟨net, run.asked⟩

def clientRuns (crc32 : Crc32) : Machine ClientRun where
  init run := ∃ address, run = ⟨.newClient address, []⟩
  step := ClientStep crc32

section Invariant

variable {crc32 : Crc32} {run next : ClientRun}

theorem books_of_reachable (h : (clientRuns crc32).Reachable run) :
    Books crc32 .none .start (ClientSide run.asked []) run.net := by
  refine h.invariant (fun run => Books crc32 .none .start (ClientSide run.asked []) run.net) ?_ ?_
  · rintro _ ⟨address, rfl⟩
    exact books_newClient crc32 .none address
  rintro run next - books hstep
  have stable := stable_clientSide crc32 .none run.asked []
  cases hstep with
  | connect address now antarc call =>
    rcases books.connect trivial call with ⟨error, hresult, -⟩ | ⟨-, hbooks⟩
    · contradiction
    · exact hbooks
  | refused address now error antarc call =>
    rcases books.connect trivial call with ⟨error, -, hsame⟩ | ⟨hresult, -⟩
    · rw [hsame]
      exact books
    · contradiction
  | received raw now result antarc call =>
    exact books.clientReceived (fun _ _ => ⟨fun _ _ _ _ => trivial, trivial⟩) call
  | schedule hash reliability sendTo payload now result antarc call =>
    exact books.schedule stable call
  | heartbeat hash reliability sendTo now result antarc call => exact books.heartbeat stable call
  | poll elapsed events antarc call => exact books.clientPoll call
  | requests clock net call =>
    have hpass := preserves_pollConnectionRequest clock run.net books
    rwa [call] at hpass
  | retryRequest clock net call =>
    have hpass := preserves_pollRetryConnectionRequest clock run.net books
    rwa [call] at hpass
  | carried pass kind net call =>
    have hpass := preserves_of_kept stable (fun _ _ => kind.kept) run.net books
    rwa [call] at hpass

/-- The table in the words of the client's three maps and its queue of requests. -/
structure ClientTableInvariant (asked : List SocketAddr) (client : Client) : Prop where
  own_requesting : ∀ address peer, client.requestingConnection.lookup address = some peer →
    peer.address = address
  own_awaiting : ∀ address peer, client.awaitingConnectionAck.lookup address = some peer →
    peer.address = address
  own_connected : ∀ id peer, client.connected.lookup id = some peer →
    peer.connection.connectionId = id
  distinct_connected : ∀ id id' peer peer', client.connected.lookup id = some peer →
    client.connected.lookup id' = some peer' → peer.address = peer'.address → id = id'
  requesting_awaiting : ∀ address address' peer peer',
    client.requestingConnection.lookup address = some peer →
    client.awaitingConnectionAck.lookup address' = some peer' → peer.address ≠ peer'.address
  requesting_connected : ∀ address id peer peer',
    client.requestingConnection.lookup address = some peer →
    client.connected.lookup id = some peer' → peer.address ≠ peer'.address
  awaiting_connected : ∀ address id peer peer',
    client.awaitingConnectionAck.lookup address = some peer →
    client.connected.lookup id = some peer' → peer.address ≠ peer'.address
  exactly_asked : ∀ address, address ∈ asked ↔
    (∃ key peer, client.requestingConnection.lookup key = some peer ∧ peer.address = address) ∨
    (∃ key peer, client.awaitingConnectionAck.lookup key = some peer ∧ peer.address = address) ∨
    ∃ id peer, client.connected.lookup id = some peer ∧ peer.address = address
  queue_nodup :
    (client.scheduler.service.listScheduledConnectionRequest.map Scheduled.address).Nodup
  queue_exactly : ∀ address,
    address ∈ client.scheduler.service.listScheduledConnectionRequest.map Scheduled.address ↔
      address ∈ client.requestingConnection

theorem ClientTable.invariant {asked : List SocketAddr} {client : Client}
    (table : ClientTable asked
      (client.scheduler.service.listScheduledConnectionRequest.map Scheduled.address) client) :
    ClientTableInvariant asked client where
  own_requesting := table.ownRequesting
  own_awaiting := table.ownAwaiting
  own_connected := table.ownId
  distinct_connected := fun id id' peer peer' h h' haddress =>
    table.single id id' peer.address ⟨peer, h, rfl⟩ ⟨peer', h', haddress.symm⟩
  requesting_awaiting := by
    intro address address' peer peer' h h' haddress
    rw [table.ownRequesting _ _ h, table.ownAwaiting _ _ h'] at haddress
    rw [← haddress] at h'
    exact table.disjoint address (Finmap.mem_of_lookup_eq_some h) (Finmap.mem_of_lookup_eq_some h')
  requesting_connected := by
    intro address id peer peer' h h' haddress
    rw [table.ownRequesting _ _ h] at haddress
    exact (table.apart id address ⟨peer', h', haddress.symm⟩).1 (Finmap.mem_of_lookup_eq_some h)
  awaiting_connected := by
    intro address id peer peer' h h' haddress
    rw [table.ownAwaiting _ _ h] at haddress
    exact (table.apart id address ⟨peer', h', haddress.symm⟩).2 (Finmap.mem_of_lookup_eq_some h)
  exactly_asked := by
    intro address
    rw [table.asked_iff]
    refine or_congr ?_ (or_congr ?_ Iff.rfl)
    · rw [mem_iff_lookup]
      constructor
      · rintro ⟨peer, h⟩
        exact ⟨address, peer, h, table.ownRequesting _ _ h⟩
      · rintro ⟨key, peer, h, rfl⟩
        rw [table.ownRequesting _ _ h]
        exact ⟨peer, h⟩
    · rw [mem_iff_lookup]
      constructor
      · rintro ⟨peer, h⟩
        exact ⟨address, peer, h, table.ownAwaiting _ _ h⟩
      · rintro ⟨key, peer, h, rfl⟩
        rw [table.ownAwaiting _ _ h]
        exact ⟨peer, h⟩
  queue_nodup := table.pending_nodup
  queue_exactly := table.pending_iff

def KeepsConnected (client next : Client) : Prop :=
  ∀ id address, ConnectedAt client id address → ConnectedAt next id address

theorem keepsConnected_hears {client next : Client} {header : Header}
    (h : ClientHears client header next) : KeepsConnected client next := by
  intro id address hat
  cases h with
  | connected peer found reassembler events _ =>
    rw [connectedAt_iff] at hat ⊢
    rw [← hat]
    exact map_lookup_insert Peer.address (hearing peer header reassembler) found rfl id
  | awaiting peer unconnected found time events _ =>
    exact (connectedAt_insert unconnected rfl id address).mpr (.inr hat)

theorem keepsConnected_of_eq {client next : Client} (h : next.connected = client.connected) :
    KeepsConnected client next := by
  rintro id address ⟨peer, hfound, haddress⟩
  refine ⟨peer, ?_, haddress⟩
  change next.connected.lookup id = some peer
  rw [h]
  exact hfound

theorem requests_connected {clock : Nat → Duration} {net after : AntarcNet Client}
    (h : net.pollConnectionRequest crc32 clock = .ok after) :
    after.antarc.service.connected = net.antarc.service.connected := by
  refine pollQueue_view (fun protocol => protocol.service.connected) ?_ ?_ h
  · intro protocol packet now next haccount
    obtain ⟨_, _, -, -, rfl⟩ := sentConnectionRequest_frame haccount
    rfl
  · intro protocol drained next hdrain
    obtain ⟨⟨_, service⟩, hservice, hdrain⟩ := bind_eq_ok.mp hdrain
    obtain ⟨_, -, hservice⟩ := bind_eq_ok.mp hservice
    cases hservice
    cases hdrain
    rfl

theorem retryRequest_connected {clock : Nat → Duration} {net after : AntarcNet Client}
    (h : net.pollRetryConnectionRequest crc32 clock = .ok after) :
    after.antarc.service.connected = net.antarc.service.connected := by
  refine pollStored_view (fun protocol => protocol.service.connected) ?_ ?_ h
  · intro protocol packet now next haccount
    obtain ⟨_, _, -, -, rfl⟩ := sentConnectionRequest_frame haccount
    rfl
  · intro protocol now packet next hretry
    obtain ⟨⟨_, service⟩, hservice, hretry⟩ := bind_eq_ok.mp hretry
    obtain ⟨_, -, hservice⟩ := bind_eq_ok.mp hservice
    cases hservice
    cases hretry
    rfl

theorem keepsConnected_step (books : Books crc32 .none .start (ClientSide run.asked []) run.net)
    (h : ClientStep crc32 run next) :
    KeepsConnected run.net.antarc.service next.net.antarc.service := by
  obtain ⟨numbering, ledger, settled, -, side⟩ := books
  cases h with
  | connect address now antarc call =>
    rcases connect_cases call with ⟨_, hresult, -⟩ | ⟨_, -, -, -, rfl⟩
    · contradiction
    · exact keepsConnected_of_eq rfl
  | refused address now error antarc call =>
    rcases connect_cases call with ⟨_, -, rfl⟩ | ⟨_, -, -, hresult, -⟩
    · exact keepsConnected_of_eq rfl
    · contradiction
  | received raw now result antarc call =>
    obtain ⟨hreceived, -⟩ := clientReceived_onReceived call
    rcases client_onReceived_cases hreceived with hsame | ⟨_, -, -, hhears⟩
    · exact keepsConnected_of_eq (congrArg (fun client : Client => client.connected) hsame)
    · exact keepsConnected_hears hhears
  | schedule hash reliability sendTo payload now result antarc call =>
    exact fun id address => ((ledger.schedule call).2.connectedAt id address).mpr
  | heartbeat hash reliability sendTo now result antarc call =>
    exact fun id address => ((ledger.heartbeat call).2.connectedAt id address).mpr
  | poll elapsed events antarc call =>
    obtain ⟨_, -, -, rfl⟩ := clientPoll_frame call
    exact keepsConnected_of_eq rfl
  | requests clock net call => exact keepsConnected_of_eq (requests_connected call)
  | retryRequest clock net call => exact keepsConnected_of_eq (retryRequest_connected call)
  | carried pass kind net call =>
    have hpass := kind.kept ledger settled
    rw [call] at hpass
    obtain ⟨later, kept⟩ := hpass
    exact fun id address => (kept.carries.untouched.connectedAt id address).mpr

/-- The client's connection table, in every state that its calls and passes can reach. A
pass over packets of connections connects nobody: every awaiting peer still awaits. And no
step takes the place of a connected peer. -/
theorem client_table_invariant (crc32 : Crc32) (run : ClientRun)
    (h : (clientRuns crc32).Reachable run) :
    ClientTableInvariant run.asked run.net.antarc.service ∧
      (∀ pass, CarriedPass crc32 pass → ∀ after, pass run.net = .ok after →
        after.antarc.service.awaitingConnectionAck =
          run.net.antarc.service.awaitingConnectionAck) ∧
      ∀ next, ClientStep crc32 run next → ∀ id peer,
        run.net.antarc.service.connected.lookup id = some peer →
        ∃ peer', next.net.antarc.service.connected.lookup id = some peer' ∧
          peer'.address = peer.address := by
  have books := books_of_reachable h
  refine ⟨?_, ?_, ?_⟩
  · obtain ⟨numbering, -, -, -, side⟩ := books
    exact side.table.invariant
  · intro pass kind after hpass
    obtain ⟨numbering, ledger, settled, -, -⟩ := books
    have hkept := kind.kept ledger settled
    rw [hpass] at hkept
    obtain ⟨later, kept⟩ := hkept
    obtain ⟨core, hcore⟩ := kept.carries.untouched.frame
    rw [hcore]
    rfl
  · intro next hstep id peer hfound
    exact keepsConnected_step books hstep id peer.address ⟨peer, hfound, rfl⟩

def askedRun : ClientRun where
  net := ⟨⟨1, connecting .new (.v4 0 0) 0 .zero, .fromSecs 2⟩, .v4 1 1, []⟩
  asked := [.v4 0 0]

theorem askedRun_reachable : (clientRuns ieeeCrc32).Reachable askedRun :=
  .next (.start ⟨.v4 1 1, rfl⟩) (.connect (.v4 0 0) .zero _ rfl)

def askedRequest : Packet ToSend ConnectionRequest :=
  (Scheduled.connectionRequest 0 (.v4 0 0) .zero).intoPacket .one 0 .zero

def answeringAccept : Packet ToSend ConnectionAccepted :=
  ⟨⟨0, ⟨.zero, .v4 1 1⟩⟩, .one, 1, ⟨⟨connectionAccepted⟩, .one⟩⟩

def fromServer [Message M] (packet : Packet ToSend M) : RawPacket :=
  ⟨.v4 0 0, (packet.datagram ieeeCrc32).bytes⟩

/-- A client that has been connected by the accept. -/
def connectedRun : ClientRun where
  net :=
    { antarc :=
        { packetIdTracker := 1
          service := { Client.new with
            connected := Finmap.insert .one ⟨.two, 1, 1, .v4 0 0,
              ⟨⟨.zero, 0, .zero⟩, .one, .zero, ∅⟩⟩ ∅
            reliabilityHandler := .new ⟨[askedRequest.sent .zero (.fromSecs 2)]⟩ }
          reliableTtl := .fromSecs 2 }
      address := .v4 1 1
      socket := [⟨askedRequest.datagram ieeeCrc32, .connectionRequest askedRequest, true⟩] }
  asked := [.v4 0 0]

set_option maxRecDepth 4000 in
theorem connectedRun_reachable : (clientRuns ieeeCrc32).Reachable connectedRun := by
  exact (askedRun_reachable.next (.requests (fun _ => .zero) _ rfl)).next
    (.received (fromServer answeringAccept) .zero _ _ rfl)

def secondRequest : Packet ToSend ConnectionRequest :=
  ⟨⟨1, ⟨.zero, .v4 0 1⟩⟩, .one, 0, ⟨⟨connectionRequest⟩⟩⟩

def twoServersRun : ClientRun where
  net :=
    { antarc :=
        { packetIdTracker := 2
          service := { connectedRun.net.antarc.service with
            awaitingConnectionAck := Finmap.insert (.v4 0 1)
              ⟨.two, 0, 0, .v4 0 1, ⟨⟨.zero, 0, .zero⟩, 0⟩⟩ ∅
            reliabilityHandler := .new ⟨[askedRequest.sent .zero (.fromSecs 2),
              secondRequest.sent .zero (.fromSecs 2)]⟩ }
          reliableTtl := .fromSecs 2 }
      address := .v4 1 1
      socket := connectedRun.net.socket ++
        [⟨secondRequest.datagram ieeeCrc32, .connectionRequest secondRequest, true⟩] }
  asked := [.v4 0 0, .v4 0 1]

set_option maxRecDepth 4000 in
theorem twoServersRun_reachable : (clientRuns ieeeCrc32).Reachable twoServersRun :=
  (connectedRun_reachable.next (.connect (.v4 0 1) .zero _ rfl)).next
    (.requests (fun _ => .zero) _ rfl)

theorem twoServersRun_table :
    (⟨1, by decide⟩ ∈ twoServersRun.net.antarc.service.connected ∧
      .v4 0 1 ∈ twoServersRun.net.antarc.service.awaitingConnectionAck) ∧
    ClientTableInvariant twoServersRun.asked twoServersRun.net.antarc.service ∧
      (∀ pass, CarriedPass ieeeCrc32 pass → ∀ after, pass twoServersRun.net = .ok after →
        after.antarc.service.awaitingConnectionAck =
          twoServersRun.net.antarc.service.awaitingConnectionAck) ∧
      ∀ next, ClientStep ieeeCrc32 twoServersRun next → ∀ id peer,
        twoServersRun.net.antarc.service.connected.lookup id = some peer →
        ∃ peer', next.net.antarc.service.connected.lookup id = some peer' ∧
          peer'.address = peer.address :=
  ⟨⟨Finmap.mem_insert.mpr (.inl rfl), Finmap.mem_insert.mpr (.inl rfl)⟩,
    client_table_invariant ieeeCrc32 twoServersRun twoServersRun_reachable⟩

end Invariant

end Antarc.Properties
