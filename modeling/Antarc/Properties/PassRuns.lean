import Antarc.Properties.Sequences

/-! Runs of a driver, pass by pass. A poll makes its passes in one order; here each pass is
a step of its own, and any call or datagram may come between two of them. -/
namespace Antarc.Properties

open Library

section Passes

inductive SharedPass where
  | schedule (hash : RandomState) (reliability : ReliabilityType) (sendTo : SendTo)
      (payload : Payload) (now : Duration)
  | heartbeat (hash : RandomState) (reliability : ReliabilityType) (sendTo : SendTo)
      (now : Duration)
  | unreliableDataTransfer (clock : Nat → Duration)
  | reliableDataTransfer (clock : Nat → Duration)
  | unreliableFragment (clock : Nat → Duration)
  | reliableFragment (clock : Nat → Duration)
  | unreliableHeartbeat (clock : Nat → Duration)
  | reliableHeartbeat (clock : Nat → Duration)
  | retryDataTransfer (clock : Nat → Duration)
  | retryFragment (clock : Nat → Duration)

inductive ClientPass where
  | shared (pass : SharedPass)
  | connect (address : SocketAddr) (now : Duration)
  | connectionRequest (clock : Nat → Duration)
  | retryConnectionRequest (clock : Nat → Duration)
  | receive (received elapsed : Duration) (datagram : Option RawPacket)

inductive ServerPass where
  | shared (pass : SharedPass)
  | connectionAccepted (clock : Nat → Duration)
  | retryConnectionAccepted (clock : Nat → Duration)
  | receive (hash : RandomState) (peerHash : ConnectionId → RandomState)
      (received elapsed now : Duration) (datagram : Option RawPacket)

def SharedPass.run {S A B E : Type} [Service S A B E] (crc32 : Crc32) (net : AntarcNet S) :
    SharedPass → Drive (AntarcNet S)
  | schedule hash reliability sendTo payload now =>
      Prod.snd <$> net.schedule hash reliability sendTo payload now
  | heartbeat hash reliability sendTo now => Prod.snd <$> net.heartbeat hash reliability sendTo now
  | unreliableDataTransfer clock => net.pollUnreliableDataTransfer crc32 clock
  | reliableDataTransfer clock => net.pollReliableDataTransfer crc32 clock
  | unreliableFragment clock => net.pollUnreliableFragment crc32 clock
  | reliableFragment clock => net.pollReliableFragment crc32 clock
  | unreliableHeartbeat clock => net.pollUnreliableHeartbeat crc32 clock
  | reliableHeartbeat clock => net.pollReliableHeartbeat crc32 clock
  | retryDataTransfer clock => net.pollRetryDataTransfer crc32 clock
  | retryFragment clock => net.pollRetryFragment crc32 clock

def ClientPass.run (crc32 : Crc32) (net : AntarcNet Client) : ClientPass → Drive (AntarcNet Client)
  | shared pass => pass.run crc32 net
  | connect address now => Prod.snd <$> net.connect address now
  | connectionRequest clock => net.pollConnectionRequest crc32 clock
  | retryConnectionRequest clock => net.pollRetryConnectionRequest crc32 clock
  | receive received elapsed datagram =>
      Prod.snd <$> net.clientReceive crc32 received elapsed datagram

def ServerPass.run (crc32 : Crc32) (net : AntarcNet Server) : ServerPass → Drive (AntarcNet Server)
  | shared pass => pass.run crc32 net
  | connectionAccepted clock => net.pollConnectionAccepted crc32 clock
  | retryConnectionAccepted clock => net.pollRetryConnectionAccepted crc32 clock
  | receive hash peerHash received elapsed now datagram =>
      Prod.snd <$> net.serverReceive crc32 hash peerHash received elapsed now datagram

/-- The runs of a driver in which each pass may be made in the state it is made in. -/
def passRuns {S : Type} {P : Type*} (start : AntarcNet S → Prop)
    (run : AntarcNet S → P → Drive (AntarcNet S)) (may : AntarcNet S → P → Prop) :
    Machine (Drive (AntarcNet S)) :=
  driverRuns start fun net outcome => ∃ pass, may net pass ∧ outcome = run net pass

def clientPassRuns (crc32 : Crc32) (may : AntarcNet Client → ClientPass → Prop) :
    Machine (Drive (AntarcNet Client)) :=
  passRuns (fun net => ∃ address, net = .newClient address) (ClientPass.run crc32) may

def serverPassRuns (crc32 : Crc32) (may : AntarcNet Server → ServerPass → Prop) :
    Machine (Drive (AntarcNet Server)) :=
  passRuns (fun net => ∃ address reliableTtl, net = .newServer address reliableTtl)
    (ServerPass.run crc32) may

def anyPass {S : Type} {P : Type*} (_ : AntarcNet S) (_ : P) : Prop :=
  True

theorem reachable_anyPass {S : Type} {P : Type*} {start : AntarcNet S → Prop}
    {run : AntarcNet S → P → Drive (AntarcNet S)} {may : AntarcNet S → P → Prop}
    {outcome : Drive (AntarcNet S)} (h : (passRuns start run may).Reachable outcome) :
    (passRuns start run anyPass).Reachable outcome := by
  obtain ⟨first, hinit, hsteps⟩ := h
  have hany : ∀ outcome next, (passRuns start run may).step outcome next →
      (passRuns start run anyPass).step outcome next := by
    rintro _ _ ⟨net, rfl, pass, -, hrun⟩
    exact ⟨net, rfl, pass, trivial, hrun⟩
  exact ⟨first, hinit, Relation.ReflTransGen.mono hany _ _ hsteps⟩

theorem holds_after_passes {S : Type} {P : Type*} {start : AntarcNet S → Prop}
    {run : AntarcNet S → P → Drive (AntarcNet S)} {may : AntarcNet S → P → Prop}
    {inv : AntarcNet S → Prop} (base : ∀ net, start net → inv net)
    (keep : ∀ net pass after, inv net → may net pass → run net pass = .ok after → inv after)
    {net : AntarcNet S} (h : (passRuns start run may).Reachable (.ok net)) : inv net := by
  refine (ensures_of_reachable base ?_ h : Ensures inv (fun _ => True) (.ok net))
  rintro net _ hinv ⟨pass, hmay, rfl⟩
  cases hrun : run net pass with
  | error stopped => exact trivial
  | ok after => exact keep net pass after hinv hmay hrun

end Passes

section Books

variable {crc32 : Crc32}

theorem SharedPass.books {S A B E : Type} [Service S A B E] [PeerTable S] {policy : Policy}
    {start : Numbering SocketAddr PacketId} {side : AntarcNet S → Prop} {net : AntarcNet S}
    (stable : Stable crc32 policy side) (books : Books crc32 policy start side net)
    (pass : SharedPass) :
    Ensures (Books crc32 policy start side) (Stands crc32) (pass.run crc32 net) := by
  cases pass with
  | schedule hash reliability sendTo payload now =>
    exact books.carriedDrive stable (.schedule hash reliability sendTo payload now)
  | heartbeat hash reliability sendTo now =>
    exact books.carriedDrive stable (.heartbeat hash reliability sendTo now)
  | unreliableDataTransfer clock => exact preserves_pass stable (fun _ _ _ => rfl) clock net books
  | reliableDataTransfer clock => exact preserves_pass stable (fun _ _ _ => rfl) clock net books
  | unreliableFragment clock => exact preserves_pass stable (fun _ _ _ => rfl) clock net books
  | reliableFragment clock => exact preserves_pass stable (fun _ _ _ => rfl) clock net books
  | unreliableHeartbeat clock => exact preserves_pass stable (fun _ _ _ => rfl) clock net books
  | reliableHeartbeat clock => exact preserves_pass stable (fun _ _ _ => rfl) clock net books
  | retryDataTransfer clock => exact preserves_retry DataTransfer stable clock net books
  | retryFragment clock => exact preserves_retry Fragment stable clock net books

def ClientInOrder (crc32 : Crc32) (net : AntarcNet Client) : Prop :=
  ∃ asked, Books crc32 .none .start (ClientSide asked []) net

def ServerInOrder (crc32 : Crc32) (net : AntarcNet Server) : Prop :=
  ∃ registry, Books crc32 .none .start (ServerSide registry []) net

theorem ClientPass.inOrder {net : AntarcNet Client} (h : ClientInOrder crc32 net)
    (pass : ClientPass) : Ensures (ClientInOrder crc32) (Stands crc32) (pass.run crc32 net) := by
  obtain ⟨asked, books⟩ := h
  have stable := stable_clientSide crc32 .none asked []
  cases pass with
  | shared pass => exact (pass.books stable books).mono fun _ h => ⟨asked, h⟩
  | connect address now => exact books.connectDrive address now
  | connectionRequest clock =>
    exact (preserves_pollConnectionRequest clock net books).mono fun _ h => ⟨asked, h⟩
  | retryConnectionRequest clock =>
    exact (preserves_pollRetryConnectionRequest clock net books).mono fun _ h => ⟨asked, h⟩
  | receive received elapsed datagram =>
    apply Ensures.map
    apply (books.clientReceive received elapsed datagram ?_).mono
    · exact fun result h => ⟨asked, h⟩
    · exact fun _ _ _ _ => ⟨fun _ _ _ _ => trivial, trivial⟩

theorem ServerPass.inOrder {net : AntarcNet Server} (h : ServerInOrder crc32 net)
    (pass : ServerPass) : Ensures (ServerInOrder crc32) (Stands crc32) (pass.run crc32 net) := by
  obtain ⟨registry, books⟩ := h
  have stable := stable_serverSide crc32 .none registry []
  cases pass with
  | shared pass => exact (pass.books stable books).mono fun _ h => ⟨registry, h⟩
  | connectionAccepted clock =>
    exact (preserves_pollConnectionAccepted clock net books).mono fun _ h => ⟨registry, h⟩
  | retryConnectionAccepted clock =>
    exact (preserves_pollRetryConnectionAccepted clock net books).mono fun _ h => ⟨registry, h⟩
  | receive hash peerHash received elapsed now datagram =>
    apply Ensures.map
    apply (books.serverReceive hash peerHash received elapsed now datagram ?_).mono
    · exact fun result ⟨later, _, h⟩ => ⟨later, h⟩
    · exact fun _ _ _ _ => ⟨fun _ _ _ _ _ _ => ⟨trivial, trivial⟩, fun _ _ => trivial⟩

theorem clientInOrder_new (address : SocketAddr) : ClientInOrder crc32 (.newClient address) :=
  ⟨[], books_newClient crc32 .none address⟩

theorem serverInOrder_new (address : SocketAddr) (reliableTtl : Duration) :
    ServerInOrder crc32 (.newServer address reliableTtl) :=
  ⟨.empty, books_newServer crc32 .none address reliableTtl⟩

end Books

end Antarc.Properties
