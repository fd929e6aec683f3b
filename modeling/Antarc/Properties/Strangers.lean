import Antarc.Properties.Canonical
import Antarc.Properties.Deliveries
import Antarc.Properties.Retransmission

/-! Nothing is sent to strangers. Whatever datagrams arrive, a server sends to addresses that
have asked it for a connection, and a client to addresses that it was asked to connect to. -/
namespace Antarc.Properties

open Library

section Policies

def askedPolicy (asked : List SocketAddr) : Policy where
  peer address _ := address ∈ asked
  ack address _ := address ∈ asked
  id _ _ := True
  stamp _ _ h := h
  advance _ _ _ h _ := h

variable {S A B E : Type} [Service S A B E] [PeerTable S] {crc32 : Crc32}
  {asked : List SocketAddr} {start : Numbering SocketAddr PacketId}
  {side : AntarcNet S → Prop} {net : AntarcNet S}

theorem Books.more_asked (books : Books crc32 (askedPolicy asked) start side net)
    (asking : List SocketAddr) : Books crc32 (askedPolicy (asked ++ asking)) start side net := by
  obtain ⟨numbering, ledger, settled, hsteps, hside⟩ := books
  refine ⟨numbering, ledger.weaken ?_ ?_ fun _ _ _ => trivial, settled, hsteps, hside⟩
  · exact fun _ _ h => List.mem_append_left _ h
  · exact fun _ _ h => List.mem_append_left _ h

theorem Books.sent_to_asked (books : Books crc32 (askedPolicy asked) start side net) :
    ∀ transmission ∈ net.socket, transmission.raw.address ∈ asked := by
  obtain ⟨numbering, ledger, -⟩ := books
  intro transmission hmem
  have hsent := ledger.sent transmission hmem
  rw [address_sent hsent]
  exact hsent.ack

end Policies

section Runs

/-- Runs of a driver with the addresses that have asked, so far, for a connection. A run that
panics goes no further. -/
def askedRuns (start : AntarcNet S → Prop)
    (call : AntarcNet S → List SocketAddr → AntarcNet S → Prop) :
    Machine (AntarcNet S × List SocketAddr) where
  init run := start run.1 ∧ run.2 = []
  step run next := ∃ asking, call run.1 asking next.1 ∧ next.2 = run.2 ++ asking

theorem askedRuns_next {start : AntarcNet S → Prop}
    {call : AntarcNet S → List SocketAddr → AntarcNet S → Prop} {net next : AntarcNet S}
    {asked asking : List SocketAddr} (h : (askedRuns start call).Reachable (net, asked))
    (hcall : call net asking next) : (askedRuns start call).Reachable (next, asked ++ asking) :=
  h.next ⟨asking, hcall, rfl⟩

def askingIn (crc32 : Crc32) (received : Duration) (datagram : Option RawPacket) :
    List SocketAddr :=
  match datagram with
  | some raw =>
      match raw.decode crc32 DecodedForServer.tryFrom received with
      | .ok (.ok (.connectionRequest _)) => [raw.address]
      | _ => []
  | none => []

inductive ServerAsked (crc32 : Crc32) (net : AntarcNet Server) :
    List SocketAddr → AntarcNet Server → Prop where
  | carried (outcome : Drive (AntarcNet Server)) (call : CarriedDrive net outcome)
      (next : AntarcNet Server) (returned : outcome = .ok next) : ServerAsked crc32 net [] next
  | poll (hash : RandomState) (peerHash : ConnectionId → RandomState) (clock : Clock)
      (datagram : Option RawPacket) (events : List (ProtocolEvent ServerEvent))
      (next : AntarcNet Server)
      (call : net.serverPoll crc32 hash peerHash clock datagram = .ok (events, next)) :
      ServerAsked crc32 net (askingIn crc32 (clock 10 0) datagram) next

inductive ClientAsked (crc32 : Crc32) (net : AntarcNet Client) :
    List SocketAddr → AntarcNet Client → Prop where
  | carried (outcome : Drive (AntarcNet Client)) (call : CarriedDrive net outcome)
      (next : AntarcNet Client) (returned : outcome = .ok next) : ClientAsked crc32 net [] next
  | connect (address : SocketAddr) (now : Duration) (result : Result Unit)
      (next : AntarcNet Client) (call : net.connect address now = .ok (result, next)) :
      ClientAsked crc32 net [address] next
  | poll (clock : Clock) (datagram : Option RawPacket) (events : List (ProtocolEvent ClientEvent))
      (next : AntarcNet Client)
      (call : net.clientPoll crc32 clock datagram = .ok (events, next)) :
      ClientAsked crc32 net [] next

def serverAskedRuns (crc32 : Crc32) : Machine (AntarcNet Server × List SocketAddr) :=
  askedRuns (fun net => ∃ address reliableTtl, net = .newServer address reliableTtl)
    (ServerAsked crc32)

def clientAskedRuns (crc32 : Crc32) : Machine (AntarcNet Client × List SocketAddr) :=
  askedRuns (fun net => ∃ address, net = .newClient address) (ClientAsked crc32)

end Runs

section Servers

variable {crc32 : Crc32} {asked : List SocketAddr} {registry : Registry SocketAddr}
  {net next : AntarcNet Server}

theorem address_of_request {raw : RawPacket} {time : Duration}
    {packet : Packet Received ConnectionRequest}
    (h : raw.decode crc32 DecodedForServer.tryFrom time = .ok (.ok (.connectionRequest packet))) :
    packet.delivery.metadata.address = raw.address := by
  obtain ⟨result, hrun, h⟩ := bind_eq_ok.mp h
  rcases result with error | decoded
  · cases h
  · obtain ⟨_, haccepts⟩ := (Canonical.innerDecode_accepts_iff crc32 raw time decoded).mp hrun
    have hdelivered := haccepts.delivered
    cases decoded <;> cases h
    exact congrArg (fun delivery : Received => delivery.metadata.address) hdelivered

theorem Books.mayTake {raw : RawPacket} {time : Duration} {decoded : DecodedForServer}
    (books : Books crc32 (askedPolicy asked) .start (ServerSide registry []) net)
    (hdecode : raw.decode crc32 DecodedForServer.tryFrom time = .ok (.ok decoded))
    (hasking : askingIn crc32 time (some raw) ⊆ asked) :
    ServerMayTake (askedPolicy asked) net.antarc.service decoded := by
  obtain ⟨numbering, ledger, -⟩ := books
  refine ⟨fun header address trackers _ _ hholds => ⟨ledger.trusted address trackers hholds,
    trivial⟩, ?_⟩
  rintro packet rfl
  change packet.delivery.metadata.address ∈ asked
  rw [address_of_request hdecode]
  refine hasking ?_
  simp only [askingIn, hdecode, List.mem_singleton]

theorem Books.serverAsked {asking : List SocketAddr}
    (books : Books crc32 (askedPolicy asked) .start (ServerSide registry []) net)
    (h : ServerAsked crc32 net asking next) :
    ∃ later, Books crc32 (askedPolicy (asked ++ asking)) .start (ServerSide later []) next := by
  replace books := books.more_asked asking
  cases h with
  | carried outcome call _ returned =>
    have hbooks := books.carriedDrive (stable_serverSide crc32 _ registry []) call
    rw [returned] at hbooks
    exact ⟨registry, hbooks⟩
  | poll hash peerHash clock datagram events _ call =>
    obtain ⟨sent, hsent, hreceived⟩ := bind_eq_ok.mp call
    have hbooks := preserves_serverSend clock net books
    rw [hsent] at hbooks
    have hnext := hbooks.serverReceive hash peerHash (clock 10 0) (clock 10 1) (clock 10 2) datagram
      (by
        rintro raw decoded rfl hdecode
        exact hbooks.mayTake hdecode (List.subset_append_right _ _))
    rw [hreceived] at hnext
    obtain ⟨later, -, hnext⟩ := hnext
    exact ⟨later, hnext⟩

end Servers

section Clients

variable {crc32 : Crc32} {asked connecting : List SocketAddr} {net next : AntarcNet Client}

theorem Books.clientAsked {asking : List SocketAddr}
    (books : Books crc32 (askedPolicy asked) .start (ClientSide connecting []) net)
    (h : ClientAsked crc32 net asking next) :
    ∃ later, Books crc32 (askedPolicy (asked ++ asking)) .start (ClientSide later []) next := by
  replace books := books.more_asked asking
  cases h with
  | carried outcome call _ returned =>
    have hbooks := books.carriedDrive (stable_clientSide crc32 _ connecting []) call
    rw [returned] at hbooks
    exact ⟨connecting, hbooks⟩
  | connect address now result _ call =>
    obtain ⟨⟨_, antarc⟩, hconnect, call⟩ := bind_eq_ok.mp call
    cases call
    have hasked : address ∈ asked ++ [address] :=
      List.mem_append_right _ (List.mem_singleton_self _)
    rcases books.connect hasked (attempt_eq_ok.mp hconnect) with ⟨error, -, hsame⟩ | ⟨-, hbooks⟩
    · rw [hsame]
      exact ⟨connecting, books⟩
    · exact ⟨_, hbooks⟩
  | poll clock datagram events _ call =>
    obtain ⟨sent, hsent, hreceived⟩ := bind_eq_ok.mp call
    have hbooks := preserves_clientSend clock net books
    rw [hsent] at hbooks
    have hnext := hbooks.clientReceive (clock 9 0) (clock 9 1) datagram (by
      obtain ⟨numbering, ledger, -⟩ := hbooks
      exact fun _ _ _ _ => ⟨fun address trackers hholds _ =>
        ledger.trusted address trackers hholds, trivial⟩)
    rw [hreceived] at hnext
    exact ⟨connecting, hnext⟩

end Clients

section Strangers

/-- In every run, whatever datagrams arrive from anywhere: a server has sent nothing to an
address that has not sent it a connection request, and a client nothing to an address that it
was not asked to connect to. -/
theorem nothing_sent_to_strangers (crc32 : Crc32) :
    (∀ run, (serverAskedRuns crc32).Reachable run →
      ∀ transmission ∈ run.1.socket, transmission.raw.address ∈ run.2) ∧
    ∀ run, (clientAskedRuns crc32).Reachable run →
      ∀ transmission ∈ run.1.socket, transmission.raw.address ∈ run.2 := by
  constructor
  · intro run h
    have hbooks : ∃ registry, Books crc32 (askedPolicy run.2) .start (ServerSide registry [])
        run.1 := by
      refine h.invariant (fun run => ∃ registry,
        Books crc32 (askedPolicy run.2) .start (ServerSide registry []) run.1) ?_ ?_
      · rintro ⟨_, _⟩ ⟨⟨address, reliableTtl, rfl⟩, rfl⟩
        exact ⟨.empty, books_newServer crc32 _ address reliableTtl⟩
      · rintro ⟨net, asked⟩ ⟨next, _⟩ - ⟨registry, books⟩ ⟨asking, hcall, rfl⟩
        exact books.serverAsked hcall
    obtain ⟨registry, books⟩ := hbooks
    exact books.sent_to_asked
  · intro run h
    have hbooks : ∃ connecting, Books crc32 (askedPolicy run.2) .start (ClientSide connecting [])
        run.1 := by
      refine h.invariant (fun run => ∃ connecting,
        Books crc32 (askedPolicy run.2) .start (ClientSide connecting []) run.1) ?_ ?_
      · rintro ⟨_, _⟩ ⟨⟨address, rfl⟩, rfl⟩
        exact ⟨[], books_newClient crc32 _ address⟩
      · rintro ⟨net, asked⟩ ⟨next, _⟩ - ⟨connecting, books⟩ ⟨asking, hcall, rfl⟩
        exact books.clientAsked hcall
    obtain ⟨connecting, books⟩ := hbooks
    exact books.sent_to_asked

set_option maxRecDepth 8000 in
/-- What a server has sent to a client, and the client to it, was asked for. -/
theorem greeting_was_asked : (∃ run, (serverAskedRuns ieeeCrc32).Reachable run ∧
      run.1.socket = answeringServer.socket ∧ ∀ transmission ∈ run.1.socket,
        transmission.raw.address ∈ run.2) ∧
    ∃ run, (clientAskedRuns ieeeCrc32).Reachable run ∧
      run.1.socket = greetedClient.socket ∧ ∀ transmission ∈ run.1.socket,
        transmission.raw.address ∈ run.2 := by
  let hash := Classical.arbitrary RandomState
  have hasked : ServerAsked ieeeCrc32 (.newServer (.v4 0 0) .zero) _ admittedServer :=
    .poll hash (fun _ => hash) (fun _ _ => .zero) _ _ _
      (bind_eq_ok.mpr ⟨.newServer (.v4 0 0) .zero, rfl, newServer_admits hash fun _ => hash⟩)
  obtain ⟨net, hreceived⟩ := answeringServer_receives hash fun _ => hash
  have hanswered : ServerAsked ieeeCrc32 admittedServer _ net :=
    .poll hash (fun _ => hash) (fun _ _ => .zero) _ _ _
      (bind_eq_ok.mpr ⟨answeringServer, rfl, hreceived⟩)
  have hmade : (serverAskedRuns ieeeCrc32).Reachable (.newServer (.v4 0 0) .zero, []) :=
    .start ⟨⟨_, _, rfl⟩, rfl⟩
  have hserver := askedRuns_next (askedRuns_next hmade hasked) hanswered
  have hconnected : ClientAsked ieeeCrc32 (.newClient (.v4 1 1)) [.v4 0 0]
      askedRun.net :=
    .connect _ .zero (.ok ()) _ rfl
  have hgreeted : ClientAsked ieeeCrc32 askedRun.net [] greetedClient :=
    .poll (fun _ _ => .zero) _ _ _ askedRun_greeted
  have hnew : (clientAskedRuns ieeeCrc32).Reachable (.newClient (.v4 1 1), []) :=
    .start ⟨⟨_, rfl⟩, rfl⟩
  have hclient := askedRuns_next (askedRuns_next hnew hconnected) hgreeted
  exact ⟨⟨_, hserver, serverReceive_socket hreceived,
      (nothing_sent_to_strangers ieeeCrc32).1 _ hserver⟩,
    ⟨_, hclient, rfl, (nothing_sent_to_strangers ieeeCrc32).2 _ hclient⟩⟩

end Strangers

end Antarc.Properties
