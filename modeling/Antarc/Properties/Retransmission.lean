import Antarc.Properties.ClientRuns
import Antarc.Properties.PassRuns

/-! A packet that is sent again is the packet that was sent. What a retry returns has been
put together anew from a stored packet, field by field, and encodes to the datagram that
went out first, whatever the trackers of its peer have become. -/
namespace Antarc.Properties

open Library

section Wire

def rawOf (crc32 : Crc32) : Outgoing → Exec RawPacket
  | .connectionRequest packet => packet.asRaw crc32
  | .connectionAccepted packet => packet.asRaw crc32
  | .dataTransfer packet => packet.asRaw crc32
  | .fragment packet => packet.asRaw crc32
  | .heartbeat packet => packet.asRaw crc32

class Legible (M : Type) [Sendable M] [Bodied M] : Prop where
  rawOf_outgoing : ∀ (crc32 : Crc32) (packet : Packet ToSend M),
    rawOf crc32 (Sendable.outgoing packet) = packet.asRaw crc32
  outgoing_of_line : ∀ (outgoing : Outgoing) (packet : Packet ToSend M),
    lineOf outgoing = lineToSend Bodied.body packet →
    ∃ original : Packet ToSend M, outgoing = Sendable.outgoing original ∧
      original.message = packet.message

instance : Legible ConnectionRequest where
  rawOf_outgoing _ _ := rfl
  outgoing_of_line outgoing packet h := by
    have hbody := congrArg Line.body h
    cases outgoing with
    | connectionRequest original => exact ⟨original, rfl, Body.connectionRequest.inj hbody⟩
    | _ => contradiction

instance : Legible ConnectionAccepted where
  rawOf_outgoing _ _ := rfl
  outgoing_of_line outgoing packet h := by
    have hbody := congrArg Line.body h
    cases outgoing with
    | connectionAccepted original => exact ⟨original, rfl, Body.connectionAccepted.inj hbody⟩
    | _ => contradiction

instance : Legible DataTransfer where
  rawOf_outgoing _ _ := rfl
  outgoing_of_line outgoing packet h := by
    have hbody := congrArg Line.body h
    cases outgoing with
    | dataTransfer original => exact ⟨original, rfl, Body.dataTransfer.inj hbody⟩
    | _ => contradiction

instance : Legible Fragment where
  rawOf_outgoing _ _ := rfl
  outgoing_of_line outgoing packet h := by
    have hbody := congrArg Line.body h
    cases outgoing with
    | fragment original => exact ⟨original, rfl, Body.fragment.inj hbody⟩
    | _ => contradiction

instance : Legible Heartbeat where
  rawOf_outgoing _ _ := rfl
  outgoing_of_line outgoing packet h := by
    have hbody := congrArg Line.body h
    cases outgoing with
    | heartbeat original => exact ⟨original, rfl, Body.heartbeat.inj hbody⟩
    | _ => contradiction

variable {M : Type} [Sendable M] [Bodied M] [Legible M] {crc32 : Crc32}
  {packet original : Packet ToSend M}

omit [Legible M] in
theorem asRaw_congr (hline : lineToSend Bodied.body original = lineToSend Bodied.body packet)
    (hmessage : original.message = packet.message) :
    original.asRaw crc32 = packet.asRaw crc32 := by
  have haddress : original.delivery.metadata.address = packet.delivery.metadata.address :=
    congrArg Line.address hline
  have hsequence : original.sequence = packet.sequence := congrArg Line.sequence hline
  have hack : original.ack = packet.ack := congrArg Line.ack hline
  unfold Packet.asRaw Packet.datagram Packet.checksum Packet.hashed
  rw [haddress, hsequence, hack, hmessage]

/-- What has gone out is encoded, and goes back to a packet that went out from a queue. -/
structure Originals (crc32 : Crc32) (socket : List Transmission) : Prop where
  encoded : ∀ transmission ∈ socket, rawOf crc32 transmission.packet = .ok transmission.raw
  original : ∀ transmission ∈ socket, ∃ original ∈ socket, original.first = true ∧
    lineOf original.packet = lineOf transmission.packet

omit [Legible M] in
theorem Originals.append {socket : List Transmission} (originals : Originals crc32 socket)
    {transmission : Transmission} (hencoded : rawOf crc32 transmission.packet = .ok transmission.raw)
    (hbefore : transmission.first = true ∨
      ∃ old ∈ socket, lineOf old.packet = lineOf transmission.packet) :
    Originals crc32 (socket ++ [transmission]) where
  encoded := by
    intro other hmem
    rcases List.mem_append.mp hmem with hmem | hmem
    · exact originals.encoded other hmem
    · rw [List.mem_singleton.mp hmem]
      exact hencoded
  original := by
    intro other hmem
    rcases List.mem_append.mp hmem with hmem | hmem
    · obtain ⟨original, hold, hfirst⟩ := originals.original other hmem
      exact ⟨original, List.mem_append_left _ hold, hfirst⟩
    rw [List.mem_singleton.mp hmem]
    rcases hbefore with hfirst | ⟨old, hold, hline⟩
    · exact ⟨transmission, List.mem_append_right _ (List.mem_singleton_self _), hfirst, rfl⟩
    · obtain ⟨original, hmem, hfirst, hsame⟩ := originals.original old hold
      exact ⟨original, List.mem_append_left _ hmem, hfirst, hsame.trans hline⟩

def Repeats (socket : List Transmission) (packet : Packet ToSend M) : Prop :=
  ∃ old ∈ socket, lineOf old.packet = lineToSend Bodied.body packet

/-- The packet went out from a queue, under its delivery id and with its bytes. -/
def WasSent (crc32 : Crc32) (socket : List Transmission) (packet : Packet ToSend M) : Prop :=
  ∃ original : Packet ToSend M, ∃ raw, ⟨raw, Sendable.outgoing original, true⟩ ∈ socket ∧
    original.delivery.id = packet.delivery.id ∧ original.asRaw crc32 = .ok raw ∧
    packet.asRaw crc32 = .ok raw

theorem Originals.wasSent {socket : List Transmission} (originals : Originals crc32 socket)
    (h : Repeats socket packet) : WasSent crc32 socket packet := by
  obtain ⟨old, hold, hline⟩ := h
  obtain ⟨⟨raw, outgoing, first⟩, hmem, hfirst, hsame⟩ := originals.original old hold
  have hencoded := originals.encoded _ hmem
  dsimp only at hfirst hsame hencoded
  subst hfirst
  obtain ⟨original, rfl, hmessage⟩ := Legible.outgoing_of_line outgoing packet (hsame.trans hline)
  rw [Bodied.line_outgoing, hline] at hsame
  rw [Legible.rawOf_outgoing] at hencoded
  refine ⟨original, raw, hmem, congrArg Line.packetId hsame, hencoded, ?_⟩
  rw [← asRaw_congr hsame hmessage, hencoded]

end Wire

section Passes

variable {S R M : Type} [Sendable M] [Bodied M] [Legible M] {crc32 : Crc32}
  {net after : AntarcNet S}

theorem rawOf_datagram {packet : Packet ToSend M} (h : packet.checksum crc32 ≠ 0) :
    rawOf crc32 (Sendable.outgoing packet) = .ok (packet.datagram crc32) := by
  rw [Legible.rawOf_outgoing, Packet.asRaw_eq_ok]
  exact ⟨h, rfl⟩

theorem sendEach_originals {create : Protocol S → Scheduled R M → Duration → Exec (Packet ToSend M)}
    {account : Protocol S → Packet ToSend M → Duration → Exec (Protocol S)}
    {clock : Nat → Duration} {entries : List (Scheduled R M)}
    (originals : Originals crc32 net.socket)
    (h : AntarcNet.sendEach crc32 create account clock entries net = .ok after) :
    Originals crc32 after.socket := by
  induction entries generalizing net clock with
  | nil =>
    cases h
    exact originals
  | cons scheduled rest ih =>
    obtain ⟨middle, hturn, h⟩ := bind_eq_ok.mp h
    obtain ⟨packet, antarc, -, hchecksum, -, rfl⟩ := turn_eq_ok.mp hturn
    exact ih (originals.append (rawOf_datagram hchecksum) (.inl rfl)) h

theorem pollQueue_originals {drain : Protocol S → Exec (List (Scheduled R M) × Protocol S)}
    {create : Protocol S → Scheduled R M → Duration → Exec (Packet ToSend M)}
    {account : Protocol S → Packet ToSend M → Duration → Exec (Protocol S)}
    {clock : Nat → Duration} (originals : Originals crc32 net.socket)
    (h : AntarcNet.pollQueue crc32 drain create account clock net = .ok after) :
    Originals crc32 after.socket := by
  obtain ⟨⟨drained, antarc⟩, -, h⟩ := bind_eq_ok.mp h
  have hsocket : Originals crc32 ({ net with antarc := antarc } : AntarcNet S).socket := originals
  exact sendEach_originals hsocket h

theorem pollScheduled_originals {A B E : Type} [Service S A B E] [Queued R M] [Reliability R]
    [Carried M] {create : Protocol S → Scheduled R M → Duration → Exec (Packet ToSend M)}
    {clock : Nat → Duration} (originals : Originals crc32 net.socket)
    (h : AntarcNet.pollScheduled crc32 create clock net = .ok after) :
    Originals crc32 after.socket :=
  pollQueue_originals originals h

theorem pollStored_originals
    {retry : Protocol S → Duration → Exec (Option (Packet ToSend M) × Protocol S)}
    {account : Protocol S → Packet ToSend M → Duration → Exec (Protocol S)}
    {clock : Nat → Duration}
    (hretry : ∀ now packet antarc, retry net.antarc now = .ok (some packet, antarc) →
      Repeats net.socket packet)
    (originals : Originals crc32 net.socket)
    (h : AntarcNet.pollStored crc32 retry account clock net = .ok after) :
    Originals crc32 after.socket := by
  obtain ⟨⟨packet, antarc⟩, hretried, h⟩ := bind_eq_ok.mp h
  cases packet with
  | none =>
    cases h
    exact originals
  | some packet =>
    obtain ⟨old, hold, hline⟩ := hretry _ packet antarc (attempt_eq_ok.mp hretried)
    obtain ⟨sent, hsent, h⟩ := bind_eq_ok.mp h
    obtain ⟨hchecksum, rfl⟩ := transmit_eq_ok.mp hsent
    obtain ⟨accounted, -, h⟩ := bind_eq_ok.mp h
    cases h
    refine originals.append (rawOf_datagram hchecksum) (.inr ⟨old, hold, ?_⟩)
    rw [hline, Bodied.line_outgoing]

end Passes

section Stored

variable {S A B E : Type} [Service S A B E] [PeerTable S] {crc32 : Crc32} {policy : Policy}
  {numbering : Numbering SocketAddr PacketId} {now : Duration}

theorem Ledger.repeats_retry {M : Type} [Carried M] [Sendable M] [Bodied M] [Travels M]
    {net : AntarcNet S} (ledger : Ledger crc32 policy numbering net) {packet : Packet ToSend M}
    {antarc : Protocol S} (h : net.antarc.retry M now = .ok (some packet, antarc)) :
    Repeats net.socket packet := by
  obtain ⟨handler, hhandler, -⟩ := retry_frame h
  obtain ⟨-, hpacket, -⟩ := stored_retry hhandler
  exact ledger.stored _ (hpacket packet rfl)

theorem ClientSide.repeats_request {asked : List SocketAddr}
    {rest : List (Scheduled Reliable ConnectionRequest)} {net : AntarcNet Client}
    (side : ClientSide asked rest net) {packet : Packet ToSend ConnectionRequest}
    {antarc : Protocol Client}
    (h : net.antarc.resendReliableConnectionRequest now = .ok (some packet, antarc)) :
    Repeats net.socket packet := by
  obtain ⟨list, hlast, -⟩ := resend_frame h
  obtain ⟨-, hpacket⟩ := retryLast_cases hlast
  obtain ⟨sent, hsent, rfl⟩ := hpacket packet rfl
  exact side.stored sent hsent

theorem ServerSide.repeats_accept {registry : Registry SocketAddr}
    {rest : List (Scheduled Reliable ConnectionAccepted)} {net : AntarcNet Server}
    (side : ServerSide registry rest net) {packet : Packet ToSend ConnectionAccepted}
    {antarc : Protocol Server}
    (h : net.antarc.retryReliableConnectionAccepted now = .ok (some packet, antarc)) :
    Repeats net.socket packet := by
  obtain ⟨list, hlast, -⟩ := retryConnectionAccepted_frame h
  obtain ⟨-, hpacket⟩ := retryLast_cases hlast
  obtain ⟨sent, hsent, rfl⟩ := hpacket packet rfl
  exact side.stored sent hsent

end Stored

section Runs

variable {crc32 : Crc32}

theorem SharedPass.originals {S A B E : Type} [Service S A B E] [PeerTable S] {policy : Policy}
    {numbering : Numbering SocketAddr PacketId} {net after : AntarcNet S}
    (ledger : Ledger crc32 policy numbering net) (originals : Originals crc32 net.socket)
    (pass : SharedPass) (h : pass.run crc32 net = .ok after) :
    Originals crc32 after.socket := by
  cases pass with
  | schedule hash reliability sendTo payload now =>
    obtain ⟨_, hcall, rfl⟩ := map_eq_ok.mp h
    obtain ⟨_, -, hcall⟩ := bind_eq_ok.mp hcall
    cases hcall
    exact originals
  | heartbeat hash reliability sendTo now =>
    obtain ⟨_, hcall, rfl⟩ := map_eq_ok.mp h
    obtain ⟨_, -, hcall⟩ := bind_eq_ok.mp hcall
    cases hcall
    exact originals
  | unreliableDataTransfer clock => exact pollScheduled_originals originals h
  | reliableDataTransfer clock => exact pollScheduled_originals originals h
  | unreliableFragment clock => exact pollScheduled_originals originals h
  | reliableFragment clock => exact pollScheduled_originals originals h
  | unreliableHeartbeat clock => exact pollScheduled_originals originals h
  | reliableHeartbeat clock => exact pollScheduled_originals originals h
  | retryDataTransfer clock =>
    have hcall : AntarcNet.pollRetry DataTransfer crc32 clock net = .ok after := h
    exact pollStored_originals (fun _ _ _ => ledger.repeats_retry) originals hcall
  | retryFragment clock =>
    have hcall : AntarcNet.pollRetry Fragment crc32 clock net = .ok after := h
    exact pollStored_originals (fun _ _ _ => ledger.repeats_retry) originals hcall

theorem clientReceive_socket {net : AntarcNet Client} {received elapsed : Duration}
    {datagram : Option RawPacket} {result : List (ProtocolEvent ClientEvent) × AntarcNet Client}
    (h : net.clientReceive crc32 received elapsed datagram = .ok result) :
    result.2.socket = net.socket := by
  cases datagram with
  | none => contradiction
  | some raw =>
    obtain ⟨⟨outcome, antarc⟩, -, h⟩ := bind_eq_ok.mp h
    obtain ⟨⟨events, polled⟩, -, h⟩ := bind_eq_ok.mp h
    cases h
    cases outcome <;> rfl

theorem serverReceive_socket {net : AntarcNet Server} {hash : RandomState}
    {peerHash : ConnectionId → RandomState} {received elapsed now : Duration}
    {datagram : Option RawPacket} {result : List (ProtocolEvent ServerEvent) × AntarcNet Server}
    (h : net.serverReceive crc32 hash peerHash received elapsed now datagram = .ok result) :
    result.2.socket = net.socket := by
  cases datagram with
  | none => contradiction
  | some raw =>
    obtain ⟨⟨outcome, antarc⟩, -, h⟩ := bind_eq_ok.mp h
    obtain ⟨⟨events, polled⟩, -, h⟩ := bind_eq_ok.mp h
    cases h
    cases outcome <;> rfl

theorem ClientPass.originals {net after : AntarcNet Client} (hbooks : ClientInOrder crc32 net)
    (originals : Originals crc32 net.socket) (pass : ClientPass)
    (h : pass.run crc32 net = .ok after) : Originals crc32 after.socket := by
  obtain ⟨asked, numbering, ledger, -, -, side⟩ := hbooks
  cases pass with
  | shared pass => exact pass.originals ledger originals h
  | connect address now =>
    obtain ⟨_, hcall, rfl⟩ := map_eq_ok.mp h
    obtain ⟨_, -, hcall⟩ := bind_eq_ok.mp hcall
    cases hcall
    exact originals
  | connectionRequest clock =>
    have hcall : net.pollConnectionRequest crc32 clock = .ok after := h
    exact pollQueue_originals originals hcall
  | retryConnectionRequest clock =>
    exact pollStored_originals (fun _ _ _ => side.repeats_request) originals h
  | receive received elapsed datagram =>
    obtain ⟨_, hcall, rfl⟩ := map_eq_ok.mp h
    rw [clientReceive_socket hcall]
    exact originals

theorem ServerPass.originals {net after : AntarcNet Server} (hbooks : ServerInOrder crc32 net)
    (originals : Originals crc32 net.socket) (pass : ServerPass)
    (h : pass.run crc32 net = .ok after) : Originals crc32 after.socket := by
  obtain ⟨registry, numbering, ledger, -, -, side⟩ := hbooks
  cases pass with
  | shared pass => exact pass.originals ledger originals h
  | connectionAccepted clock =>
    have hcall : net.pollConnectionAccepted crc32 clock = .ok after := h
    exact pollQueue_originals originals hcall
  | retryConnectionAccepted clock =>
    exact pollStored_originals (fun _ _ _ => side.repeats_accept) originals h
  | receive hash peerHash received elapsed now datagram =>
    obtain ⟨_, hcall, rfl⟩ := map_eq_ok.mp h
    rw [serverReceive_socket hcall]
    exact originals

theorem originals_nil : Originals crc32 [] :=
  ⟨fun _ h => by contradiction, fun _ h => by contradiction⟩

theorem clientOriginals_of_passes {may : AntarcNet Client → ClientPass → Prop}
    {net : AntarcNet Client} (h : (clientPassRuns crc32 may).Reachable (.ok net)) :
    ClientInOrder crc32 net ∧ Originals crc32 net.socket := by
  refine holds_after_passes
    (?_ : ∀ net, _ → ClientInOrder crc32 net ∧ Originals crc32 net.socket) ?_ h
  · rintro _ ⟨address, rfl⟩
    exact ⟨clientInOrder_new address, originals_nil⟩
  · rintro net pass after ⟨hbooks, originals⟩ - hrun
    have hafter := pass.inOrder hbooks
    rw [hrun] at hafter
    exact ⟨hafter, pass.originals hbooks originals hrun⟩

theorem serverOriginals_of_passes {may : AntarcNet Server → ServerPass → Prop}
    {net : AntarcNet Server} (h : (serverPassRuns crc32 may).Reachable (.ok net)) :
    ServerInOrder crc32 net ∧ Originals crc32 net.socket := by
  refine holds_after_passes
    (?_ : ∀ net, _ → ServerInOrder crc32 net ∧ Originals crc32 net.socket) ?_ h
  · rintro _ ⟨address, reliableTtl, rfl⟩
    exact ⟨serverInOrder_new address reliableTtl, originals_nil⟩
  · rintro net pass after ⟨hbooks, originals⟩ - hrun
    have hafter := pass.inOrder hbooks
    rw [hrun] at hafter
    exact ⟨hafter, pass.originals hbooks originals hrun⟩

/-- Whatever a retry function returns, and whenever, went out before with the same bytes. -/
def RetriesAlike {S M : Type} [Sendable M] (crc32 : Crc32)
    (retry : Protocol S → Duration → Exec (Option (Packet ToSend M) × Protocol S))
    (net : AntarcNet S) : Prop :=
  ∀ now packet antarc, retry net.antarc now = .ok (some packet, antarc) →
    WasSent crc32 net.socket packet

/-- What any retry function returns after any run of a driver of either role is the packet
that was sent, with its delivery id, its address and its bytes. -/
theorem retransmissions_byte_identical (crc32 : Crc32) :
    (∀ net, (clientPassRuns crc32 anyPass).Reachable (.ok net) →
      RetriesAlike crc32 (Protocol.retry DataTransfer) net ∧
      RetriesAlike crc32 (Protocol.retry Fragment) net ∧
      RetriesAlike crc32 (Protocol.retry Heartbeat) net ∧
      RetriesAlike crc32 Protocol.resendReliableConnectionRequest net) ∧
    ∀ net, (serverPassRuns crc32 anyPass).Reachable (.ok net) →
      RetriesAlike crc32 (Protocol.retry DataTransfer) net ∧
      RetriesAlike crc32 (Protocol.retry Fragment) net ∧
      RetriesAlike crc32 (Protocol.retry Heartbeat) net ∧
      RetriesAlike crc32 Protocol.retryReliableConnectionAccepted net := by
  constructor
  · intro net h
    obtain ⟨⟨asked, numbering, ledger, -, -, side⟩, originals⟩ := clientOriginals_of_passes h
    exact ⟨fun _ _ _ hretry => originals.wasSent (ledger.repeats_retry hretry),
      fun _ _ _ hretry => originals.wasSent (ledger.repeats_retry hretry),
      fun _ _ _ hretry => originals.wasSent (ledger.repeats_retry hretry),
      fun _ _ _ hretry => originals.wasSent (side.repeats_request hretry)⟩
  · intro net h
    obtain ⟨⟨registry, numbering, ledger, -, -, side⟩, originals⟩ := serverOriginals_of_passes h
    exact ⟨fun _ _ _ hretry => originals.wasSent (ledger.repeats_retry hretry),
      fun _ _ _ hretry => originals.wasSent (ledger.repeats_retry hretry),
      fun _ _ _ hretry => originals.wasSent (ledger.repeats_retry hretry),
      fun _ _ _ hretry => originals.wasSent (side.repeats_accept hretry)⟩

def lateRequest : Packet ToSend ConnectionRequest :=
  (Scheduled.connectionRequest 0 (.v4 0 0) .zero).intoPacket .one 0 (.fromSecs 600)

def askedPeer : Peer RequestingConnection :=
  { Peer.new .zero (.v4 0 0) 0 with sequenceTracker := .two }

def lateClient : AntarcNet Client where
  antarc :=
    let drained := { askedRun.net.antarc.service with scheduler := Client.new.scheduler }
    ⟨1, requested drained lateRequest askedPeer (.fromSecs 600) (.fromSecs 2), .fromSecs 2⟩
  address := .v4 1 1
  socket := [⟨lateRequest.datagram ieeeCrc32, .connectionRequest lateRequest, true⟩]

set_option maxRecDepth 4000 in
theorem lateClient_reachable : (clientPassRuns ieeeCrc32 anyPass).Reachable (.ok lateClient) := by
  have hasked : (clientPassRuns ieeeCrc32 anyPass).Reachable (.ok askedRun.net) :=
    .next (.start ⟨_, ⟨.v4 1 1, rfl⟩, rfl⟩) ⟨_, rfl, .connect (.v4 0 0) .zero, trivial, rfl⟩
  exact hasked.next ⟨_, rfl, .connectionRequest fun _ => .fromSecs 600, trivial, rfl⟩

theorem lateRequest_alike : ∃ packet antarc,
    lateClient.antarc.resendReliableConnectionRequest (.fromSecs 600) = .ok (some packet, antarc) ∧
      WasSent ieeeCrc32 lateClient.socket packet :=
  ⟨lateRequest, _, rfl, ((retransmissions_byte_identical ieeeCrc32).1 lateClient
    lateClient_reachable).2.2.2 (.fromSecs 600) lateRequest _ rfl⟩

end Runs

end Antarc.Properties
