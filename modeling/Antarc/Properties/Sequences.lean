import Antarc.Properties.ClientRuns
import Antarc.Properties.ServerBooks

/-! No sequence is used for two packets, whatever a driver receives, is asked to send or
sends again. A run goes on from state to state until a call panics; what the socket
was handed in that call counts as sent. -/
namespace Antarc.Properties

open Library

/-- The sequence that a datagram carries in its first four bytes. -/
def wireSequence (raw : RawPacket) : Nat :=
  (u32.decode (raw.bytes.take 4)).toNat

def packetIdOf (transmission : Transmission) : PacketId :=
  (lineOf transmission.packet).packetId

/-- Two datagrams to one address under one sequence are of one packet, and the first
transmissions to an address never go back to a smaller sequence. -/
structure SequencesNeverReused (socket : List Transmission) : Prop where
  single : ∀ transmission ∈ socket, ∀ other ∈ socket,
    transmission.raw.address = other.raw.address →
    wireSequence transmission.raw = wireSequence other.raw →
    packetIdOf transmission = packetIdOf other
  ordered : ∀ address, (socket.filter fun transmission =>
      transmission.first && decide (transmission.raw.address = address)).Pairwise
    fun earlier later => wireSequence earlier.raw ≤ wireSequence later.raw

section Wire

variable {crc32 : Crc32}

theorem wireSequence_datagram [Message M] (packet : Packet ToSend M) :
    wireSequence (packet.datagram crc32) = packet.sequence.get.toNat := by
  have htake : (packet.datagram crc32).bytes.take 4 = u32.encode packet.sequence.get := by
    rw [Packet.datagram_bytes, List.append_assoc, List.append_assoc]
    exact List.take_left' (u32.length_encode _)
  rw [wireSequence, htake, u32.decode_encode]

theorem datagramOf_line (packet : Outgoing) :
    (datagramOf crc32 packet).address = (lineOf packet).address ∧
      wireSequence (datagramOf crc32 packet) = (lineOf packet).sequence.get.toNat := by
  cases packet with
  | connectionRequest packet => exact ⟨rfl, wireSequence_datagram packet⟩
  | connectionAccepted packet => exact ⟨rfl, wireSequence_datagram packet⟩
  | dataTransfer packet => exact ⟨rfl, wireSequence_datagram packet⟩
  | fragment packet => exact ⟨rfl, wireSequence_datagram packet⟩
  | heartbeat packet => exact ⟨rfl, wireSequence_datagram packet⟩

theorem Recorded.neverReused {socket : List Transmission} (h : Recorded crc32 socket) :
    SequencesNeverReused socket := by
  obtain ⟨⟨numbering, hrun, hlog⟩, hencoded⟩ := h
  have hnever := (Numbering.Sound.of_reachable hrun).neverReused
  rw [hlog] at hnever
  have hwire : ∀ transmission ∈ socket,
      transmission.raw.address = (sendingOf transmission).address ∧
        wireSequence transmission.raw = (sendingOf transmission).number := by
    intro transmission hmem
    rw [hencoded transmission hmem]
    exact datagramOf_line transmission.packet
  refine ⟨?_, ?_⟩
  · intro transmission hmem other hmem' haddress hsequence
    rw [(hwire transmission hmem).1, (hwire other hmem').1] at haddress
    rw [(hwire transmission hmem).2, (hwire other hmem').2] at hsequence
    exact hnever.single _ (List.mem_map_of_mem hmem) _ (List.mem_map_of_mem hmem') haddress hsequence
  · intro address
    have hordered := hnever.ordered
    rw [List.filter_map, List.pairwise_map] at hordered
    have hthere := hordered.filter fun transmission => decide (transmission.raw.address = address)
    rw [List.filter_filter] at hthere
    have hswap : (fun transmission : Transmission =>
        transmission.first && decide (transmission.raw.address = address)) =
        fun transmission => decide (transmission.raw.address = address) && transmission.first :=
      funext fun _ => Bool.and_comm _ _
    rw [hswap]
    apply hthere.imp_of_mem
    intro earlier later hearlier hlater hle
    obtain ⟨hmem, hat⟩ := List.mem_filter.mp hearlier
    obtain ⟨hmem', hat'⟩ := List.mem_filter.mp hlater
    have haddress := of_decide_eq_true (Bool.and_eq_true_iff.mp hat).1
    have haddress' := of_decide_eq_true (Bool.and_eq_true_iff.mp hat').1
    rw [(hwire earlier hmem).2, (hwire later hmem').2]
    apply hle
    rw [← (hwire earlier hmem).1, ← (hwire later hmem').1, haddress, haddress']

end Wire

section Drivers

/-- What the socket was handed in a run, whether it goes on or was ended by a panic. -/
def sentBy : Drive (AntarcNet S) → List Transmission
  | .ok net => net.socket
  | .error stopped => stopped.socket

/-- The calls on a client's driver. Any datagram may be received, from anyone. -/
inductive ClientDrive (crc32 : Crc32) (net : AntarcNet Client) :
    Drive (AntarcNet Client) → Prop where
  | carried (outcome : Drive (AntarcNet Client)) (call : CarriedDrive net outcome) :
      ClientDrive crc32 net outcome
  | connect (address : SocketAddr) (now : Duration) :
      ClientDrive crc32 net (Prod.snd <$> net.connect address now)
  | poll (clock : Clock) (datagram : Option RawPacket) :
      ClientDrive crc32 net (Prod.snd <$> net.clientPoll crc32 clock datagram)

inductive ServerDrive (crc32 : Crc32) (net : AntarcNet Server) :
    Drive (AntarcNet Server) → Prop where
  | carried (outcome : Drive (AntarcNet Server)) (call : CarriedDrive net outcome) :
      ServerDrive crc32 net outcome
  | poll (hash : RandomState) (peerHash : ConnectionId → RandomState) (clock : Clock)
      (datagram : Option RawPacket) :
      ServerDrive crc32 net (Prod.snd <$> net.serverPoll crc32 hash peerHash clock datagram)

/-- A run goes on with a call for as long as no call has panicked. -/
def driverRuns (start : AntarcNet S → Prop) (call : AntarcNet S → Drive (AntarcNet S) → Prop) :
    Machine (Drive (AntarcNet S)) where
  init run := ∃ net, start net ∧ run = .ok net
  step run next := ∃ net, run = .ok net ∧ call net next

def clientDriverRuns (crc32 : Crc32) : Machine (Drive (AntarcNet Client)) :=
  driverRuns (fun net => ∃ address, net = .newClient address) (ClientDrive crc32)

def serverDriverRuns (crc32 : Crc32) : Machine (Drive (AntarcNet Server)) :=
  driverRuns (fun net => ∃ address reliableTtl, net = .newServer address reliableTtl)
    (ServerDrive crc32)

section Runs

variable {S A B E : Type} [Service S A B E] [PeerTable S] {crc32 : Crc32} {policy : Policy}
  {start : Numbering SocketAddr PacketId} {side : AntarcNet S → Prop} {net : AntarcNet S}

theorem Books.carriedDrive (books : Books crc32 policy start side net)
    (stable : Stable crc32 policy side) {outcome : Drive (AntarcNet S)}
    (h : CarriedDrive net outcome) :
    Ensures (Books crc32 policy start side) (Stands crc32) outcome := by
  cases h with
  | schedule hash reliability sendTo payload now =>
    apply Ensures.map
    apply (books.attempt fun result => books.schedule stable).bind
    exact fun _ h => h
  | heartbeat hash reliability sendTo now =>
    apply Ensures.map
    apply (books.attempt fun result => books.heartbeat stable).bind
    exact fun _ h => h

theorem ensures_of_reachable {starts : AntarcNet S → Prop}
    {call : AntarcNet S → Drive (AntarcNet S) → Prop} {inv : AntarcNet S → Prop}
    {stopped : Stopped → Prop} (base : ∀ net, starts net → inv net)
    (keep : ∀ net outcome, inv net → call net outcome → Ensures inv stopped outcome)
    {outcome : Drive (AntarcNet S)} (h : (driverRuns starts call).Reachable outcome) :
    Ensures inv stopped outcome := by
  refine h.invariant (Ensures inv stopped) ?_ ?_
  · rintro _ ⟨net, hstart, rfl⟩
    exact base net hstart
  · rintro _ next - hinv ⟨net, rfl, hcall⟩
    exact keep net next hinv hcall

def inTurn (calls : List (AntarcNet S → Drive (AntarcNet S))) (net : AntarcNet S) :
    Drive (AntarcNet S) :=
  calls.foldlM (fun net call => call net) net

theorem reachable_inTurn {starts : AntarcNet S → Prop}
    {may : AntarcNet S → Drive (AntarcNet S) → Prop}
    {calls : List (AntarcNet S → Drive (AntarcNet S))}
    (hcalls : ∀ call ∈ calls, ∀ net, may net (call net))
    (h : (driverRuns starts may).Reachable (.ok net)) :
    (driverRuns starts may).Reachable (inTurn calls net) := by
  induction calls generalizing net with
  | nil => exact h
  | cons call rest ih =>
    obtain ⟨hcall, hrest⟩ := List.forall_mem_cons.mp hcalls
    have hnext := h.next ⟨net, rfl, hcall net⟩
    unfold inTurn
    rw [List.foldlM_cons]
    cases houtcome : call net with
    | error stopped =>
      rw [houtcome] at hnext
      exact hnext
    | ok after =>
      rw [houtcome] at hnext
      exact ih hrest hnext

theorem Books.connectDrive {net : AntarcNet Client} {asked : List SocketAddr}
    (books : Books crc32 .none .start (ClientSide asked []) net) (address : SocketAddr)
    (now : Duration) :
    Ensures (fun net => ∃ asked, Books crc32 .none .start (ClientSide asked []) net) (Stands crc32)
      (Prod.snd <$> net.connect address now) := by
  apply Ensures.map
  unfold AntarcNet.connect AntarcNet.forward
  have hconnect : ∀ result, net.antarc.connect address now = .ok result →
      ∃ asked, Books crc32 .none .start (ClientSide asked []) { net with antarc := result.2 } := by
    intro result h
    rcases books.connect trivial h with ⟨error, -, hsame⟩ | ⟨-, hbooks⟩
    · rw [hsame]
      exact ⟨asked, books⟩
    · exact ⟨_, hbooks⟩
  apply (books.attempt hconnect).bind
  exact fun _ h => h

theorem clientBooks_of_reachable {outcome : Drive (AntarcNet Client)}
    (h : (clientDriverRuns crc32).Reachable outcome) :
    Ensures (fun net => ∃ asked, Books crc32 .none .start (ClientSide asked []) net) (Stands crc32)
      outcome := by
  refine ensures_of_reachable ?_ ?_ h
  · rintro _ ⟨address, rfl⟩
    exact ⟨[], books_newClient crc32 .none address⟩
  rintro net outcome ⟨asked, books⟩ hcall
  have stable := stable_clientSide crc32 .none asked []
  cases hcall with
  | carried outcome call => exact (books.carriedDrive stable call).mono fun _ h => ⟨asked, h⟩
  | connect address now => exact books.connectDrive address now
  | poll clock datagram =>
    apply Ensures.map
    unfold AntarcNet.clientPoll
    apply (preserves_clientSend clock net books).bind
    intro net books
    apply (books.clientReceive _ _ datagram ?_).mono
    · exact fun result h => ⟨asked, h⟩
    · exact fun _ _ _ _ => ⟨fun _ _ _ _ => trivial, trivial⟩

theorem serverBooks_of_reachable {outcome : Drive (AntarcNet Server)}
    (h : (serverDriverRuns crc32).Reachable outcome) :
    Ensures (fun net => ∃ registry, Books crc32 .none .start (ServerSide registry []) net)
      (Stands crc32) outcome := by
  refine ensures_of_reachable ?_ ?_ h
  · rintro _ ⟨address, reliableTtl, rfl⟩
    exact ⟨.empty, books_newServer crc32 .none address reliableTtl⟩
  rintro net outcome ⟨registry, books⟩ hcall
  have stable := stable_serverSide crc32 .none registry []
  cases hcall with
  | carried outcome call => exact (books.carriedDrive stable call).mono fun _ h => ⟨registry, h⟩
  | poll hash peerHash clock datagram =>
    apply Ensures.map
    unfold AntarcNet.serverPoll
    apply (preserves_serverSend clock net books).bind
    intro net books
    apply (books.serverReceive hash peerHash _ _ _ datagram ?_).mono
    · exact fun result ⟨later, _, h⟩ => ⟨later, h⟩
    · exact fun _ _ _ _ => ⟨fun _ _ _ _ _ _ => ⟨trivial, trivial⟩, fun _ _ => trivial⟩

theorem recorded_sentBy {inv : AntarcNet S → Prop}
    (hinv : ∀ net, inv net → Recorded crc32 net.socket) {outcome : Drive (AntarcNet S)}
    (h : Ensures inv (Stands crc32) outcome) : Recorded crc32 (sentBy outcome) := by
  cases outcome with
  | ok net => exact hinv net h
  | error stopped => exact h

/-- Whatever a driver of either role has sent in a run, it has not reused a sequence. -/
theorem sequences_never_reused (crc32 : Crc32) :
    (∀ outcome, (clientDriverRuns crc32).Reachable outcome →
      SequencesNeverReused (sentBy outcome)) ∧
    ∀ outcome, (serverDriverRuns crc32).Reachable outcome →
      SequencesNeverReused (sentBy outcome) := by
  constructor
  · intro outcome h
    refine (recorded_sentBy ?_ (clientBooks_of_reachable h)).neverReused
    exact fun net ⟨_, books⟩ => books.recorded
  · intro outcome h
    refine (recorded_sentBy ?_ (serverBooks_of_reachable h)).neverReused
    exact fun net ⟨_, books⟩ => books.recorded

/-- The calls of a client that connects, schedules three payloads, the last of them for two
fragments, and is polled again when what it has sent is old enough to be sent once more. -/
def busyCalls (hash : RandomState) : List (AntarcNet Client → Drive (AntarcNet Client)) :=
  let accept := some (fromServer answeringAccept)
  let schedule payload := fun net : AntarcNet Client =>
    Prod.snd <$> net.schedule hash .reliable (.single .one) payload .zero
  let poll elapsed datagram := fun net : AntarcNet Client =>
    Prod.snd <$> net.clientPoll ieeeCrc32 (fun _ _ => elapsed) datagram
  [fun net => Prod.snd <$> net.connect (.v4 0 0) .zero, poll .zero accept, schedule [1, 2, 3],
    schedule [4, 5, 6], schedule (List.replicate 1484 7), poll (.fromSecs 600) accept,
    poll (.fromSecs 600) none]

theorem busyCalls_drive (hash : RandomState) :
    ∀ call ∈ busyCalls hash, ∀ net, ClientDrive ieeeCrc32 net (call net) := by
  simp only [busyCalls, List.forall_mem_cons, List.not_mem_nil, false_imp_iff, implies_true,
    and_true]
  refine ⟨?_, ?_, ?_, ?_, ?_, ?_, ?_⟩ <;> intro net
  · exact .connect _ _
  · exact .poll _ _
  · exact .carried _ (.schedule _ _ _ _ _)
  · exact .carried _ (.schedule _ _ _ _ _)
  · exact .carried _ (.schedule _ _ _ _ _)
  · exact .poll _ _
  · exact .poll _ _

def busyRun (hash : RandomState) : Drive (AntarcNet Client) :=
  inTurn (busyCalls hash) (.newClient (.v4 1 1))

set_option maxRecDepth 20000 in
/-- That client sends a request, two transfers, the two fragments of one packet, and the last
of the transfers again: one number after the other but for what belongs to one packet. -/
theorem busyRun_neverReused :
    (sentBy (busyRun (Classical.arbitrary RandomState))).map
        (fun transmission => (packetIdOf transmission, wireSequence transmission.raw,
          transmission.first)) =
      [(0, 1, true), (1, 2, true), (2, 3, true), (3, 4, true), (3, 4, true), (2, 3, false)] ∧
    SequencesNeverReused (sentBy (busyRun (Classical.arbitrary RandomState))) :=
  ⟨by decide +kernel, (sequences_never_reused ieeeCrc32).1 _
    (reachable_inTurn (busyCalls_drive _) (.start ⟨_, ⟨_, rfl⟩, rfl⟩))⟩

end Runs

end Drivers

end Antarc.Properties
