import Antarc.Properties.Reassemblers
import Antarc.Properties.Sequences

/-! A driver touches its protocol only by calling it. The send half of a poll is a run of the
calls that receive nothing, so what each of these calls keeps, the half keeps. -/
namespace Antarc.Properties

open Library

section Works

variable {S A B E : Type} [Service S A B E] {crc32 : Crc32} {net after : AntarcNet S}

def Works (work : Protocol S → Option Duration → Protocol S → Prop) :
    Protocol S → Protocol S → Prop :=
  Relation.ReflTransGen fun before after => ∃ kept, work before kept after

variable {work : Protocol S → Option Duration → Protocol S → Prop}
  (hcommon : ∀ before kept after, CommonWork before kept after → work before kept after)

theorem Works.keeps (inv : Protocol S → Prop)
    (hwork : ∀ before kept after, inv before → work before kept after → inv after)
    {before after : Protocol S} (h : Works work before after) (hinv : inv before) : inv after := by
  induction h with
  | refl => exact hinv
  | tail _ hlast ih =>
    obtain ⟨kept, hlast⟩ := hlast
    exact hwork _ _ _ ih hlast

include hcommon in
theorem works_pollScheduled {R M : Type} [Queued R M] [Reliability R] [Carried M] [Expires M]
    [Sendable M] {create : Protocol S → Scheduled R M → Duration → Exec (Packet ToSend M)}
    {clock : Nat → Duration} (h : AntarcNet.pollScheduled crc32 create clock net = .ok after) :
    Works work net.antarc after.antarc := by
  refine pollQueue_keeps (Works work net.antarc) ?_ ?_ .refl h
  · intro protocol packet now next hworks hsent
    exact hworks.tail ⟨_, hcommon _ _ _ (.sent M packet _ now next hsent)⟩
  · intro protocol drained next hworks hdrain
    exact hworks.tail ⟨_, hcommon _ _ _ (.drain R M _ _ drained next hdrain)⟩

include hcommon in
theorem works_pollRetry {M : Type} [Carried M] [Expires M] [Sendable M] {clock : Nat → Duration}
    (h : AntarcNet.pollRetry M crc32 clock net = .ok after) :
    Works work net.antarc after.antarc := by
  refine pollStored_keeps (Works work net.antarc) ?_ ?_ .refl h
  · intro protocol packet now next hworks hsent
    exact hworks.tail ⟨_, hcommon _ _ _ (.sent M packet _ now next hsent)⟩
  · intro protocol now packet next hworks hretry
    exact hworks.tail ⟨_, hcommon _ _ _ (.retry M now packet next hretry)⟩

include hcommon in
theorem works_pollCarried {clock : Clock} {pass : Nat}
    (h : net.pollCarried crc32 clock pass = .ok after) : Works work net.antarc after.antarc := by
  obtain ⟨_, hfirst, h⟩ := bind_eq_ok.mp h
  obtain ⟨_, hsecond, h⟩ := bind_eq_ok.mp h
  obtain ⟨_, hthird, h⟩ := bind_eq_ok.mp h
  obtain ⟨_, hfourth, h⟩ := bind_eq_ok.mp h
  obtain ⟨_, hfifth, h⟩ := bind_eq_ok.mp h
  have hworks := works_pollScheduled hcommon hfirst
  replace hworks := hworks.trans (works_pollScheduled hcommon hsecond)
  replace hworks := hworks.trans (works_pollScheduled hcommon hthird)
  replace hworks := hworks.trans (works_pollScheduled hcommon hfourth)
  replace hworks := hworks.trans (works_pollScheduled hcommon hfifth)
  exact hworks.trans (works_pollScheduled hcommon h)

include hcommon in
theorem works_carriedDrive (h : CarriedDrive net (.ok after)) :
    (∃ kept, work net.antarc kept after.antarc) ∧ after.socket = net.socket := by
  generalize houtcome : (Except.ok after : Drive (AntarcNet S)) = outcome at h
  cases h with
  | schedule hash reliability sendTo payload now =>
    obtain ⟨⟨result, _⟩, hcall, rfl⟩ := map_eq_ok.mp houtcome.symm
    obtain ⟨⟨_, antarc⟩, hschedule, hcall⟩ := bind_eq_ok.mp hcall
    cases hcall
    exact ⟨⟨_, hcommon _ _ _ (.schedule hash reliability sendTo payload now result antarc
      (attempt_eq_ok.mp hschedule))⟩, rfl⟩
  | heartbeat hash reliability sendTo now =>
    obtain ⟨⟨result, _⟩, hcall, rfl⟩ := map_eq_ok.mp houtcome.symm
    obtain ⟨⟨_, antarc⟩, hheartbeat, hcall⟩ := bind_eq_ok.mp hcall
    cases hcall
    exact ⟨⟨_, hcommon _ _ _ (.heartbeat hash reliability sendTo now result antarc
      (attempt_eq_ok.mp hheartbeat))⟩, rfl⟩

end Works

section Sockets

variable {S R M : Type} [Sendable M] {crc32 : Crc32} {net after : AntarcNet S}
  {create : Protocol S → Scheduled R M → Duration → Exec (Packet ToSend M)}
  {account : Protocol S → Packet ToSend M → Duration → Exec (Protocol S)}
  {clock : Nat → Duration}

theorem grows_sendEach {entries : List (Scheduled R M)}
    (h : AntarcNet.sendEach crc32 create account clock entries net = .ok after) :
    net.socket <+: after.socket := by
  induction entries generalizing net clock with
  | nil =>
    cases h
    exact List.prefix_rfl
  | cons scheduled rest ih =>
    obtain ⟨middle, hturn, h⟩ := bind_eq_ok.mp h
    obtain ⟨packet, antarc, -, -, -, rfl⟩ := turn_eq_ok.mp hturn
    exact (List.prefix_append _ _).trans (ih h)

theorem grows_pollQueue {drain : Protocol S → Exec (List (Scheduled R M) × Protocol S)}
    (h : AntarcNet.pollQueue crc32 drain create account clock net = .ok after) :
    net.socket <+: after.socket := by
  obtain ⟨⟨drained, antarc⟩, -, h⟩ := bind_eq_ok.mp h
  exact (grows_sendEach h :)

theorem grows_pollStored
    {retry : Protocol S → Duration → Exec (Option (Packet ToSend M) × Protocol S)}
    (h : AntarcNet.pollStored crc32 retry account clock net = .ok after) :
    net.socket <+: after.socket := by
  obtain ⟨⟨packet, antarc⟩, -, h⟩ := bind_eq_ok.mp h
  cases packet with
  | none =>
    cases h
    exact List.prefix_rfl
  | some packet =>
    obtain ⟨sent, hsent, h⟩ := bind_eq_ok.mp h
    obtain ⟨_, -, h⟩ := bind_eq_ok.mp h
    cases h
    obtain ⟨-, rfl⟩ := transmit_eq_ok.mp hsent
    exact List.prefix_append _ _

theorem grows_pollRetry {A B E : Type} [Service S A B E] [Carried M]
    (h : AntarcNet.pollRetry M crc32 clock net = .ok after) : net.socket <+: after.socket :=
  grows_pollStored h

theorem grows_pollCarried {A B E : Type} [Service S A B E] {clock : Clock} {pass : Nat}
    (h : net.pollCarried crc32 clock pass = .ok after) : net.socket <+: after.socket := by
  obtain ⟨_, hfirst, h⟩ := bind_eq_ok.mp h
  obtain ⟨_, hsecond, h⟩ := bind_eq_ok.mp h
  obtain ⟨_, hthird, h⟩ := bind_eq_ok.mp h
  obtain ⟨_, hfourth, h⟩ := bind_eq_ok.mp h
  obtain ⟨_, hfifth, h⟩ := bind_eq_ok.mp h
  have hgrows := (grows_pollQueue hfirst).trans (grows_pollQueue hsecond)
  replace hgrows := hgrows.trans (grows_pollQueue hthird)
  replace hgrows := hgrows.trans (grows_pollQueue hfourth)
  exact (hgrows.trans (grows_pollQueue hfifth)).trans (grows_pollQueue h)

theorem grows_clientSend {net after : AntarcNet Client} {clock : Clock}
    (h : net.clientSend crc32 clock = .ok after) : net.socket <+: after.socket := by
  obtain ⟨_, hresend, h⟩ := bind_eq_ok.mp h
  obtain ⟨_, hretry, h⟩ := bind_eq_ok.mp h
  obtain ⟨_, hrequests, h⟩ := bind_eq_ok.mp h
  have hgrows := (grows_pollStored hresend).trans (grows_pollRetry hretry)
  exact (hgrows.trans (grows_pollQueue hrequests)).trans (grows_pollCarried h)

theorem grows_serverSend {net after : AntarcNet Server} {clock : Clock}
    (h : net.serverSend crc32 clock = .ok after) : net.socket <+: after.socket := by
  obtain ⟨_, hresend, h⟩ := bind_eq_ok.mp h
  obtain ⟨_, hretry, h⟩ := bind_eq_ok.mp h
  obtain ⟨_, hretryFragment, h⟩ := bind_eq_ok.mp h
  obtain ⟨_, haccepts, h⟩ := bind_eq_ok.mp h
  have hgrows := (grows_pollStored hresend).trans (grows_pollRetry hretry)
  replace hgrows := hgrows.trans (grows_pollRetry hretryFragment)
  exact (hgrows.trans (grows_pollQueue haccepts)).trans (grows_pollCarried h)

end Sockets

section Client

variable {crc32 : Crc32} {net after : AntarcNet Client} {clock : Clock}

theorem works_connect {address : SocketAddr} {now : Duration} {result : Result Unit}
    (h : net.connect address now = .ok (result, after)) :
    ClientWork net.antarc none after.antarc ∧ after.socket = net.socket := by
  obtain ⟨⟨_, antarc⟩, hconnect, h⟩ := bind_eq_ok.mp h
  cases h
  exact ⟨.connect address now result antarc (attempt_eq_ok.mp hconnect), rfl⟩

theorem works_clientSend (h : net.clientSend crc32 clock = .ok after) :
    Works ClientWork net.antarc after.antarc := by
  have hcommon : ∀ before kept after, CommonWork before kept after →
      ClientWork before kept after := fun _ _ _ => .common
  have haccount : ∀ start protocol packet now next, Works ClientWork start protocol →
      protocol.sentConnectionRequest packet now = .ok next → Works ClientWork start next :=
    fun _ _ packet now next hworks hsent =>
      hworks.tail ⟨_, .sentConnectionRequest packet now next hsent⟩
  obtain ⟨_, hresend, h⟩ := bind_eq_ok.mp h
  obtain ⟨_, hretry, h⟩ := bind_eq_ok.mp h
  obtain ⟨_, hrequests, h⟩ := bind_eq_ok.mp h
  have hresent := pollStored_keeps (Works ClientWork net.antarc) (haccount _)
    (fun _ now packet next hworks hcall =>
      hworks.tail ⟨_, .resendConnectionRequest now packet next hcall⟩) .refl hresend
  have hretried := hresent.trans (works_pollRetry hcommon hretry)
  have hrequested := pollQueue_keeps (Works ClientWork net.antarc) (haccount _)
    (fun _ drained next hworks hcall =>
      hworks.tail ⟨_, .drainConnectionRequest _ _ drained next hcall⟩) hretried hrequests
  exact hrequested.trans (works_pollCarried hcommon h)

theorem clientReceive_calls {received elapsed : Duration} {raw : RawPacket}
    {events : List (ProtocolEvent ClientEvent)}
    (h : net.clientReceive crc32 received elapsed (some raw) = .ok (events, after)) :
    ∃ outcome heard,
      net.antarc.clientReceived crc32 raw received = .ok (outcome, heard) ∧
      (AntarcNet.report outcome { net with antarc := heard }).antarc.clientPoll elapsed =
        .ok (events, after.antarc) ∧ after.socket = net.socket := by
  obtain ⟨⟨outcome, heard⟩, hreceived, h⟩ := bind_eq_ok.mp h
  obtain ⟨⟨_, polled⟩, hpolled, h⟩ := bind_eq_ok.mp h
  cases h
  refine ⟨outcome, heard, attempt_eq_ok.mp hreceived, attempt_eq_ok.mp hpolled, ?_⟩
  cases outcome <;> rfl

end Client

section Server

variable {crc32 : Crc32} {net after : AntarcNet Server} {clock : Clock}

theorem works_serverSend (h : net.serverSend crc32 clock = .ok after) :
    Works ServerWork net.antarc after.antarc := by
  have hcommon : ∀ before kept after, CommonWork before kept after →
      ServerWork before kept after := fun _ _ _ => .common
  have haccount : ∀ start protocol packet now next, Works ServerWork start protocol →
      protocol.sentConnectionAccepted packet now = .ok next → Works ServerWork start next :=
    fun _ _ packet now next hworks hsent =>
      hworks.tail ⟨_, .sentConnectionAccepted packet now next hsent⟩
  obtain ⟨_, hresend, h⟩ := bind_eq_ok.mp h
  obtain ⟨_, hretry, h⟩ := bind_eq_ok.mp h
  obtain ⟨_, hretryFragment, h⟩ := bind_eq_ok.mp h
  obtain ⟨_, haccepts, h⟩ := bind_eq_ok.mp h
  have hresent := pollStored_keeps (Works ServerWork net.antarc) (haccount _)
    (fun _ now packet next hworks hcall =>
      hworks.tail ⟨_, .retryConnectionAccepted now packet next hcall⟩) .refl hresend
  have hretried := hresent.trans (works_pollRetry hcommon hretry)
  replace hretried := hretried.trans (works_pollRetry hcommon hretryFragment)
  have haccepted := pollQueue_keeps (Works ServerWork net.antarc) (haccount _)
    (fun _ drained next hworks hcall =>
      hworks.tail ⟨_, .drainConnectionAccepted _ _ drained next hcall⟩) hretried haccepts
  exact haccepted.trans (works_pollCarried hcommon h)

theorem serverReceive_calls {hash : RandomState} {peerHash : ConnectionId → RandomState}
    {received elapsed now : Duration} {raw : RawPacket}
    {events : List (ProtocolEvent ServerEvent)}
    (h : net.serverReceive crc32 hash peerHash received elapsed now (some raw) =
      .ok (events, after)) :
    ∃ outcome heard,
      net.antarc.serverReceived crc32 hash raw received = .ok (outcome, heard) ∧
      (AntarcNet.report outcome { net with antarc := heard }).antarc.serverPoll hash peerHash
        elapsed now = .ok (events, after.antarc) ∧ after.socket = net.socket := by
  obtain ⟨⟨outcome, heard⟩, hreceived, h⟩ := bind_eq_ok.mp h
  obtain ⟨⟨_, polled⟩, hpolled, h⟩ := bind_eq_ok.mp h
  cases h
  refine ⟨outcome, heard, attempt_eq_ok.mp hreceived, attempt_eq_ok.mp hpolled, ?_⟩
  cases outcome <;> rfl

end Server

end Antarc.Properties
