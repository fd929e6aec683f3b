import Antarc.Properties.Accepts
import Antarc.Properties.Assemblies
import Antarc.Properties.Driving

/-! The calls that the library says never fail. Each of its `expect`s looks something up that an
earlier step of the same driver has put there, and in the order in which a driver makes its
calls it is still there. What stops a driver is arithmetic, a bad datagram, or no datagram. -/
namespace Antarc.Properties

open Library

section Rules

variable {α β : Type} {call : Exec α} {next : α → Exec β}

theorem ExpectsHold.bind (h : ExpectsHold call)
    (hnext : ∀ value, call = .ok value → ExpectsHold (next value)) :
    ExpectsHold (call >>= next) := by
  intro message hfails
  rcases bind_eq_error.mp hfails with hcall | ⟨value, hvalue, hrest⟩
  · exact h message hcall
  · exact hnext value hvalue message hrest

theorem expectsHold_ok (value : α) : ExpectsHold (.ok value) := by
  intro message h
  contradiction

theorem expectsHold_of_returns {returned : α → Prop} (h : Returns returned call) :
    ExpectsHold call := by
  obtain ⟨value, rfl, -⟩ := returns_iff.mp h
  exact expectsHold_ok value

theorem expectsHold_ite {condition : Prop} [Decidable condition] (value : α) {panic : Panic}
    (hpanic : ∀ message, panic ≠ .expect message) :
    ExpectsHold (if condition then .ok value else .error panic) := by
  intro message h
  split at h
  · contradiction
  · exact hpanic message (Except.error.inj h)

theorem expectsHold_debugAssert (condition : Prop) [Decidable condition] :
    ExpectsHold (debugAssert condition) :=
  expectsHold_ite () fun _ => Panic.noConfusion

theorem expectsHold_checkedSub (a b : Nat) : ExpectsHold (checkedSub a b) :=
  expectsHold_ite _ fun _ => Panic.noConfusion

theorem expectsHold_addU64 (a b : UInt64) : ExpectsHold (addU64 a b) :=
  expectsHold_ite _ fun _ => Panic.noConfusion

theorem expectsHold_addU32 (a b : UInt32) : ExpectsHold (addU32 a b) :=
  expectsHold_ite _ fun _ => Panic.noConfusion

theorem expectsHold_addU16 (a b : UInt16) : ExpectsHold (addU16 a b) :=
  expectsHold_ite _ fun _ => Panic.noConfusion

theorem expectsHold_subU8 (a b : UInt8) : ExpectsHold (subU8 a b) :=
  expectsHold_ite _ fun _ => Panic.noConfusion

theorem expectsHold_slice (xs : List α) (start stop : Nat) : ExpectsHold (slice xs start stop) :=
  expectsHold_ite _ fun _ => Panic.noConfusion

theorem expectsHold_durationAdd (a b : Duration) : ExpectsHold (a.add b) := by
  intro message h
  cases Duration.add_eq_error h

theorem expectsHold_unwrap (option : Option α) : ExpectsHold (unwrap option) := by
  intro message h
  cases option <;> cases h

/-- The one rule that asks for something: what is looked up is there. -/
theorem expectsHold_expect {message : String} {option : Option α} {value : α}
    (h : option = some value) : ExpectsHold (expect message option) :=
  expectsHold_of_returns (returns_expect h)

end Rules

section Decoding

variable {α β : Type} {step : Decode α} {next : α → Decode β}

theorem expectsHold_run_bind (h : ExpectsHold step.run)
    (hnext : ∀ value, ExpectsHold (next value).run) : ExpectsHold (step >>= next).run := by
  rw [ExceptT.run_bind]
  apply h.bind
  rintro (error | value) -
  · exact expectsHold_ok _
  · exact hnext value

theorem expectsHold_lift {call : Exec α} (h : ExpectsHold call) :
    ExpectsHold (liftM call : Decode α).run := by
  cases call with
  | ok value => exact expectsHold_ok _
  | error panic =>
    intro message hfails
    cases hfails
    exact h message rfl

theorem expectsHold_fromBeBytes (kind : FixedWidth α) (bytes : List UInt8) :
    ExpectsHold (fromBeBytes kind bytes).run := by
  unfold fromBeBytes
  split <;> exact expectsHold_ok _

theorem expectsHold_readBufferInc (kind : FixedWidth α) (buffer : List UInt8) (start : Nat) :
    ExpectsHold (readBufferInc kind buffer start).run := by
  unfold readBufferInc
  apply expectsHold_run_bind (expectsHold_lift (expectsHold_slice _ _ _))
  intro bytes
  apply expectsHold_run_bind (expectsHold_fromBeBytes kind bytes)
  exact fun _ => expectsHold_ok _

theorem expectsHold_nonZeroU16 (n : UInt16) : ExpectsHold (nonZeroU16 n).run := by
  unfold nonZeroU16
  split <;> exact expectsHold_ok _

theorem expectsHold_nonZeroU32 (n : UInt32) : ExpectsHold (nonZeroU32 n).run := by
  unfold nonZeroU32
  split <;> exact expectsHold_ok _

theorem expectsHold_commonDecode (address : SocketAddr) (decoded : PartialDecode)
    (time : Duration) : ExpectsHold (commonDecode address decoded time).run := by
  unfold commonDecode
  dsimp only
  split
  · apply expectsHold_run_bind (expectsHold_lift (expectsHold_debugAssert _))
    exact fun _ => expectsHold_ok _
  split
  · apply expectsHold_run_bind (expectsHold_readBufferInc _ _ _)
    rintro ⟨connectionId, position⟩
    apply expectsHold_run_bind (expectsHold_lift (expectsHold_debugAssert _))
    intro _
    apply expectsHold_run_bind (expectsHold_nonZeroU16 _)
    exact fun _ => expectsHold_ok _
  split
  · apply expectsHold_run_bind (expectsHold_readBufferInc _ _ _)
    rintro ⟨connectionId, position⟩
    apply expectsHold_run_bind (expectsHold_lift (expectsHold_debugAssert _))
    intro _
    apply expectsHold_run_bind (expectsHold_lift (expectsHold_slice _ _ _))
    intro payload
    apply expectsHold_run_bind (expectsHold_nonZeroU16 _)
    exact fun _ => expectsHold_ok _
  split
  · apply expectsHold_run_bind (expectsHold_readBufferInc _ _ _)
    rintro ⟨index, position⟩
    apply expectsHold_run_bind (expectsHold_readBufferInc _ _ _)
    rintro ⟨total, position⟩
    apply expectsHold_run_bind (expectsHold_readBufferInc _ _ _)
    rintro ⟨connectionId, position⟩
    apply expectsHold_run_bind (expectsHold_lift (expectsHold_debugAssert _))
    intro _
    apply expectsHold_run_bind (expectsHold_lift (expectsHold_slice _ _ _))
    intro payload
    apply expectsHold_run_bind (expectsHold_nonZeroU16 _)
    exact fun _ => expectsHold_ok _
  split
  · apply expectsHold_run_bind (expectsHold_readBufferInc _ _ _)
    rintro ⟨connectionId, position⟩
    apply expectsHold_run_bind (expectsHold_lift (expectsHold_debugAssert _))
    intro _
    apply expectsHold_run_bind (expectsHold_nonZeroU16 _)
    exact fun _ => expectsHold_ok _
  · exact expectsHold_ok _

theorem expectsHold_decodeBuffer (address : SocketAddr) (buffer : List UInt8) (time : Duration) :
    ExpectsHold (decodeBuffer address buffer time).run := by
  unfold decodeBuffer
  apply expectsHold_run_bind (expectsHold_readBufferInc _ _ _)
  rintro ⟨readProtocolId, position⟩
  dsimp only
  split
  · exact expectsHold_ok _
  apply expectsHold_run_bind (expectsHold_readBufferInc _ _ _)
  rintro ⟨readSequence, position⟩
  apply expectsHold_run_bind (expectsHold_lift (expectsHold_debugAssert _))
  intro _
  apply expectsHold_run_bind (expectsHold_readBufferInc _ _ _)
  rintro ⟨readAck, position⟩
  apply expectsHold_run_bind (expectsHold_readBufferInc _ _ _)
  rintro ⟨readPacketType, position⟩
  apply expectsHold_run_bind (expectsHold_lift (expectsHold_debugAssert _))
  intro _
  apply expectsHold_run_bind
  · unfold PacketType.tryFrom
    split <;> exact expectsHold_ok _
  intro packetType
  apply expectsHold_run_bind (expectsHold_nonZeroU32 _)
  exact fun sequence => expectsHold_commonDecode _ _ _

/-- The decoder has no `expect`: what it panics with is a slice, a sum or an assertion. -/
theorem expectsHold_decode (crc32 : Crc32) (tryFrom : DecodedCommon → Result α) (raw : RawPacket)
    (time : Duration) : ExpectsHold (raw.decode crc32 tryFrom time) := by
  have hinner : ExpectsHold (raw.innerDecode crc32 time).run := by
    unfold RawPacket.innerDecode
    apply expectsHold_run_bind (expectsHold_lift (expectsHold_checkedSub _ _))
    intro crc32Position
    apply expectsHold_run_bind (expectsHold_lift (expectsHold_slice _ _ _))
    intro crc32Bytes
    apply expectsHold_run_bind (expectsHold_fromBeBytes _ _)
    intro readCrc32
    apply expectsHold_run_bind (expectsHold_lift (expectsHold_slice _ _ _))
    intro bytesWithoutCrc32
    dsimp only
    split
    · exact expectsHold_decodeBuffer _ _ _
    · apply expectsHold_run_bind (expectsHold_nonZeroU32 _)
      exact fun _ => expectsHold_ok _
  apply hinner.bind
  rintro (error | decoded) - <;> exact expectsHold_ok _

end Decoding

section Stores

variable {B : Type} {now : Duration}

theorem expectsHold_firstExpires {M : Type} (now : Duration) (list : List (Packet Sent M)) :
    ExpectsHold (firstExpires now list) := by
  unfold firstExpires
  cases list with
  | nil => exact expectsHold_ok _
  | cons packet rest =>
    apply ExpectsHold.bind
    · apply ExpectsHold.bind
      · exact (expectsHold_durationAdd _ _).bind fun _ _ => expectsHold_ok _
      · exact fun _ _ => expectsHold_ok _
    · exact fun _ _ => expectsHold_ok _

theorem expectsHold_dropExpired (handler : ReliabilityHandler B) (now : Duration) :
    ExpectsHold (handler.dropExpired now) := by
  unfold ReliabilityHandler.dropExpired
  apply (expectsHold_firstExpires now _).bind
  rintro (_ | _) -
  · apply (expectsHold_firstExpires now _).bind
    rintro (_ | _) - <;> exact expectsHold_ok _
  · exact expectsHold_ok _

theorem expectsHold_handlerPoll [ServiceReliability B] (handler : ReliabilityHandler B)
    (hservice : ∀ service : B, ExpectsHold (ServiceReliability.poll service now)) :
    ExpectsHold (handler.poll now) := by
  unfold ReliabilityHandler.poll
  apply (expectsHold_dropExpired handler now).bind
  intro dropped _
  exact (hservice dropped.service).bind fun _ _ => expectsHold_ok _

theorem expectsHold_clientHandler (service : ClientReliabilityHandler) :
    ExpectsHold (ServiceReliability.poll service now) := by
  apply (expectsHold_firstExpires now _).bind
  rintro (_ | _) - <;> exact expectsHold_ok _

theorem expectsHold_serverHandler (service : ServerReliabilityHandler) :
    ExpectsHold (ServiceReliability.poll service now) := by
  apply (expectsHold_firstExpires now _).bind
  rintro (_ | _) - <;> exact expectsHold_ok _

theorem expectsHold_retryLast {M : Type} (now : Duration) (list : List (Packet Sent M)) :
    ExpectsHold (retryLast now list) := by
  unfold retryLast
  split
  · apply (expectsHold_durationAdd _ _).bind
    intro sum _
    split <;> exact expectsHold_ok _
  · exact expectsHold_ok _

end Stores

section Calls

variable {S A B E : Type} [Service S A B E] {M : Type}

theorem expectsHold_advance {Connection : Type} (peer : Peer Connection) :
    ExpectsHold peer.advance :=
  (expectsHold_unwrap _).bind fun _ _ => expectsHold_ok _

class EndsPlainly (M : Type) [Carried M] : Prop where
  completes : ∀ message : M, ExpectsHold (Carried.completes message)

instance : EndsPlainly DataTransfer := ⟨fun _ => expectsHold_ok _⟩
instance : EndsPlainly Heartbeat := ⟨fun _ => expectsHold_ok _⟩
instance : EndsPlainly Fragment :=
  ⟨fun _ => (expectsHold_subU8 _ _).bind fun _ _ => expectsHold_ok _⟩

theorem expectsHold_sent [Carried M] [EndsPlainly M] (protocol : Protocol S)
    (packet : Packet ToSend M) (reliability : ReliabilityType) (now : Duration) :
    ExpectsHold (protocol.sent packet reliability now) := by
  refine ExpectsHold.bind ?_ fun _ _ => expectsHold_ok _
  unfold sentCarried
  apply (EndsPlainly.completes packet.message).bind
  intro completes _
  cases completes with
  | false => exact expectsHold_ok _
  | true =>
    refine ExpectsHold.bind ?_ fun _ _ => expectsHold_ok _
    unfold ServiceCore.advanceConnected
    split
    · exact (expectsHold_advance _).bind fun _ _ => expectsHold_ok _
    · exact expectsHold_ok _

theorem expectsHold_retry [Carried M] (protocol : Protocol S) (now : Duration) :
    ExpectsHold (protocol.retry M now) := by
  refine ExpectsHold.bind ?_ fun _ _ => expectsHold_ok _
  exact (expectsHold_retryLast now _).bind fun _ _ => expectsHold_ok _

theorem expectsHold_countPacket (outcome : Result PacketId × Protocol S) :
    ExpectsHold (Protocol.countPacket outcome) := by
  obtain ⟨error | packetId, protocol⟩ := outcome
  · exact expectsHold_ok _
  · exact (expectsHold_addU64 _ _).bind fun _ _ => expectsHold_ok _

theorem expectsHold_schedule (hash : RandomState) (protocol : Protocol S)
    (reliability : ReliabilityType) (sendTo : SendTo) (payload : Payload) (now : Duration) :
    ExpectsHold (protocol.schedule hash reliability sendTo payload now) := by
  unfold Protocol.schedule Protocol.scheduleHelper
  refine ExpectsHold.bind ?_ fun outcome _ => expectsHold_countPacket outcome
  split
  · exact expectsHold_ok _
  · dsimp only
    split
    · exact expectsHold_ok _
    · exact (expectsHold_addU64 _ _).bind fun _ _ => expectsHold_ok _

theorem expectsHold_heartbeat (hash : RandomState) (protocol : Protocol S)
    (reliability : ReliabilityType) (sendTo : SendTo) (now : Duration) :
    ExpectsHold (protocol.heartbeat hash reliability sendTo now) := by
  unfold Protocol.heartbeat Protocol.heartbeatHelper
  refine ExpectsHold.bind ?_ fun outcome _ => expectsHold_countPacket outcome
  split
  · exact expectsHold_ok _
  · split
    · exact expectsHold_ok _
    · exact (expectsHold_addU64 _ _).bind fun _ _ => expectsHold_ok _

theorem expectsHold_connect (protocol : Protocol Client) (address : SocketAddr) (now : Duration) :
    ExpectsHold (protocol.connect address now) := by
  unfold Protocol.connect
  split
  · exact expectsHold_ok _
  · exact (expectsHold_addU64 _ _).bind fun _ _ => expectsHold_ok _

theorem expectsHold_sentConnectionRequest (protocol : Protocol Client)
    (packet : Packet ToSend ConnectionRequest) (now : Duration) :
    ExpectsHold (protocol.sentConnectionRequest packet now) := by
  refine ExpectsHold.bind ?_ fun _ _ => expectsHold_ok _
  apply (expectsHold_unwrap _).bind
  intro peer _
  exact (expectsHold_advance peer).bind fun _ _ => expectsHold_ok _

theorem expectsHold_sentConnectionAccepted (protocol : Protocol Server)
    (packet : Packet ToSend ConnectionAccepted) (now : Duration) :
    ExpectsHold (protocol.sentConnectionAccepted packet now) := by
  refine ExpectsHold.bind ?_ fun _ _ => expectsHold_ok _
  unfold Server.sentConnectionAccepted
  dsimp only
  split
  · exact (expectsHold_advance _).bind fun _ _ => expectsHold_ok _
  · exact expectsHold_ok _

theorem expectsHold_resendConnectionRequest (protocol : Protocol Client) (now : Duration) :
    ExpectsHold (protocol.resendReliableConnectionRequest now) := by
  refine ExpectsHold.bind ?_ fun _ _ => expectsHold_ok _
  refine ExpectsHold.bind ?_ fun _ _ => expectsHold_ok _
  exact (expectsHold_retryLast now _).bind fun _ _ => expectsHold_ok _

theorem expectsHold_retryConnectionAccepted (protocol : Protocol Server) (now : Duration) :
    ExpectsHold (protocol.retryReliableConnectionAccepted now) := by
  refine ExpectsHold.bind ?_ fun _ _ => expectsHold_ok _
  refine ExpectsHold.bind ?_ fun _ _ => expectsHold_ok _
  exact (expectsHold_retryLast now _).bind fun _ _ => expectsHold_ok _

end Calls

section Receipts

variable {crc32 : Crc32}

theorem expectsHold_clientReceived (protocol : Protocol Client) (raw : RawPacket)
    (now : Duration) : ExpectsHold (protocol.clientReceived crc32 raw now) := by
  refine ExpectsHold.bind ?_ fun _ _ => expectsHold_ok _
  apply (expectsHold_decode crc32 DecodedForClient.tryFrom raw now).bind
  rintro (error | packet | packet | packet | packet) -
  · exact expectsHold_ok _
  · exact expectsHold_ok _
  · exact expectsHold_ok _
  · exact expectsHold_of_returns (returns_client_onFragment _ packet)
  · exact expectsHold_ok _

theorem expectsHold_onConnectionRequest (hash : RandomState) (server : Server)
    (packet : Packet Received ConnectionRequest) (packetId : PacketId) (time : Duration) :
    ExpectsHold (server.onConnectionRequest hash packet packetId time) := by
  unfold Server.onConnectionRequest
  dsimp only
  split
  · exact expectsHold_ok _
  · split
    · exact (expectsHold_addU32 _ _).bind fun _ _ => expectsHold_ok _
    · apply (expectsHold_addU16 _ _).bind
      intro next _
      exact (expectsHold_unwrap _).bind fun _ _ => expectsHold_ok _

theorem expectsHold_serverReceived (hash : RandomState) (protocol : Protocol Server)
    (raw : RawPacket) (now : Duration) :
    ExpectsHold (protocol.serverReceived crc32 hash raw now) := by
  apply ExpectsHold.bind
  · apply (expectsHold_decode crc32 DecodedForServer.tryFrom raw now).bind
    rintro (error | packet | packet | packet | packet) -
    · exact expectsHold_ok _
    · exact expectsHold_onConnectionRequest hash _ packet _ now
    · exact expectsHold_of_returns (returns_onDataTransfer _ packet now)
    · exact expectsHold_of_returns (returns_server_onFragment _ packet now)
    · exact expectsHold_of_returns (returns_onHeartbeat _ packet now)
  · rintro ⟨error | updatePacketId, service⟩ -
    · exact expectsHold_ok _
    · cases updatePacketId with
      | false => exact expectsHold_ok _
      | true => exact (expectsHold_addU64 _ _).bind fun _ _ => expectsHold_ok _

theorem expectsHold_clientPoll (protocol : Protocol Client) (elapsed : Duration) :
    ExpectsHold (protocol.clientPoll elapsed) :=
  (expectsHold_handlerPoll _ expectsHold_clientHandler).bind fun _ _ => expectsHold_ok _

theorem Assembled.expectsHold_serverPoll {state : Assembly Server} (assembled : Assembled state)
    (hash : RandomState) (peerHash : ConnectionId → RandomState) (elapsed now : Duration) :
    ExpectsHold (state.protocol.serverPoll hash peerHash elapsed now) := by
  apply (expectsHold_handlerPoll _ expectsHold_serverHandler).bind
  intro handler _
  refine ExpectsHold.bind ?_ fun _ _ => expectsHold_ok _
  intro message hfails
  obtain ⟨⟨id, peer⟩, hentry, hpoll⟩ := exists_of_updateEach_eq_error hfails
  have hfound := ((hash.iterate state.protocol.service.connected).mem_iff id peer).mp hentry
  exact assembled.expectsHold id peer (peerHash id) now hfound message hpoll

end Receipts

section Drivers

/-- What stopped a driver was no `expect`. -/
def NotByExpect (stopped : Stopped) : Prop :=
  ∀ message, stopped.panic ≠ .expect message

variable {S : Type} {net : AntarcNet S} {crc32 : Crc32}

theorem ensures_attempt {call : Exec α} (h : ExpectsHold call) :
    Ensures (fun value => call = .ok value) NotByExpect (net.attempt call) := by
  cases call with
  | ok value => rfl
  | error panic => exact fun message hpanic => h message (congrArg Except.error hpanic)

variable {R M : Type} [Sendable M]

theorem ensures_transmit (packet : Packet ToSend M) (first : Bool) :
    Ensures (fun after => after.antarc = net.antarc) NotByExpect
      (net.transmit crc32 packet first) := by
  apply Ensures.bind
  · apply ensures_attempt
    exact (expectsHold_debugAssert _).bind fun _ _ => expectsHold_ok _
  · exact fun _ _ => rfl

variable {create : Protocol S → Scheduled R M → Duration → Exec (Packet ToSend M)}
  {account : Protocol S → Packet ToSend M → Duration → Exec (Protocol S)}
  {clock : Nat → Duration}

/-- A loop runs to its end if the entry at its head can be created, and accounting that one
leaves the others as they should be. -/
theorem ensures_sendEach (ready : Protocol S → List (Scheduled R M) → Prop)
    (hcreate : ∀ protocol scheduled rest now, ready protocol (scheduled :: rest) →
      ExpectsHold (create protocol scheduled now))
    (haccount : ∀ protocol packet now, ExpectsHold (account protocol packet now))
    (hkeep : ∀ protocol scheduled rest created packet accounted next,
      ready protocol (scheduled :: rest) → create protocol scheduled created = .ok packet →
      account protocol packet accounted = .ok next → ready next rest)
    {entries : List (Scheduled R M)} (hready : ready net.antarc entries) :
    Ensures (fun _ => True) NotByExpect
      (AntarcNet.sendEach crc32 create account clock entries net) := by
  induction entries generalizing net clock with
  | nil => trivial
  | cons scheduled rest ih =>
    have hturn : Ensures (fun after => ready after.antarc rest) NotByExpect
        (net.sendScheduled crc32 create account scheduled (clock 0) (clock 1)) := by
      apply (ensures_attempt (hcreate _ _ _ _ hready)).bind
      intro packet hpacket
      apply (ensures_transmit packet true).bind
      intro sent hsent
      apply (ensures_attempt (haccount _ _ _)).bind
      intro antarc hantarc
      rw [hsent] at hantarc
      exact hkeep _ _ _ _ _ _ _ hready hpacket hantarc
    exact hturn.bind fun after hafter => ih hafter

theorem ensures_pollStored
    {retry : Protocol S → Duration → Exec (Option (Packet ToSend M) × Protocol S)}
    (hretry : ∀ protocol now, ExpectsHold (retry protocol now))
    (haccount : ∀ protocol packet now, ExpectsHold (account protocol packet now)) :
    Ensures (fun _ => True) NotByExpect
      (AntarcNet.pollStored crc32 retry account clock net) := by
  apply (ensures_attempt (hretry _ _)).bind
  rintro ⟨_ | packet, antarc⟩ -
  · trivial
  · apply (ensures_transmit packet false).bind
    intro sent _
    exact (ensures_attempt (haccount _ _ _)).bind fun _ _ => trivial

end Drivers

section Carriage

variable {S A B E : Type} [Service S A B E] {R M : Type} [Carried M]

def AllConnected (protocol : Protocol S) (entries : List (Scheduled R M)) : Prop :=
  ∀ scheduled ∈ entries, Carried.connectionId scheduled.message ∈ protocol.core.connected

class StaysConnected (S : Type) {A B E : outParam Type} [Service S A B E] : Prop where
  promotes : ∀ (service : S) address id time other, other ∈ (Service.core service).connected →
    other ∈ (Service.core (Service.promoteAwaiting service address id time)).connected

instance : StaysConnected Server := ⟨fun _ _ _ _ _ h => h⟩

instance : StaysConnected Client where
  promotes client address id time other h := by
    change other ∈ (client.promoteAwaiting address id time).connected
    unfold Client.promoteAwaiting
    split
    · exact Finmap.mem_insert.mpr (.inr h)
    · exact h

theorem mem_advanceConnected {core next : ServiceCore A B E} {id other : ConnectionId}
    (h : core.advanceConnected id = .ok next) (hother : other ∈ core.connected) :
    other ∈ next.connected := by
  rcases advanceConnected_cases h with ⟨-, rfl⟩ | ⟨peer, advanced, -, -, rfl⟩
  · exact hother
  · exact Finmap.mem_insert.mpr (.inr hother)

theorem mem_connected_sent [StaysConnected S] {protocol next : Protocol S}
    {packet : Packet ToSend M} {reliability : ReliabilityType} {now : Duration} {id : ConnectionId}
    (h : protocol.sent packet reliability now = .ok next) (hid : id ∈ protocol.core.connected) :
    id ∈ next.core.connected := by
  obtain ⟨completes, core, -, hcore, rfl⟩ := sent_frame h
  have hpromoted := StaysConnected.promotes protocol.service packet.delivery.metadata.address
    (Carried.connectionId packet.message) now id hid
  change id ∈ (Service.core (Service.setCore _ _)).connected
  rw [Service.core_setCore]
  cases completes with
  | false =>
    cases hcore
    exact hpromoted
  | true => exact (mem_advanceConnected hcore hpromoted :)

theorem expectsHold_createCarried {message : String} {protocol : Protocol S}
    {scheduled : Scheduled R M} {now : Duration}
    (h : Carried.connectionId scheduled.message ∈ protocol.core.connected) :
    ExpectsHold (protocol.core.createCarried message scheduled now) := by
  obtain ⟨peer, hpeer⟩ := (mem_iff_lookup _ _).mp h
  exact (expectsHold_expect hpeer).bind fun _ _ => expectsHold_ok _

variable [PeerTable S] {crc32 : Crc32} {policy : Policy} {start : Numbering SocketAddr PacketId}
  {side : AntarcNet S → Prop} {net : AntarcNet S} [Sendable M] [Bodied M] [Travels M]

theorem Books.allConnected [Queued R M] [QueueView R M]
    (books : Books crc32 policy start side net) :
    AllConnected net.antarc (Queued.queue net.antarc.core.scheduler : List (Scheduled R M)) := by
  obtain ⟨numbering, ledger, -⟩ := books
  intro scheduled hmem
  have hqueue := ledger.queued _ (QueueView.queue_mem (R := R) (M := M) net.antarc.core.scheduler)
  obtain ⟨-, id, hid, peer, hpeer, -⟩ := hqueue.entries _ (List.mem_map_of_mem hmem)
  cases (Travels.connection_body scheduled.message).symm.trans hid
  exact Finmap.mem_of_lookup_eq_some hpeer

theorem Books.ensures_pollScheduled [StaysConnected S] [EndsPlainly M] [Queued R M]
    [Reliability R] [QueueView R M] (books : Books crc32 policy start side net)
    {create : Protocol S → Scheduled R M → Duration → Exec (Packet ToSend M)} {message : String}
    (hcreate : ∀ protocol scheduled now,
      create protocol scheduled now = protocol.core.createCarried message scheduled now)
    (clock : Nat → Duration) :
    Ensures (fun _ => True) NotByExpect (AntarcNet.pollScheduled crc32 create clock net) := by
  rw [pollScheduled_eq]
  apply ensures_sendEach AllConnected
  · intro protocol scheduled rest now hready
    rw [hcreate]
    exact expectsHold_createCarried (hready scheduled List.mem_cons_self)
  · exact fun protocol packet now => expectsHold_sent protocol packet _ now
  · intro protocol scheduled rest _ packet _ next hready _ hsent other hmem
    exact mem_connected_sent hsent (hready other (List.mem_cons_of_mem _ hmem))
  · intro scheduled hmem
    change _ ∈ (Service.core (Service.setCore _ _)).connected
    rw [Service.core_setCore]
    exact books.allConnected scheduled hmem

theorem preserves_pass_unexpecting [StaysConnected S] [EndsPlainly M] [Queued R M] [Reliability R]
    [QueueView R M] (stable : Stable crc32 policy side)
    {create : Protocol S → Scheduled R M → Duration → Exec (Packet ToSend M)} {message : String}
    (hcreate : ∀ protocol scheduled now,
      create protocol scheduled now = protocol.core.createCarried message scheduled now)
    (clock : Nat → Duration) :
    Preserves (Books crc32 policy start side) NotByExpect
      (AntarcNet.pollScheduled crc32 create clock) :=
  fun net books => (preserves_pass stable hcreate clock net books).also
    (books.ensures_pollScheduled hcreate clock)

theorem preserves_carried_unexpecting [StaysConnected S] (stable : Stable crc32 policy side)
    (clock : Clock) (pass : Nat) :
    Preserves (Books crc32 policy start side) NotByExpect
      (AntarcNet.pollCarried crc32 clock pass) := by
  unfold AntarcNet.pollCarried
  refine .comp ?_ (.comp ?_ (.comp ?_ (.comp ?_ (.comp ?_ ?_))))
  all_goals exact preserves_pass_unexpecting stable (fun _ _ _ => rfl) _

theorem preserves_retry_unexpecting [EndsPlainly M] (stable : Stable crc32 policy side)
    (clock : Nat → Duration) :
    Preserves (Books crc32 policy start side) NotByExpect (AntarcNet.pollRetry M crc32 clock) :=
  fun net books => (preserves_retry M stable clock net books).also
    (ensures_pollStored expectsHold_retry fun _ _ => expectsHold_sent _ _ _)

theorem Books.carriedDrive_unexpecting (books : Books crc32 policy start side net)
    (stable : Stable crc32 policy side) {outcome : Drive (AntarcNet S)}
    (h : CarriedDrive net outcome) :
    Ensures (Books crc32 policy start side) NotByExpect outcome := by
  have hstops : Ensures (fun _ => True) NotByExpect outcome := by
    cases h with
    | schedule hash reliability sendTo payload now =>
      apply Ensures.map
      apply (ensures_attempt (expectsHold_schedule _ _ _ _ _ _)).bind
      exact fun _ _ => trivial
    | heartbeat hash reliability sendTo now =>
      apply Ensures.map
      apply (ensures_attempt (expectsHold_heartbeat _ _ _ _ _)).bind
      exact fun _ _ => trivial
  exact (books.carriedDrive stable h).also hstops

end Carriage

section ClientDriver

variable {crc32 : Crc32} {asked : List SocketAddr} {net : AntarcNet Client}

/-- Each request that is queued has its own peer, which leaves the map as it is accounted. -/
def AllRequesting (protocol : Protocol Client)
    (entries : List (Scheduled Reliable ConnectionRequest)) : Prop :=
  (entries.map Scheduled.address).Nodup ∧
    ∀ scheduled ∈ entries, scheduled.address ∈ protocol.service.requestingConnection

theorem AllRequesting.rest {protocol next : Protocol Client}
    {scheduled : Scheduled Reliable ConnectionRequest}
    {rest : List (Scheduled Reliable ConnectionRequest)} {created accounted : Duration}
    {packet : Packet ToSend ConnectionRequest}
    (h : AllRequesting protocol (scheduled :: rest))
    (hcreate : protocol.createConnectionRequest scheduled created = .ok packet)
    (hsent : protocol.sentConnectionRequest packet accounted = .ok next) :
    AllRequesting next rest := by
  obtain ⟨hnodup, hrequesting⟩ := h
  obtain ⟨hother, hrest⟩ := List.nodup_cons.mp hnodup
  obtain ⟨_, -, hpacket⟩ := bind_eq_ok.mp hcreate
  cases hpacket
  obtain ⟨peer, advanced, -, -, rfl⟩ := sentConnectionRequest_frame hsent
  refine ⟨hrest, fun other hmem => Finmap.mem_erase.mpr ⟨?_, ?_⟩⟩
  · intro hsame
    exact hother (List.mem_map.mpr ⟨other, hmem, hsame⟩)
  · exact hrequesting other (List.mem_cons_of_mem _ hmem)

theorem drainConnectionRequest_all (protocol : Protocol Client) :
    protocol.drainConnectionRequest 0
        protocol.service.scheduler.service.listScheduledConnectionRequest.length =
      .ok (protocol.service.scheduler.service.listScheduledConnectionRequest,
        { protocol with service := { protocol.service with
          scheduler := { protocol.service.scheduler with service := ⟨[]⟩ } } }) := by
  unfold Protocol.drainConnectionRequest Client.drainConnectionRequest
  rw [drainRange_all]
  rfl

theorem ensures_pollConnectionRequest
    (books : Books crc32 .none .start (ClientSide asked []) net) (clock : Nat → Duration) :
    Ensures (fun _ => True) NotByExpect (net.pollConnectionRequest crc32 clock) := by
  obtain ⟨numbering, -, -, -, side⟩ := books
  unfold AntarcNet.pollConnectionRequest AntarcNet.pollQueue
  dsimp only
  rw [drainConnectionRequest_all]
  apply ensures_sendEach AllRequesting
  · intro protocol scheduled rest now hready
    obtain ⟨peer, hpeer⟩ := (mem_iff_lookup _ _).mp (hready.2 scheduled List.mem_cons_self)
    exact (expectsHold_expect hpeer).bind fun _ _ => expectsHold_ok _
  · exact expectsHold_sentConnectionRequest
  · intro protocol scheduled rest _ packet _ next hready hcreate hsent
    exact hready.rest hcreate hsent
  · refine ⟨side.table.pending_nodup, fun scheduled hmem => ?_⟩
    exact (side.table.pending_iff _).mp (List.mem_map_of_mem hmem)

theorem preserves_clientSend_unexpecting (clock : Clock) :
    Preserves (Books crc32 .none .start (ClientSide asked [])) NotByExpect
      (AntarcNet.clientSend crc32 clock) := by
  have stable := stable_clientSide crc32 .none asked []
  unfold AntarcNet.clientSend
  refine .comp ?_ (.comp (preserves_retry_unexpecting stable _) (.comp ?_
    (preserves_carried_unexpecting stable clock 3)))
  · exact fun net books => (preserves_pollRetryConnectionRequest _ net books).also
      (ensures_pollStored expectsHold_resendConnectionRequest expectsHold_sentConnectionRequest)
  · exact fun net books => (preserves_pollConnectionRequest _ net books).also
      (ensures_pollConnectionRequest books _)

theorem ensures_clientReceive (received elapsed : Duration) (datagram : Option RawPacket) :
    Ensures (fun _ => True) NotByExpect (net.clientReceive crc32 received elapsed datagram) := by
  unfold AntarcNet.clientReceive
  cases datagram with
  | none => exact fun _ => Panic.noConfusion
  | some raw =>
    apply (ensures_attempt (expectsHold_clientReceived _ _ _)).bind
    rintro ⟨outcome, antarc⟩ -
    apply (ensures_attempt (expectsHold_clientPoll _ _)).bind
    exact fun _ _ => trivial

end ClientDriver

section ServerDriver

variable {crc32 : Crc32} {registry : Registry SocketAddr} {net after : AntarcNet Server}

theorem KeepsAccepts.refl (server : Server) : KeepsAccepts server server :=
  ⟨.refl server, fun _ h => h⟩

theorem KeepsAccepts.trans {server middle next : Server} (h : KeepsAccepts server middle)
    (h' : KeepsAccepts middle next) : KeepsAccepts server next where
  peers :=
    { requesting := h'.peers.requesting.trans h.peers.requesting
      tracker := h'.peers.tracker.trans h.peers.tracker
      awaiting := fun id => (h'.peers.awaiting id).trans (h.peers.awaiting id)
      connected := fun id => (h'.peers.connected id).trans (h.peers.connected id) }
  queue := fun id hid => h.queue id (h'.queue id hid)

theorem KeepsAccepts.stays_empty {server next : Server} (h : KeepsAccepts server next)
    (hempty : queuedAccepts server = []) : queuedAccepts next = [] := by
  apply List.eq_nil_iff_forall_not_mem.mpr
  intro id hid
  have hold := h.queue id hid
  rw [hempty] at hold
  exact List.not_mem_nil hold

theorem keepsAccepts_pollScheduled {R M : Type} [Queued R M] [Reliability R] [Carried M]
    [Sendable M] [Bodied M] [QueueView R M]
    {create : Protocol Server → Scheduled R M → Duration → Exec (Packet ToSend M)}
    {clock : Nat → Duration} (h : AntarcNet.pollScheduled crc32 create clock net = .ok after) :
    KeepsAccepts net.antarc.service after.antarc.service := by
  refine pollQueue_keeps (fun protocol => KeepsAccepts net.antarc.service protocol.service)
    ?_ ?_ (.refl _) h
  · intro protocol packet now next hkept hsent
    exact hkept.trans (OwnCall.sent M packet _ now hsent).keepsAccepts
  · intro protocol drained next hkept hdrain
    exact hkept.trans (OwnCall.drain R M _ _ drained hdrain).keepsAccepts

theorem keepsAccepts_pollRetry {M : Type} [Carried M] [Sendable M] {clock : Nat → Duration}
    (h : AntarcNet.pollRetry M crc32 clock net = .ok after) :
    KeepsAccepts net.antarc.service after.antarc.service := by
  refine pollStored_keeps (fun protocol => KeepsAccepts net.antarc.service protocol.service)
    ?_ ?_ (.refl _) h
  · intro protocol packet now next hkept hsent
    exact hkept.trans (OwnCall.sent M packet _ now hsent).keepsAccepts
  · intro protocol now packet next hkept hretry
    exact hkept.trans (OwnCall.retry M now packet hretry).keepsAccepts

theorem keepsAccepts_pollRetryConnectionAccepted {clock : Nat → Duration}
    (h : net.pollRetryConnectionAccepted crc32 clock = .ok after) :
    KeepsAccepts net.antarc.service after.antarc.service := by
  refine pollStored_keeps (fun protocol => KeepsAccepts net.antarc.service protocol.service)
    ?_ ?_ (.refl _) h
  · intro protocol packet now next hkept hsent
    exact hkept.trans (OwnCall.sentConnectionAccepted packet now hsent).keepsAccepts
  · intro protocol now packet next hkept hretry
    exact hkept.trans (OwnCall.retryConnectionAccepted now packet hretry).keepsAccepts

theorem keepsAccepts_pollCarried {clock : Clock} {pass : Nat}
    (h : net.pollCarried crc32 clock pass = .ok after) :
    KeepsAccepts net.antarc.service after.antarc.service := by
  obtain ⟨_, hfirst, h⟩ := bind_eq_ok.mp h
  obtain ⟨_, hsecond, h⟩ := bind_eq_ok.mp h
  obtain ⟨_, hthird, h⟩ := bind_eq_ok.mp h
  obtain ⟨_, hfourth, h⟩ := bind_eq_ok.mp h
  obtain ⟨_, hfifth, h⟩ := bind_eq_ok.mp h
  have hkept := (keepsAccepts_pollScheduled hfirst).trans (keepsAccepts_pollScheduled hsecond)
  replace hkept := hkept.trans (keepsAccepts_pollScheduled hthird)
  replace hkept := hkept.trans (keepsAccepts_pollScheduled hfourth)
  replace hkept := hkept.trans (keepsAccepts_pollScheduled hfifth)
  exact hkept.trans (keepsAccepts_pollScheduled h)

theorem drainConnectionAccepted_all (protocol : Protocol Server) :
    protocol.drainConnectionAccepted 0
        protocol.service.scheduler.service.listScheduledConnectionAccepted.length =
      .ok (protocol.service.scheduler.service.listScheduledConnectionAccepted,
        { protocol with service := { protocol.service with
          scheduler := { protocol.service.scheduler with service := ⟨[]⟩ } } }) := by
  unfold Protocol.drainConnectionAccepted Server.drainConnectionAccepted
  rw [drainRange_all]
  rfl

theorem pollConnectionAccepted_empties {clock : Nat → Duration}
    (h : net.pollConnectionAccepted crc32 clock = .ok after) :
    queuedAccepts after.antarc.service = [] := by
  unfold AntarcNet.pollConnectionAccepted AntarcNet.pollQueue at h
  dsimp only at h
  rw [drainConnectionAccepted_all] at h
  refine sendEach_keeps (fun protocol => queuedAccepts protocol.service = []) ?_ rfl h
  intro protocol packet now next hempty hsent
  exact (OwnCall.sentConnectionAccepted packet now hsent).keepsAccepts.stays_empty hempty

theorem serverSend_empties {clock : Clock} (h : net.serverSend crc32 clock = .ok after) :
    queuedAccepts after.antarc.service = [] := by
  obtain ⟨_, -, h⟩ := bind_eq_ok.mp h
  obtain ⟨_, -, h⟩ := bind_eq_ok.mp h
  obtain ⟨_, -, h⟩ := bind_eq_ok.mp h
  obtain ⟨middle, haccepts, h⟩ := bind_eq_ok.mp h
  exact (keepsAccepts_pollCarried h).stays_empty (pollConnectionAccepted_empties haccepts)

theorem ensures_pollConnectionAccepted (hbuildable : AcceptsBuildable net.antarc.service)
    (clock : Nat → Duration) :
    Ensures (fun _ => True) NotByExpect (net.pollConnectionAccepted crc32 clock) := by
  unfold AntarcNet.pollConnectionAccepted AntarcNet.pollQueue
  dsimp only
  rw [drainConnectionAccepted_all]
  apply ensures_sendEach fun protocol (entries : List (Scheduled Reliable ConnectionAccepted)) =>
    ∀ scheduled ∈ entries,
      scheduled.message.connectionId ∈ protocol.service.awaitingConnectionAck
  · intro protocol scheduled rest now hready
    obtain ⟨peer, hpeer⟩ := (mem_iff_lookup _ _).mp (hready scheduled List.mem_cons_self)
    exact (expectsHold_expect hpeer).bind fun _ _ => expectsHold_ok _
  · exact expectsHold_sentConnectionAccepted
  · intro protocol scheduled rest _ packet _ next hready _ hsent other hmem
    exact (samePeers_sentConnectionAccepted hsent).mem_awaiting
      (hready other (List.mem_cons_of_mem _ hmem))
  · exact fun scheduled hmem => hbuildable _ (List.mem_map_of_mem hmem)

theorem Books.ensures_serverSend (books : Books crc32 .none .start (ServerSide registry []) net)
    (hbuildable : AcceptsBuildable net.antarc.service) (clock : Clock) :
    Ensures (Books crc32 .none .start (ServerSide registry [])) NotByExpect
      (net.serverSend crc32 clock) := by
  have stable := stable_serverSide crc32 .none registry []
  have hresend := (preserves_pollRetryConnectionAccepted (clock 0) net books).also
    (ensures_pollStored expectsHold_retryConnectionAccepted expectsHold_sentConnectionAccepted)
  unfold AntarcNet.serverSend
  refine (hresend.and _ fun _ => keepsAccepts_pollRetryConnectionAccepted).bind ?_
  rintro first ⟨books, hfirst⟩
  have hretry := preserves_retry_unexpecting (M := DataTransfer) stable (clock 1) first books
  refine (hretry.and _ fun _ => keepsAccepts_pollRetry).bind ?_
  rintro second ⟨books, hsecond⟩
  have hretry := preserves_retry_unexpecting (M := Fragment) stable (clock 2) second books
  refine (hretry.and _ fun _ => keepsAccepts_pollRetry).bind ?_
  rintro third ⟨books, hthird⟩
  have hready := ((hfirst.trans hsecond).trans hthird).buildable hbuildable
  have haccepts := (preserves_pollConnectionAccepted (clock 3) third books).also
    (ensures_pollConnectionAccepted hready _)
  exact haccepts.bind (preserves_carried_unexpecting stable clock 4)

structure ServerReady (crc32 : Crc32) (net : AntarcNet Server) : Prop where
  books : ∃ registry, Books crc32 .none .start (ServerSide registry []) net
  buildable : AcceptsBuildable net.antarc.service
  assembled : ∃ received reassembled, Assembled ⟨net.antarc, received, reassembled⟩

variable {hash : RandomState} {peerHash : ConnectionId → RandomState}
  {received elapsed now : Duration}

theorem assembled_report {fragments : List (Packet Received Fragment)}
    {reassembled : List (ConnectionId × Payload)} {outcome : Result Unit}
    (h : Assembled ⟨net.antarc, fragments, reassembled⟩) :
    Assembled ⟨(AntarcNet.report outcome net).antarc, fragments, reassembled⟩ := by
  cases outcome with
  | ok _ => exact h
  | error fail => exact h.of_keeps (keepsGroups_setCore (.refl _))

theorem buildable_report {outcome : Result Unit} (h : AcceptsBuildable net.antarc.service) :
    AcceptsBuildable (AntarcNet.report outcome net).antarc.service := by
  cases outcome <;> exact h

/-- What is received after the send passes overtakes no accept. -/
theorem not_overtakes {raw : RawPacket} (hempty : queuedAccepts net.antarc.service = []) :
    ¬Overtakes crc32 net.antarc.service raw received := by
  rintro ⟨_, _, -, -, hqueued⟩
  rw [hempty] at hqueued
  exact List.not_mem_nil hqueued

theorem ServerReady.ensures_serverReceive (ready : ServerReady crc32 net)
    (datagram : Option RawPacket) :
    Ensures (fun _ => True) NotByExpect
      (net.serverReceive crc32 hash peerHash received elapsed now datagram) := by
  obtain ⟨fragments, reassembled, hassembled⟩ := ready.assembled
  unfold AntarcNet.serverReceive
  cases datagram with
  | none => exact fun _ => Panic.noConfusion
  | some raw =>
    apply (ensures_attempt (expectsHold_serverReceived _ _ _ _)).bind
    rintro ⟨outcome, heard⟩ hreceived
    have hheard := hassembled.of_receipt (server_receipt ⟨hash, outcome, hreceived⟩)
    have hreported : Assembled
        ⟨(AntarcNet.report outcome { net with antarc := heard }).antarc, _, _⟩ :=
      assembled_report hheard
    apply (ensures_attempt (hreported.expectsHold_serverPoll _ _ _ _)).bind
    exact fun _ _ => trivial

theorem ServerReady.receives (ready : ServerReady crc32 net)
    (hempty : queuedAccepts net.antarc.service = []) (datagram : Option RawPacket) :
    Ensures (fun result => ServerReady crc32 result.2) NotByExpect
      (net.serverReceive crc32 hash peerHash received elapsed now datagram) := by
  obtain ⟨registry, books⟩ := ready.books
  obtain ⟨fragments, reassembled, hassembled⟩ := ready.assembled
  have hbooks := books.serverReceive hash peerHash received elapsed now datagram
    fun _ _ _ _ => ⟨fun _ _ _ _ _ _ => ⟨trivial, trivial⟩, fun _ _ => trivial⟩
  have hreceive := hbooks.also (ready.ensures_serverReceive datagram)
  have hrequesting : net.antarc.service.requestingConnection = ∅ := by
    obtain ⟨_, _, _, _, side⟩ := books
    exact side.table.requesting
  refine (hreceive.and (fun result => AcceptsBuildable result.2.antarc.service ∧
    ∃ fragments reassembled, Assembled ⟨result.2.antarc, fragments, reassembled⟩) ?_).mono ?_
  · rintro ⟨events, after⟩ h
    cases datagram with
    | none => contradiction
    | some raw =>
      obtain ⟨outcome, heard, hreceived, hpolled, -⟩ := serverReceive_calls h
      have hheard := buildable_received hrequesting ready.buildable (not_overtakes hempty) hreceived
      have hreported : AcceptsBuildable
          (AntarcNet.report outcome { net with antarc := heard }).antarc.service :=
        buildable_report hheard
      have hassembled : Assembled
          ⟨(AntarcNet.report outcome { net with antarc := heard }).antarc, _, _⟩ :=
        assembled_report (hassembled.of_receipt (server_receipt ⟨hash, outcome, hreceived⟩))
      refine ⟨?_, _, _, hassembled.of_keeps (keepsGroups_server (.poll _ _ _ _ _ _ hpolled))⟩
      exact (OwnCall.poll hash peerHash elapsed now events hpolled).keepsAccepts.buildable hreported
  · rintro ⟨events, after⟩ ⟨⟨later, _, hbooks⟩, hbuildable, hassembled⟩
    exact ⟨⟨later, hbooks⟩, hbuildable, hassembled⟩

theorem ServerReady.carriedDrive (ready : ServerReady crc32 net)
    {outcome : Drive (AntarcNet Server)} (h : CarriedDrive net outcome) :
    Ensures (ServerReady crc32) NotByExpect outcome := by
  obtain ⟨registry, books⟩ := ready.books
  obtain ⟨fragments, reassembled, hassembled⟩ := ready.assembled
  have hbooks := books.carriedDrive_unexpecting (stable_serverSide crc32 .none registry []) h
  refine (hbooks.and (fun after => KeepsAccepts net.antarc.service after.antarc.service ∧
    KeepsGroups net.antarc.core.connected after.antarc.core.connected) ?_).mono ?_
  · rintro after rfl
    have hcommon : ∀ before kept after, CommonWork before kept after →
        ServerWork before kept after := fun _ _ _ => .common
    obtain ⟨⟨kept, hwork⟩, -⟩ := works_carriedDrive hcommon h
    refine ⟨?_, keepsGroups_server hwork⟩
    generalize houtcome : (Except.ok after : Drive (AntarcNet Server)) = outcome at h
    cases h with
    | schedule hash reliability sendTo payload now =>
      obtain ⟨⟨result, _⟩, hcall, rfl⟩ := map_eq_ok.mp houtcome.symm
      obtain ⟨⟨_, antarc⟩, hschedule, hcall⟩ := bind_eq_ok.mp hcall
      cases hcall
      exact (OwnCall.schedule hash reliability sendTo payload now result
        (attempt_eq_ok.mp hschedule)).keepsAccepts
    | heartbeat hash reliability sendTo now =>
      obtain ⟨⟨result, _⟩, hcall, rfl⟩ := map_eq_ok.mp houtcome.symm
      obtain ⟨⟨_, antarc⟩, hheartbeat, hcall⟩ := bind_eq_ok.mp hcall
      cases hcall
      exact (OwnCall.heartbeat hash reliability sendTo now result
        (attempt_eq_ok.mp hheartbeat)).keepsAccepts
  · rintro after ⟨hbooks, haccepts, hgroups⟩
    exact ⟨⟨registry, hbooks⟩, haccepts.buildable ready.buildable,
      fragments, reassembled, hassembled.of_keeps hgroups⟩

theorem ServerReady.poll (ready : ServerReady crc32 net) (clock : Clock)
    (datagram : Option RawPacket) :
    Ensures (fun result => ServerReady crc32 result.2) NotByExpect
      (net.serverPoll crc32 hash peerHash clock datagram) := by
  obtain ⟨registry, books⟩ := ready.books
  obtain ⟨fragments, reassembled, hassembled⟩ := ready.assembled
  unfold AntarcNet.serverPoll
  refine ((books.ensures_serverSend ready.buildable clock).and (fun after =>
    queuedAccepts after.antarc.service = [] ∧
      Assembled ⟨after.antarc, fragments, reassembled⟩) ?_).bind ?_
  · intro sent hsent
    refine ⟨serverSend_empties hsent, ?_⟩
    exact (works_serverSend hsent).keeps (fun protocol => Assembled ⟨protocol, _, _⟩)
      (fun _ _ _ h hwork => h.of_keeps (keepsGroups_server hwork)) hassembled
  · rintro sent ⟨hbooks, hempty, hassembled⟩
    have hready : ServerReady crc32 sent := by
      refine ⟨⟨registry, hbooks⟩, ?_, fragments, reassembled, hassembled⟩
      unfold AcceptsBuildable
      rw [hempty]
      exact fun _ hid => absurd hid List.not_mem_nil
    exact hready.receives hempty datagram

end ServerDriver

section Runs

variable {crc32 : Crc32}

theorem clientRuns_unexpecting {outcome : Drive (AntarcNet Client)}
    (h : (clientDriverRuns crc32).Reachable outcome) :
    Ensures (fun net => ∃ asked, Books crc32 .none .start (ClientSide asked []) net) NotByExpect
      outcome := by
  refine ensures_of_reachable ?_ ?_ h
  · rintro _ ⟨address, rfl⟩
    exact ⟨[], books_newClient crc32 .none address⟩
  rintro net outcome ⟨asked, books⟩ hcall
  cases hcall with
  | carried outcome call =>
    have stable := stable_clientSide crc32 .none asked []
    exact (books.carriedDrive_unexpecting stable call).mono fun _ h => ⟨asked, h⟩
  | connect address now =>
    have hstops : Ensures (fun _ => True) NotByExpect (Prod.snd <$> net.connect address now) := by
      apply Ensures.map
      exact (ensures_attempt (expectsHold_connect _ _ _)).bind fun _ _ => trivial
    exact (books.connectDrive address now).also hstops
  | poll clock datagram =>
    apply Ensures.map
    unfold AntarcNet.clientPoll
    apply (preserves_clientSend_unexpecting clock net books).bind
    intro sent books
    have hbooks := books.clientReceive (clock 9 0) (clock 9 1) datagram
      fun _ _ _ _ => ⟨fun _ _ _ _ => trivial, trivial⟩
    exact (hbooks.also (ensures_clientReceive _ _ datagram)).mono fun _ h => ⟨asked, h⟩

theorem serverRuns_unexpecting {outcome : Drive (AntarcNet Server)}
    (h : (serverDriverRuns crc32).Reachable outcome) :
    Ensures (ServerReady crc32) NotByExpect outcome := by
  refine ensures_of_reachable ?_ ?_ h
  · rintro _ ⟨address, reliableTtl, rfl⟩
    exact ⟨⟨.empty, books_newServer crc32 .none address reliableTtl⟩,
      buildable_newServer reliableTtl, [], [], .start rfl⟩
  rintro net outcome ready hcall
  cases hcall with
  | carried outcome call => exact ready.carriedDrive call
  | poll hash peerHash clock datagram =>
    apply Ensures.map
    exact ready.poll clock datagram

/-- Whatever datagrams arrive and whatever the application asks for, what ends a run of a driver
is never one of the library's `expect`s: what they look up is there. -/
theorem expects_never_fail (crc32 : Crc32) :
    (∀ stopped, (clientDriverRuns crc32).Reachable (.error stopped) →
      ∀ message, stopped.panic ≠ .expect message) ∧
    ∀ stopped, (serverDriverRuns crc32).Reachable (.error stopped) →
      ∀ message, stopped.panic ≠ .expect message := by
  constructor
  · intro stopped h
    exact clientRuns_unexpecting h
  · intro stopped h
    exact serverRuns_unexpecting h

section Stopping

variable (hash : RandomState) (peerHash : ConnectionId → RandomState)

theorem serverPoll_of_parts {clock : Clock} {raw : RawPacket} {net sent : AntarcNet Server}
    {heard polled : Protocol Server} {events : List (ProtocolEvent ServerEvent)}
    (hsent : net.serverSend crc32 clock = .ok sent)
    (hheard : sent.antarc.serverReceived crc32 hash raw (clock 10 0) = .ok (.ok (), heard))
    (hpolled : heard.serverPoll hash peerHash (clock 10 1) (clock 10 2) = .ok (events, polled)) :
    net.serverPoll crc32 hash peerHash clock (some raw) =
      .ok (events, { sent with antarc := polled }) := by
  refine bind_eq_ok.mpr ⟨sent, hsent, ?_⟩
  unfold AntarcNet.serverReceive
  simp only [hheard, AntarcNet.attempt, ok_bind, AntarcNet.report, hpolled]
  rfl

theorem reachable_serverPoll {clock : Clock} {datagram : Option RawPacket}
    {net after : AntarcNet Server} {events : List (ProtocolEvent ServerEvent)}
    {hash : RandomState} {peerHash : ConnectionId → RandomState}
    (h : (serverDriverRuns crc32).Reachable (.ok net))
    (hpolled : net.serverPoll crc32 hash peerHash clock datagram = .ok (events, after)) :
    (serverDriverRuns crc32).Reachable (.ok after) := by
  have hcall : ServerDrive crc32 net _ := .poll hash peerHash clock datagram
  rw [hpolled] at hcall
  exact h.next ⟨net, rfl, hcall⟩

/-- A timer that has moved on by a second when the peers are polled. -/
def halvesClock : Clock :=
  fun pass reading => if pass = 10 ∧ reading = 2 then .fromSecs 1 else .zero

def halvesAccept : Packet ToSend ConnectionAccepted :=
  ⟨⟨0, ⟨.zero, .v4 0 0⟩⟩, .one, 1, ⟨⟨connectionAccepted⟩, .one⟩⟩

def firstServer (awaiting : HashMap ConnectionId (Peer AwaitingConnectionAck))
    (connected : HashMap ConnectionId (Peer Connected))
    (kept : List (Packet Sent ConnectionAccepted)) : AntarcNet Server where
  antarc :=
    { packetIdTracker := 1
      service := { Server.new with
        connectionIdTracker := .two
        awaitingConnectionAck := awaiting
        connected := connected
        reliabilityHandler := .new ⟨kept⟩ }
      reliableTtl := .zero }
  address := .v4 1 1
  socket := [⟨halvesAccept.datagram ieeeCrc32, .connectionAccepted halvesAccept, true⟩]

def waitingServer : AntarcNet Server :=
  firstServer (Finmap.singleton .one ⟨.two, 1, 0, .v4 0 0, ⟨⟨.zero, 0, .zero⟩, 0⟩⟩) ∅
    [halvesAccept.sent .zero .zero]

def holdingServer : AntarcNet Server :=
  firstServer ∅ (Finmap.singleton .one halfwayPeer) []

def servedServer : AntarcNet Server :=
  firstServer ∅ (Finmap.singleton .one (halfwayPeer.keepFragments ∅)) []

theorem newServer_polls :
    (AntarcNet.newServer (.v4 1 1) .zero).serverPoll ieeeCrc32 hash peerHash halvesClock
      (some (requestFrom (.v4 0 0))) = .ok ([], ⟨requestedServer, .v4 1 1, []⟩) := by
  have hsent : (AntarcNet.newServer (.v4 1 1) .zero).serverSend ieeeCrc32 halvesClock =
      .ok (.newServer (.v4 1 1) .zero) := rfl
  have hpolled : requestedServer.serverPoll hash peerHash .zero (.fromSecs 1) =
      .ok ([], requestedServer) := serverPoll_of_nobody rfl rfl
  exact serverPoll_of_parts hash peerHash hsent (newServer_requested hash) hpolled

set_option maxRecDepth 8000 in
/-- It sends its accept, and takes the first half in before the accept is answered. -/
theorem requestedServer_polls :
    (⟨requestedServer, .v4 1 1, []⟩ : AntarcNet Server).serverPoll ieeeCrc32 hash peerHash
      halvesClock (some halfDatagram) = .ok ([], holdingServer) := by
  have hsent : (⟨requestedServer, .v4 1 1, []⟩ : AntarcNet Server).serverSend ieeeCrc32
      halvesClock = .ok waitingServer := rfl
  have hdecode := (Codec.roundTrips_fragment ieeeCrc32 sentHalf (.v4 0 0) .zero rfl).2.1
  let heard := firstServer ∅ (Finmap.singleton .one halfwayPeer) [halvesAccept.sent .zero .zero]
  have hheard : waitingServer.antarc.serverReceived ieeeCrc32 hash halfDatagram .zero =
      .ok (.ok (), heard.antarc) := by
    unfold Protocol.serverReceived Server.onReceived halfDatagram
    rw [hdecode]
    simp only [ok_bind, Server.onFragment]
    rfl
  have hpeer : halfwayPeer.poll (peerHash .one) (.fromSecs 1) = .ok halfwayPeer :=
    poll_of_stale halfwayPeer_judged halfwayPeer_stale
  exact serverPoll_of_parts hash peerHash hsent hheard (serverPoll_of_peer rfl hpeer rfl)

theorem halfwayPeer_completes : halfwayPeer.reassemble secondHalf =
    .ok (halfwayPeer.keepFragments ∅, some [1]) := by
  have hheld : ∀ fragment ∈ [firstHalf], fragment.sequence = secondHalf.sequence := by
    intro fragment hmem
    rw [List.mem_singleton.mp hmem]
    rfl
  exact reassemble_completes rfl hheld rfl

theorem holdingServer_polls :
    holdingServer.serverPoll ieeeCrc32 hash peerHash halvesClock (some restDatagram) =
      .ok ([.dataTransfer .one [1]], servedServer) := by
  have hsent : holdingServer.serverSend ieeeCrc32 halvesClock = .ok holdingServer := rfl
  have hdecode := (Codec.roundTrips_fragment ieeeCrc32 sentRest (.v4 0 0) .zero rfl).2.1
  have hacked : holdingServer.antarc.service.acknowledge secondHalf.message.connectionId
      secondHalf.sequence secondHalf.ack .zero = some holdingServer.antarc.service := rfl
  have hheard : holdingServer.antarc.serverReceived ieeeCrc32 hash restDatagram .zero =
      .ok (.ok (), reassembledFor holdingServer.antarc .one
        (halfwayPeer.keepFragments ∅, some [1])) := by
    unfold Protocol.serverReceived Server.onReceived restDatagram
    rw [hdecode]
    change (holdingServer.antarc.service.onFragment secondHalf .zero >>= _) = _
    unfold Server.onFragment
    simp only [hacked]
    change (halfwayPeer.reassemble secondHalf >>= _) >>= _ = _
    rw [halfwayPeer_completes]
    rfl
  exact serverPoll_of_parts hash peerHash hsent hheard
    (serverPoll_of_peer rfl (poll_of_empty rfl) rfl)

/-- A payload of one chunk and one of two are queued; the poll that sends them finds a datagram
of no bytes. -/
def lastCalls : List (AntarcNet Server → Drive (AntarcNet Server)) :=
  [fun net => Prod.snd <$> net.schedule hash .reliable (.single .one) [1, 2, 3] .zero,
    fun net => Prod.snd <$>
      net.schedule hash .unreliable (.single .one) (List.replicate 1484 7) .zero,
    fun net => Prod.snd <$>
      net.serverPoll ieeeCrc32 hash peerHash halvesClock (some ⟨.v4 0 0, []⟩)]

theorem lastCalls_drive :
    ∀ call ∈ lastCalls hash peerHash, ∀ net, ServerDrive ieeeCrc32 net (call net) := by
  simp only [lastCalls, List.forall_mem_cons, List.not_mem_nil, false_imp_iff, implies_true,
    and_true]
  refine ⟨?_, ?_, ?_⟩ <;> intro net
  · exact .carried _ (.schedule _ _ _ _ _)
  · exact .carried _ (.schedule _ _ _ _ _)
  · exact .poll _ _ _ _

def stopOf : Drive (AntarcNet Server) → Option (Panic × List QueueEntry)
  | .ok _ => none
  | .error stopped => some (stopped.panic, stopped.socket.map sentEntry)

def servedEntries : List QueueEntry :=
  [⟨0, .v4 0 0, .connectionAccepted ⟨⟨connectionAccepted⟩, .one⟩⟩,
    ⟨1, .v4 0 0, .dataTransfer (.new .one [1, 2, 3])⟩,
    ⟨2, .v4 0 0, .fragment (.new .one (List.replicate 1483 7) 0 2)⟩,
    ⟨2, .v4 0 0, .fragment (.new .one [7] 1 2)⟩]

set_option maxRecDepth 20000 in
theorem servedServer_stops : ∃ hash : RandomState,
    stopOf (inTurn (lastCalls hash fun _ => hash) servedServer) =
      some (.overflow, servedEntries) :=
  ⟨Classical.arbitrary RandomState, by decide +kernel⟩

/-- A server accepts a client, puts a payload of two halves together, hands it over, and sends
a transfer and two fragments. What stops it then is the length of a datagram. -/
theorem servedServer_unexpecting : ∃ hash stopped,
    holdingServer.serverPoll ieeeCrc32 hash (fun _ => hash) halvesClock (some restDatagram) =
      .ok ([.dataTransfer .one [1]], servedServer) ∧
    (serverDriverRuns ieeeCrc32).Reachable (.ok servedServer) ∧
    (serverDriverRuns ieeeCrc32).Reachable (.error stopped) ∧
    stopped.panic = .overflow ∧ stopped.socket.map sentEntry = servedEntries ∧
    ∀ message, stopped.panic ≠ .expect message := by
  obtain ⟨hash, hstop⟩ := servedServer_stops
  have hnew : (serverDriverRuns ieeeCrc32).Reachable (.ok (.newServer (.v4 1 1) .zero)) :=
    .start ⟨_, ⟨_, _, rfl⟩, rfl⟩
  have hasked := reachable_serverPoll hnew (newServer_polls hash fun _ => hash)
  have hheld := reachable_serverPoll hasked (requestedServer_polls hash fun _ => hash)
  have hserved := reachable_serverPoll hheld (holdingServer_polls hash fun _ => hash)
  have hrun := reachable_inTurn (lastCalls_drive hash fun _ => hash) hserved
  cases houtcome : inTurn (lastCalls hash fun _ => hash) servedServer with
  | ok after =>
    rw [houtcome] at hstop
    contradiction
  | error stopped =>
    rw [houtcome] at hstop hrun
    obtain ⟨hpanic, hsent⟩ := Prod.mk.inj (Option.some.inj hstop)
    exact ⟨hash, stopped, holdingServer_polls hash fun _ => hash, hserved, hrun, hpanic, hsent,
      (expects_never_fail ieeeCrc32).2 stopped hrun⟩

end Stopping

end Runs

end Antarc.Properties
