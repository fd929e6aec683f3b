import Antarc.Properties.Answering
import Antarc.Properties.Workloads

/-! What a reassembler holds. Fragments enter it when they are received, groups leave it when
they are complete or when they are polled, and no other call touches it. -/
namespace Antarc.Properties

open Library

section Inheritance

variable {before after : HashMap ConnectionId (Peer Connected)} {id : ConnectionId}
  {peer : Peer Connected}

/-- A peer has no groups but those that the peer of its id had before. A new one has none. -/
def Inherits (before : HashMap ConnectionId (Peer Connected)) (id : ConnectionId)
    (peer : Peer Connected) : Prop :=
  (∃ old, before.lookup id = some old ∧
      peer.connection.connectionId = old.connection.connectionId ∧
      ∀ sequence group, peer.connection.reassembler.lookup sequence = some group →
        old.connection.reassembler.lookup sequence = some group) ∨
    peer.connection.connectionId = id ∧ peer.connection.reassembler = ∅

def KeepsGroups (before after : HashMap ConnectionId (Peer Connected)) : Prop :=
  ∀ id peer, after.lookup id = some peer → Inherits before id peer

theorem inherits_of_same {old : Peer Connected} (hfound : before.lookup id = some old)
    (hconnection : peer.connection = old.connection) : Inherits before id peer :=
  .inl ⟨old, hfound, congrArg Connected.connectionId hconnection, fun _ _ h => hconnection ▸ h⟩

theorem KeepsGroups.refl (connected : HashMap ConnectionId (Peer Connected)) :
    KeepsGroups connected connected :=
  fun _ _ hfound => inherits_of_same hfound rfl

theorem KeepsGroups.insert (h : Inherits before id peer) :
    KeepsGroups before (before.insert id peer) := by
  intro other found hfound
  rw [lookup_insert_eq] at hfound
  split at hfound
  · next heq =>
    cases hfound
    rwa [heq]
  · exact inherits_of_same hfound rfl

theorem KeepsGroups.trans {middle : HashMap ConnectionId (Peer Connected)}
    (hfirst : KeepsGroups before middle) (hsecond : KeepsGroups middle after) :
    KeepsGroups before after := by
  intro id peer hfound
  rcases hsecond id peer hfound with ⟨old, hold, hid, hgroups⟩ | hnew
  · rcases hfirst id old hold with ⟨older, holder, hid', hgroups'⟩ | ⟨hid', hempty⟩
    · exact .inl ⟨older, holder, hid.trans hid', fun _ _ h => hgroups' _ _ (hgroups _ _ h)⟩
    · refine .inr ⟨hid.trans hid', ?_⟩
      apply Finmap.ext_lookup
      intro sequence
      cases hlookup : peer.connection.reassembler.lookup sequence with
      | none => rfl
      | some group =>
        have hgroup := hgroups sequence group hlookup
        rw [hempty] at hgroup
        contradiction
  · exact .inr hnew

theorem inherits_of_poll {hash : RandomState} {old polled : Peer Connected} {now : Duration}
    (hfound : before.lookup id = some old) (h : old.poll hash now = .ok polled) :
    Inherits before id polled := by
  rcases poll_removes h with ⟨rfl, -⟩ | ⟨_, _, newest, -, -, -, -, rfl⟩
  · exact inherits_of_same hfound rfl
  · refine .inl ⟨old, hfound, rfl, fun sequence group hgroup => ?_⟩
    change (old.connection.reassembler.erase newest.sequence).lookup sequence = _ at hgroup
    rw [lookup_erase_eq] at hgroup
    split at hgroup
    · contradiction
    · exact hgroup

theorem keepsGroups_advance {A B E : Type} {core next : ServiceCore A B E}
    (h : core.advanceConnected id = .ok next) : KeepsGroups core.connected next.connected := by
  rcases advanceConnected_cases h with ⟨-, rfl⟩ | ⟨peer, advanced, hfound, hadvance, rfl⟩
  · exact .refl _
  · obtain ⟨sequence, -, rfl⟩ := advance_eq_ok.mp hadvance
    exact .insert (inherits_of_same hfound rfl)

end Inheritance

section Calls

variable {S A B E : Type} [Service S A B E]

class PromotesEmpty (S : Type) {A B E : outParam Type} [Service S A B E] : Prop where
  promotes : ∀ (service : S) address id time, KeepsGroups (Service.core service).connected
    (Service.core (Service.promoteAwaiting service address id time)).connected

instance : PromotesEmpty Server where
  promotes _ _ _ _ := .refl _

instance : PromotesEmpty Client where
  promotes client address id time := by
    change KeepsGroups client.connected (client.promoteAwaiting address id time).connected
    unfold Client.promoteAwaiting
    split
    · exact .insert (.inr ⟨rfl, rfl⟩)
    · exact .refl _

theorem keepsGroups_setCore {protocol : Protocol S} {core : ServiceCore A B E}
    (h : KeepsGroups protocol.core.connected core.connected) :
    KeepsGroups protocol.core.connected (protocol.setCore core).core.connected := by
  rwa [core_setCore]

theorem keepsGroups_common [PromotesEmpty S] {protocol next : Protocol S} {kept : Option Duration}
    (h : CommonWork protocol kept next) :
    KeepsGroups protocol.core.connected next.core.connected := by
  cases h with
  | schedule hash reliability sendTo payload now result next call =>
    rcases schedule_cases call with ⟨_, -, rfl⟩ | ⟨_, _, -, -, -, -, rfl⟩
    · exact .refl _
    · change KeepsGroups _ (protocol.setCore _).core.connected
      exact keepsGroups_setCore (.refl _)
  | heartbeat hash reliability sendTo now result next call =>
    rcases heartbeat_cases call with ⟨_, -, rfl⟩ | ⟨_, _, -, -, -, -, rfl⟩
    · exact .refl _
    · change KeepsGroups _ (protocol.setCore _).core.connected
      exact keepsGroups_setCore (.refl _)
  | drain R M start stop drained next call =>
    obtain ⟨_, rfl⟩ := drain_frame call
    exact keepsGroups_setCore (.refl _)
  | sent M packet reliability now next call =>
    obtain ⟨completes, core, -, hcore, rfl⟩ := sent_frame call
    have hpromoted := PromotesEmpty.promotes protocol.service
      packet.delivery.metadata.address (Carried.connectionId packet.message) now
    have hadvanced : KeepsGroups (Service.core (Service.promoteAwaiting protocol.service
        packet.delivery.metadata.address (Carried.connectionId packet.message) now)).connected
        core.connected := by
      cases completes with
      | false =>
        cases hcore
        exact .refl _
      | true => exact keepsGroups_advance hcore
    change KeepsGroups _ (Service.core (Service.setCore _ _)).connected
    rw [Service.core_setCore]
    exact hpromoted.trans hadvanced
  | retry M now packet next call =>
    obtain ⟨_, -, rfl⟩ := retry_frame call
    exact keepsGroups_setCore (.refl _)

theorem keepsGroups_server {protocol next : Protocol Server} {kept : Option Duration}
    (h : ServerWork protocol kept next) :
    KeepsGroups protocol.core.connected next.core.connected := by
  cases h with
  | common call => exact keepsGroups_common call
  | drainConnectionAccepted start stop drained next call =>
    obtain ⟨_, -, rfl⟩ := drainConnectionAccepted_frame call
    exact .refl _
  | sentConnectionAccepted packet now next call =>
    obtain ⟨_, -, rfl⟩ := sentConnectionAccepted_frame call
    exact .refl _
  | retryConnectionAccepted now packet next call =>
    obtain ⟨_, -, rfl⟩ := retryConnectionAccepted_frame call
    exact .refl _
  | poll hash peerHash elapsed now events next call =>
    obtain ⟨_, connected, -, hconnected, -, rfl⟩ := serverPoll_frame call
    intro id peer hfound
    rcases lookup_updateEach_walk _ _ hconnected id with
      ⟨-, hnone⟩ | ⟨old, polled, hold, hpoll, hpolled⟩
    · cases hnone.symm.trans hfound
    · cases hpolled.symm.trans hfound
      exact inherits_of_poll hold hpoll

theorem keepsGroups_client {protocol next : Protocol Client} {kept : Option Duration}
    (h : ClientWork protocol kept next) :
    KeepsGroups protocol.core.connected next.core.connected := by
  cases h with
  | common call => exact keepsGroups_common call
  | connect address now result next call =>
    rcases connect_cases call with ⟨_, -, rfl⟩ | ⟨_, -, -, -, rfl⟩
    · exact .refl _
    · exact .refl _
  | drainConnectionRequest start stop drained next call =>
    obtain ⟨_, -, rfl⟩ := drainConnectionRequest_frame call
    exact .refl _
  | sentConnectionRequest packet now next call =>
    obtain ⟨_, _, -, -, rfl⟩ := sentConnectionRequest_frame call
    exact .refl _
  | resendConnectionRequest now packet next call =>
    obtain ⟨_, -, rfl⟩ := resend_frame call
    exact .refl _
  | poll elapsed events next call =>
    obtain ⟨_, -, -, rfl⟩ := clientPoll_frame call
    exact .refl _

end Calls

section Receipts

variable {A B E : Type}

/-- What receiving a datagram does to the groups: none comes in, or a fragment is read, and the
peer of its id takes it. -/
inductive Receipt (read : List (Packet Received Fragment)) (before after : ServiceCore A B E) :
    Prop where
  | plain (kept : KeepsGroups before.connected after.connected)
      (quiet : read = [] ∨ after.api = before.api)
  | fragment (packet : Packet Received Fragment) (peer joined : Peer Connected)
      (whole : Option Payload) (reads : read = [packet])
      (inherits : Inherits before.connected packet.message.connectionId peer)
      (reassembles : peer.reassemble packet = .ok (joined, whole))
      (connected : after.connected =
        before.connected.insert packet.message.connectionId joined)
      (api : after.api =
        before.api ++ whole.toList.map (.dataTransfer packet.message.connectionId))

theorem acknowledge_inherits {server acked : Server} {id : ConnectionId} {sequence : Sequence}
    {ack : Ack} {time : Duration} (h : server.acknowledge id sequence ack time = some acked) :
    ∃ peer, Inherits server.connected id peer ∧
      acked.connected = server.connected.insert id peer ∧ acked.api = server.api := by
  unfold Server.acknowledge at h
  split at h
  · next peer hfound =>
    cases h
    exact ⟨peer.acknowledge sequence ack, inherits_of_same hfound rfl, rfl, rfl⟩
  · split at h
    · next peer _ =>
      cases h
      exact ⟨(peer.acknowledge sequence ack).connected time id, .inr ⟨rfl, rfl⟩, rfl, rfl⟩
    · contradiction

theorem acceptConnection_connected (server : Server) (id : ConnectionId) (packetId : PacketId)
    (time : Duration) : (server.acceptConnection id packetId time).connected = server.connected := by
  unfold Server.acceptConnection
  split <;> rfl

theorem server_fragment_receipt {server next : Server} {packet : Packet Received Fragment}
    {time : Duration} {result : Result Bool}
    (h : server.onFragment packet time = .ok (result, next)) :
    Receipt [packet] server.toServiceCore next.toServiceCore := by
  unfold Server.onFragment at h
  dsimp only at h
  cases hacked : server.acknowledge packet.message.connectionId packet.sequence packet.ack time with
  | none =>
    rw [hacked] at h
    cases h
    exact .plain (.refl _) (.inr rfl)
  | some acked =>
    rw [hacked] at h
    obtain ⟨peer, hinherits, hconnected, hapi⟩ := acknowledge_inherits hacked
    obtain ⟨found, hfound, h⟩ := bind_eq_ok.mp h
    rw [expect_eq_ok, hconnected, Finmap.lookup_insert] at hfound
    cases hfound
    obtain ⟨⟨joined, whole⟩, hreassemble, h⟩ := bind_eq_ok.mp h
    rw [hconnected, Finmap.insert_insert] at h
    cases whole with
    | none =>
      cases h
      exact .fragment packet peer joined none rfl hinherits hreassemble rfl
        (hapi.trans (List.append_nil _).symm)
    | some payload =>
      cases h
      exact .fragment packet peer joined (some payload) rfl hinherits hreassemble rfl
        (congrArg (· ++ _) hapi)

theorem keepsGroups_acknowledge {server acked : Server} {id : ConnectionId} {sequence : Sequence}
    {ack : Ack} {time : Duration} (h : server.acknowledge id sequence ack time = some acked) :
    KeepsGroups server.connected acked.connected := by
  obtain ⟨peer, hinherits, hconnected, -⟩ := acknowledge_inherits h
  rw [hconnected]
  exact .insert hinherits

theorem keepsGroups_transfer {server next : Server} {packet : Packet Received DataTransfer}
    {time : Duration} {result : Result Bool}
    (h : server.onDataTransfer packet time = .ok (result, next)) :
    KeepsGroups server.connected next.connected := by
  unfold Server.onDataTransfer at h
  dsimp only at h
  split at h
  · next hacked =>
    have hkept := keepsGroups_acknowledge hacked
    cases h
    exact hkept
  · cases h
    exact .refl _

theorem keepsGroups_heartbeat {server next : Server} {packet : Packet Received Heartbeat}
    {time : Duration} {result : Result Bool}
    (h : server.onHeartbeat packet time = .ok (result, next)) :
    KeepsGroups server.connected next.connected := by
  unfold Server.onHeartbeat at h
  dsimp only at h
  split at h
  · next hacked =>
    have hkept := keepsGroups_acknowledge hacked
    cases h
    exact hkept
  · cases h
    exact .refl _

theorem connected_of_admits {server next : Server} {packet : Packet Received ConnectionRequest}
    {packetId : PacketId} {time : Duration} (h : ServerAdmits server packet packetId time next) :
    next.connected = server.connected := by
  cases h with
  | again id peer asking found => exact acceptConnection_connected _ _ _ _
  | registered tracker unknown counted => rfl

theorem onReceived_receipt {crc32 : Crc32} {hash : RandomState} {server next : Server}
    {raw : RawPacket} {packetId : PacketId} {time : Duration} {result : Result Bool}
    (h : server.onReceived crc32 hash raw packetId time = .ok (result, next)) :
    Receipt (readAtServer crc32 raw time) server.toServiceCore next.toServiceCore := by
  obtain ⟨decoded, hdecode, h⟩ := bind_eq_ok.mp h
  unfold readAtServer
  rw [hdecode]
  rcases decoded with error | packet | packet | packet | packet
  · cases h
    exact .plain (.refl _) (.inl rfl)
  · refine .plain ?_ (.inl rfl)
    rcases server_onConnectionRequest_cases h with rfl | ⟨-, hadmits⟩
    · exact .refl _
    · rw [connected_of_admits hadmits]
      exact .refl _
  · exact .plain (keepsGroups_transfer h) (.inl rfl)
  · exact server_fragment_receipt h
  · exact .plain (keepsGroups_heartbeat h) (.inl rfl)

theorem server_receipt {crc32 : Crc32} {raw : RawPacket} {now : Duration}
    {before after : Protocol Server} (h : ServerReceives crc32 raw now before after) :
    Receipt (readAtServer crc32 raw now) before.core after.core := by
  obtain ⟨hash, _, h⟩ := h
  obtain ⟨_, h, -⟩ := serverReceived_onReceived h
  exact onReceived_receipt h

theorem client_fragment_receipt {client next : Client} {packet : Packet Received Fragment}
    {result : Result Unit} (h : client.onFragment packet = .ok (result, next)) :
    Receipt [packet] client.toServiceCore next.toServiceCore := by
  unfold Client.onFragment at h
  dsimp only at h
  cases hfound : client.connected.lookup packet.message.connectionId with
  | none =>
    rw [hfound] at h
    cases h
    exact .plain (.refl _) (.inr rfl)
  | some peer =>
    rw [hfound] at h
    dsimp only at h
    obtain ⟨found, hexpect, h⟩ := bind_eq_ok.mp h
    cases (Finmap.lookup_insert _).symm.trans (expect_eq_ok.mp hexpect)
    obtain ⟨⟨joined, whole⟩, hreassemble, h⟩ := bind_eq_ok.mp h
    rw [Finmap.insert_insert] at h
    have hinherits : Inherits client.connected packet.message.connectionId
        (peer.acknowledge packet.sequence packet.ack) := inherits_of_same hfound rfl
    cases whole with
    | none =>
      cases h
      exact .fragment packet _ joined none rfl hinherits hreassemble rfl
        (List.append_nil _).symm
    | some payload =>
      cases h
      exact .fragment packet _ joined (some payload) rfl hinherits hreassemble rfl rfl

theorem keepsGroups_client_accepted (client : Client) (packet : Packet Received ConnectionAccepted)
    (time : Duration) :
    KeepsGroups client.connected (client.onConnectionAccepted packet time).2.connected := by
  unfold Client.onConnectionAccepted
  dsimp only
  split
  · exact .refl _
  · split
    · exact .insert (.inr ⟨rfl, rfl⟩)
    · exact .refl _

theorem keepsGroups_client_transfer (client : Client) (packet : Packet Received DataTransfer)
    (time : Duration) :
    KeepsGroups client.connected (client.onDataTransfer packet time).2.connected := by
  unfold Client.onDataTransfer
  dsimp only
  split
  · next peer hfound => exact .insert (inherits_of_same hfound rfl)
  · split
    · exact .insert (.inr ⟨rfl, rfl⟩)
    · exact .refl _

theorem keepsGroups_client_heartbeat (client : Client) (packet : Packet Received Heartbeat)
    (time : Duration) :
    KeepsGroups client.connected (client.onHeartbeat packet time).2.connected := by
  unfold Client.onHeartbeat
  dsimp only
  split
  · next peer hfound => exact .insert (inherits_of_same hfound rfl)
  · split
    · exact .insert (.inr ⟨rfl, rfl⟩)
    · exact .refl _

theorem client_receipt {crc32 : Crc32} {raw : RawPacket} {now : Duration}
    {before after : Protocol Client} (h : ClientReceives crc32 raw now before after) :
    Receipt (readAtClient crc32 raw now) before.core after.core := by
  obtain ⟨_, h⟩ := h
  obtain ⟨⟨_, service⟩, hreceived, hafter⟩ := bind_eq_ok.mp h
  cases hafter
  change Receipt _ before.service.toServiceCore service.toServiceCore
  obtain ⟨decoded, hdecode, h⟩ := bind_eq_ok.mp hreceived
  unfold readAtClient
  rw [hdecode]
  rcases decoded with error | packet | packet | packet | packet
  · cases h
    exact .plain (.refl _) (.inl rfl)
  · have hkept := keepsGroups_client_accepted before.service packet now
    rw [Except.ok.inj h] at hkept
    exact .plain hkept (.inl rfl)
  · have hkept := keepsGroups_client_transfer before.service packet now
    rw [Except.ok.inj h] at hkept
    exact .plain hkept (.inl rfl)
  · exact client_fragment_receipt h
  · have hkept := keepsGroups_client_heartbeat before.service packet now
    rw [Except.ok.inj h] at hkept
    exact .plain hkept (.inl rfl)

end Receipts

end Antarc.Properties
