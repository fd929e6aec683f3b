import Antarc.Library.Interleaving
import Antarc.Properties.Answering

/-! Connections do not disturb each other. What a service keeps for a connection, and what it
hands over from it, follows from the datagrams of that connection alone; so it does not matter
how the network mixes the datagrams of different connections. -/
namespace Antarc.Properties

open Library

section Links

/-- What a server keeps of one connection, and the events of it that are to be handed over. -/
structure Link where
  awaiting : Option (Peer AwaitingConnectionAck)
  connected : Option (Peer Connected)
  events : List (ProtocolEvent ServerEvent)

def eventKey : ProtocolEvent ServerEvent → Option ConnectionId
  | .dataTransfer id _ => some id
  | _ => none

namespace Link

def acknowledge (id : ConnectionId) (sequence : Sequence) (ack : Ack) (time : Duration)
    (link : Link) : Option Link :=
  match link.connected with
  | some peer => some { link with connected := some (peer.acknowledge sequence ack) }
  | none => link.awaiting.map fun peer => { link with
      awaiting := none
      connected := some ((peer.acknowledge sequence ack).connected time id) }

def hand (id : ConnectionId) (payloads : List Payload) (link : Link) : Link :=
  { link with events := link.events ++ payloads.map (.dataTransfer id) }

def reassemble (packet : Packet Received Fragment) (link : Link) : Link :=
  match link.connected with
  | some peer =>
      match peer.reassemble packet with
      | .ok (peer, whole) =>
          { link with connected := some peer }.hand packet.message.connectionId whole.toList
      | .error _ => link
  | none => link

def hears (time : Duration) (link : Link) : DecodedForServer → Link
  | .connectionRequest _ => link
  | .dataTransfer packet =>
      match link.acknowledge packet.message.connectionId packet.sequence packet.ack time with
      | some next => next.hand packet.message.connectionId [packet.message.payload]
      | none => link
  | .fragment packet =>
      match link.acknowledge packet.message.connectionId packet.sequence packet.ack time with
      | some next => next.reassemble packet
      | none => link
  | .heartbeat packet =>
      (link.acknowledge packet.message.connectionId packet.sequence packet.ack time).getD link

end Link

end Links

section Server

def serverLink (server : Server) (id : ConnectionId) : Link :=
  ⟨server.awaitingConnectionAck.lookup id, server.connected.lookup id, ofKey eventKey server.api id⟩

structure Touches (id : ConnectionId) (payloads : List Payload) (server next : Server) : Prop where
  awaiting : ∀ other, other ≠ id →
    next.awaitingConnectionAck.lookup other = server.awaitingConnectionAck.lookup other
  connected : ∀ other, other ≠ id → next.connected.lookup other = server.connected.lookup other
  api : next.api = server.api ++ payloads.map (.dataTransfer id)
  rest : next = { server with
      awaitingConnectionAck := next.awaitingConnectionAck
      connected := next.connected
      api := next.api }

theorem ofKey_handed (id other : ConnectionId) (payloads : List Payload) :
    ofKey eventKey (payloads.map (.dataTransfer id)) other =
      if other = id then payloads.map (.dataTransfer id) else [] := by
  unfold ofKey
  rw [List.filter_map]
  split
  · next h =>
    subst h
    simp [Function.comp_def, eventKey]
  · next h => simp [Function.comp_def, eventKey, Ne.symm h]

variable {server middle next : Server} {id : ConnectionId} {payloads more : List Payload}

theorem Touches.refl (id : ConnectionId) (server : Server) : Touches id [] server server :=
  ⟨fun _ _ => rfl, fun _ _ => rfl, (List.append_nil _).symm, rfl⟩

theorem Touches.trans (h : Touches id payloads server middle) (h' : Touches id more middle next) :
    Touches id (payloads ++ more) server next where
  awaiting := fun other hother => (h'.awaiting other hother).trans (h.awaiting other hother)
  connected := fun other hother => (h'.connected other hother).trans (h.connected other hother)
  api := by rw [h'.api, h.api, List.map_append, List.append_assoc]
  rest := h'.rest.trans (congrArg (fun kept : Server => { kept with
    awaitingConnectionAck := next.awaitingConnectionAck
    connected := next.connected
    api := next.api }) h.rest)

theorem Touches.others (h : Touches id payloads server next) {other : ConnectionId}
    (hother : other ≠ id) : serverLink next other = serverLink server other := by
  have hevents : ofKey eventKey next.api other = ofKey eventKey server.api other := by
    rw [h.api, ofKey_append, ofKey_handed, if_neg hother, List.append_nil]
  rw [serverLink, h.awaiting other hother, h.connected other hother, hevents]
  rfl

theorem serverLink_acknowledge {sequence : Sequence} {ack : Ack} {time : Duration}
    (h : server.acknowledge id sequence ack time = some next) :
    Touches id [] server next ∧
      (serverLink server id).acknowledge id sequence ack time = some (serverLink next id) := by
  unfold Server.acknowledge at h
  unfold Link.acknowledge
  cases hconnected : server.connected.lookup id with
  | some peer =>
    rw [hconnected] at h
    cases h
    refine ⟨⟨fun _ _ => rfl, fun other hother => Finmap.lookup_insert_of_ne _ hother,
      (List.append_nil _).symm, rfl⟩, ?_⟩
    simp [serverLink, hconnected]
  | none =>
    rw [hconnected] at h
    cases hawaiting : server.awaitingConnectionAck.lookup id with
    | none =>
      rw [hawaiting] at h
      contradiction
    | some peer =>
      rw [hawaiting] at h
      cases h
      refine ⟨⟨fun other hother => Finmap.lookup_erase_ne hother,
        fun other hother => Finmap.lookup_insert_of_ne _ hother, (List.append_nil _).symm, rfl⟩, ?_⟩
      simp [serverLink, hconnected, hawaiting]

theorem serverLink_unknown {sequence : Sequence} {ack : Ack} {time : Duration}
    (h : server.acknowledge id sequence ack time = none) :
    (serverLink server id).acknowledge id sequence ack time = none := by
  unfold Server.acknowledge at h
  unfold Link.acknowledge
  cases hconnected : server.connected.lookup id with
  | some peer =>
    rw [hconnected] at h
    contradiction
  | none =>
    cases hawaiting : server.awaitingConnectionAck.lookup id with
    | none => simp [serverLink, hconnected, hawaiting]
    | some peer =>
      rw [hconnected, hawaiting] at h
      contradiction

theorem touches_push (server : Server) (id : ConnectionId) (payloads : List Payload) :
    Touches id payloads server { server with api := server.api ++ payloads.map (.dataTransfer id) } ∧
      serverLink { server with api := server.api ++ payloads.map (.dataTransfer id) } id =
        (serverLink server id).hand id payloads := by
  refine ⟨⟨fun _ _ => rfl, fun _ _ => rfl, rfl, rfl⟩, ?_⟩
  unfold serverLink Link.hand
  rw [ofKey_append, ofKey_handed, if_pos rfl]

/-- A packet of a connection does to a server what it does to the connection. -/
structure HearsAlone (id : ConnectionId) (server next : Server)
    (hears : Link → Link) : Prop where
  touches : ∃ payloads, Touches id payloads server next
  link : serverLink next id = hears (serverLink server id)

theorem server_dataTransfer_alone {packet : Packet Received DataTransfer} {time : Duration}
    {result : Result Bool} (h : server.onDataTransfer packet time = .ok (result, next)) :
    HearsAlone packet.message.connectionId server next
      fun link => link.hears time (.dataTransfer packet) := by
  unfold Server.onDataTransfer at h
  dsimp only at h
  split at h
  · next acked hacked =>
    obtain ⟨htouches, hlink⟩ := serverLink_acknowledge hacked
    obtain ⟨hpushes, hpushed⟩ :=
      touches_push acked packet.message.connectionId [packet.message.payload]
    cases h
    refine ⟨⟨_, htouches.trans hpushes⟩, ?_⟩
    simp only [Link.hears, hlink]
    exact hpushed
  · next hunknown =>
    cases h
    refine ⟨⟨_, .refl _ _⟩, ?_⟩
    simp only [Link.hears, serverLink_unknown hunknown]

theorem server_heartbeat_alone {packet : Packet Received Heartbeat} {time : Duration}
    {result : Result Bool} (h : server.onHeartbeat packet time = .ok (result, next)) :
    HearsAlone packet.message.connectionId server next
      fun link => link.hears time (.heartbeat packet) := by
  unfold Server.onHeartbeat at h
  dsimp only at h
  split at h
  · next acked hacked =>
    obtain ⟨htouches, hlink⟩ := serverLink_acknowledge hacked
    cases h
    refine ⟨⟨_, htouches⟩, ?_⟩
    simp only [Link.hears, hlink, Option.getD_some]
  · next hunknown =>
    cases h
    refine ⟨⟨_, .refl _ _⟩, ?_⟩
    simp only [Link.hears, serverLink_unknown hunknown, Option.getD_none]

theorem server_fragment_alone {packet : Packet Received Fragment} {time : Duration}
    {result : Result Bool} (h : server.onFragment packet time = .ok (result, next)) :
    HearsAlone packet.message.connectionId server next
      fun link => link.hears time (.fragment packet) := by
  unfold Server.onFragment at h
  dsimp only at h
  split at h
  · next acked hacked =>
    obtain ⟨htouches, hlink⟩ := serverLink_acknowledge hacked
    obtain ⟨peer, hpeer, h⟩ := bind_eq_ok.mp h
    obtain ⟨⟨joined, whole⟩, hjoined, h⟩ := bind_eq_ok.mp h
    replace hpeer := expect_eq_ok.mp hpeer
    let inserted : Server := { acked with
      connected := acked.connected.insert packet.message.connectionId joined }
    let events : List (ProtocolEvent ServerEvent) :=
      whole.toList.map (.dataTransfer packet.message.connectionId)
    have hnext : next = { inserted with api := inserted.api ++ events } := by
      cases whole with
      | none =>
        cases h
        simp [inserted, events]
      | some payload =>
        cases h
        rfl
    have hinsert : Touches packet.message.connectionId [] acked inserted :=
      ⟨fun _ _ => rfl, fun other hother => Finmap.lookup_insert_of_ne _ hother,
        (List.append_nil _).symm, rfl⟩
    obtain ⟨hpushes, hpushed⟩ := touches_push inserted packet.message.connectionId whole.toList
    rw [hnext]
    refine ⟨⟨_, (htouches.trans hinsert).trans hpushes⟩, ?_⟩
    simp only [Link.hears, hlink]
    rw [hpushed]
    simp [Link.reassemble, serverLink, hpeer, hjoined, inserted]
  · next hunknown =>
    cases h
    refine ⟨⟨_, .refl _ _⟩, ?_⟩
    simp only [Link.hears, serverLink_unknown hunknown]

end Server

structure TimedArrival where
  raw : RawPacket
  now : Duration

section ServerRuns

variable {crc32 : Crc32} {hash : RandomState} {protocol next start : Protocol Server}
  {arrival : TimedArrival}

def readBy (crc32 : Crc32) (arrival : TimedArrival) : Exec (Result DecodedForServer) :=
  arrival.raw.decode crc32 DecodedForServer.tryFrom arrival.now

def serverConnection (crc32 : Crc32) (arrival : TimedArrival) : Option ConnectionId :=
  match readBy crc32 arrival with
  | .ok (.ok decoded) => (forServerHeader decoded).map Header.connectionId
  | _ => none

def serverParts (crc32 : Crc32) :
    Partition (Protocol Server) TimedArrival ConnectionId (Link) where
  part := serverConnection crc32
  view protocol := serverLink protocol.service
  act arrival link :=
    match readBy crc32 arrival with
    | .ok (.ok decoded) => link.hears arrival.now decoded
    | _ => link

def RequestFree (crc32 : Crc32) (arrival : TimedArrival) : Prop :=
  ∀ packet, readBy crc32 arrival ≠ .ok (.ok (.connectionRequest packet))

def serverTakes (crc32 : Crc32) (hash : RandomState) (protocol : Protocol Server)
    (arrival : TimedArrival) : Exec (Protocol Server) :=
  Prod.snd <$> protocol.serverReceived crc32 hash arrival.raw arrival.now

/-- Nothing changed but what is kept for connections and handed over from them. -/
structure KeepsRest (start protocol : Protocol Server) : Prop where
  state : protocol = { start with service := { start.service with
    awaitingConnectionAck := protocol.service.awaitingConnectionAck
    connected := protocol.service.connected
    api := protocol.service.api } }
  events : (protocol.service.api.filter fun event => eventKey event = none) =
    start.service.api.filter fun event => eventKey event = none

theorem KeepsRest.touched {id : ConnectionId} {payloads : List Payload} {service : Server}
    (h : KeepsRest start protocol) (htouches : Touches id payloads protocol.service service) :
    KeepsRest start { protocol with service := service } where
  state := (congrArg (fun kept : Server => { protocol with service := kept }) htouches.rest).trans
    (congrArg (fun kept : Protocol Server => { kept with service := { kept.service with
      awaitingConnectionAck := service.awaitingConnectionAck
      connected := service.connected
      api := service.api } }) h.state)
  events := by
    have hnone : (payloads.map (ProtocolEvent.dataTransfer id : Payload →
        ProtocolEvent ServerEvent)).filter (fun event => eventKey event = none) = [] := by
      simp [List.filter_map, Function.comp_def, eventKey]
    rw [← h.events, htouches.api, List.filter_append, hnone, List.append_nil]

theorem HearsAlone.moves {id : ConnectionId} {decoded : DecodedForServer} {service : Server}
    (hread : readBy crc32 arrival = .ok (.ok decoded))
    (hid : (forServerHeader decoded).map Header.connectionId = some id)
    (h : HearsAlone id protocol.service service fun link => link.hears arrival.now decoded) :
    (serverParts crc32).Moves arrival protocol { protocol with service := service } := by
  have hpart : (serverParts crc32).part arrival = some id := by
    simp only [serverParts, serverConnection, hread, hid]
  obtain ⟨payloads, htouches⟩ := h.touches
  constructor
  · intro other hother
    cases hpart.symm.trans hother
    simp only [serverParts, hread]
    exact h.link
  · intro other hother
    exact htouches.others fun hsame => hother (hsame ▸ hpart)

theorem serverTakes_moves (hfree : RequestFree crc32 arrival) (hrest : KeepsRest start protocol)
    (h : serverTakes crc32 hash protocol arrival = .ok next) :
    KeepsRest start next ∧ (serverParts crc32).Moves arrival protocol next := by
  obtain ⟨⟨outcome, after⟩, hreceived, hafter⟩ := map_eq_ok.mp h
  change after = next at hafter
  rw [← hafter]
  obtain ⟨⟨answered, service⟩, hanswered, hnext⟩ := bind_eq_ok.mp hreceived
  obtain ⟨read, hread, hanswered⟩ := bind_eq_ok.mp hanswered
  have hsettles : ∀ id decoded, (forServerHeader decoded).map Header.connectionId = some id →
      readBy crc32 arrival = .ok (.ok decoded) → answered ≠ .ok true →
      (HearsAlone id protocol.service service fun link => link.hears arrival.now decoded) →
      KeepsRest start after ∧ (serverParts crc32).Moves arrival protocol after := by
    intro id decoded hid hdecoded hcount halone
    have hsame : after = { protocol with service := service } := by
      rcases answered with error | (_ | _)
      · cases hnext
        rfl
      · cases hnext
        rfl
      · exact absurd rfl hcount
    obtain ⟨payloads, htouches⟩ := halone.touches
    rw [hsame]
    exact ⟨hrest.touched htouches, halone.moves hdecoded hid⟩
  rcases read with error | packet | packet | packet | packet
  · cases hanswered
    cases hnext
    refine ⟨hrest, ⟨fun id hid => ?_, fun _ _ => rfl⟩⟩
    simp only [serverParts, serverConnection, readBy, hread] at hid
    contradiction
  · exact absurd hread (hfree packet)
  · obtain ⟨_, hsame, hcount⟩ := returns_iff.mp (returns_onDataTransfer _ packet arrival.now)
    cases hsame.symm.trans hanswered
    exact hsettles _ (.dataTransfer packet) rfl hread hcount (server_dataTransfer_alone hanswered)
  · obtain ⟨_, hsame, hcount⟩ := returns_iff.mp (returns_server_onFragment _ packet arrival.now)
    cases hsame.symm.trans hanswered
    exact hsettles _ (.fragment packet) rfl hread hcount (server_fragment_alone hanswered)
  · obtain ⟨_, hsame, hcount⟩ := returns_iff.mp (returns_onHeartbeat _ packet arrival.now)
    cases hsame.symm.trans hanswered
    exact hsettles _ (.heartbeat packet) rfl hread hcount (server_heartbeat_alone hanswered)

theorem serverTakes_returns_iff (hash : RandomState) (protocol : Protocol Server)
    (hfree : RequestFree crc32 arrival) :
    (∃ next, serverTakes crc32 hash protocol arrival = .ok next) ↔
      ∃ read, readBy crc32 arrival = .ok read := by
  constructor
  · rintro ⟨next, h⟩
    obtain ⟨_, hreceived, -⟩ := map_eq_ok.mp h
    obtain ⟨_, hanswered, -⟩ := bind_eq_ok.mp hreceived
    obtain ⟨read, hread, -⟩ := bind_eq_ok.mp hanswered
    exact ⟨read, hread⟩
  · rintro ⟨read, hread⟩
    suffices hreturns : Returns UsesNoPacketId (protocol.service.onReceived crc32 hash arrival.raw
        protocol.packetIdTracker arrival.now) by
      obtain ⟨⟨answered, service⟩, hanswered, hcount⟩ := returns_iff.mp hreturns
      unfold serverTakes Protocol.serverReceived
      rw [hanswered]
      rcases answered with error | (_ | _)
      · exact ⟨_, rfl⟩
      · exact ⟨_, rfl⟩
      · exact absurd rfl hcount
    unfold Server.onReceived
    rw [show arrival.raw.decode crc32 DecodedForServer.tryFrom arrival.now = .ok read from hread]
    rcases read with error | packet | packet | packet | packet
    · exact usesNoPacketId_error _ _
    · exact absurd hread (hfree packet)
    · exact returns_onDataTransfer _ packet arrival.now
    · exact returns_server_onFragment _ packet arrival.now
    · exact returns_onHeartbeat _ packet arrival.now

/-- Servers that differ at most in the order in which they hand over the events of different
connections. -/
structure Alike (server other : Protocol Server) : Prop where
  state : other = { server with service := { server.service with api := other.service.api } }
  handed : Shuffles eventKey server.service.api other.service.api

theorem alike_of_links {other : Protocol Server} (h : KeepsRest start protocol)
    (hother : KeepsRest start other)
    (hlinks : ∀ id, serverLink protocol.service id = serverLink other.service id) :
    Alike protocol other where
  state := by
    have hawaiting : other.service.awaitingConnectionAck =
        protocol.service.awaitingConnectionAck :=
      Finmap.ext_lookup fun id => congrArg Link.awaiting (hlinks id).symm
    have hconnected : other.service.connected = protocol.service.connected :=
      Finmap.ext_lookup fun id => congrArg Link.connected (hlinks id).symm
    have hstate := hother.state
    rw [hawaiting, hconnected] at hstate
    exact hstate.trans (congrArg (fun kept : Protocol Server => { kept with
      service := { kept.service with api := other.service.api } }) h.state.symm)
  handed :=
    have hevents : ∀ id, ofKey eventKey protocol.service.api id =
        ofKey eventKey other.service.api id := fun id => congrArg Link.events (hlinks id)
    ⟨perm_of_ofKey eventKey hevents (h.events.trans hother.events.symm), hevents⟩

theorem serverTakes_steps (crc32 : Crc32) (hash : RandomState) (start : Protocol Server) :
    (serverParts crc32).Steps (serverTakes crc32 hash) (KeepsRest start) (RequestFree crc32)
      fun arrival => ∃ read, readBy crc32 arrival = .ok read where
  moves := fun _ _ _ hrest hfree h => serverTakes_moves hfree hrest h
  returns := fun protocol _ _ hfree => serverTakes_returns_iff hash protocol hfree

/-- However the network mixes the datagrams of different connections, a server comes to the same
state and hands over the same events, those of each connection in the same order; and whether it
comes through depends on the datagrams alone. -/
theorem interleavings_agree (crc32 : Crc32) (hash : RandomState) (start : Protocol Server)
    {arrivals other : List TimedArrival}
    (hshuffles : Shuffles (serverConnection crc32) arrivals other)
    (hfree : ∀ arrival ∈ arrivals, RequestFree crc32 arrival) :
    ((∃ after, arrivals.foldlM (serverTakes crc32 hash) start = .ok after) ↔
      ∀ arrival ∈ arrivals, ∃ read, readBy crc32 arrival = .ok read) ∧
    ∀ after, arrivals.foldlM (serverTakes crc32 hash) start = .ok after →
      ∃ after', other.foldlM (serverTakes crc32 hash) start = .ok after' ∧ Alike after after' := by
  have hstart : KeepsRest start start := ⟨rfl, rfl⟩
  have steps := serverTakes_steps crc32 hash start
  refine ⟨steps.returns_iff hfree hstart, fun after h => ?_⟩
  obtain ⟨after', h', hrest, hrest', hlinks⟩ := steps.shuffled hshuffles hfree hstart h
  exact ⟨after', h', alike_of_links hrest hrest' hlinks⟩

end ServerRuns

def transferOn (id : ConnectionId) : Packet ToSend DataTransfer :=
  ⟨⟨0, ⟨.zero, .v4 1 1⟩⟩, .one, 1, .new id [1]⟩

def transferArrival (id : ConnectionId) : TimedArrival :=
  ⟨⟨.v4 0 0, ((transferOn id).datagram ieeeCrc32).bytes⟩, .zero⟩

theorem readBy_transferArrival (id : ConnectionId) :
    readBy ieeeCrc32 (transferArrival id) =
      .ok (.ok (.dataTransfer (Codec.arrived (transferOn id) (.v4 0 0) .zero))) :=
  (Codec.roundTrips_dataTransfer ieeeCrc32 (transferOn id) (.v4 0 0) .zero rfl).2.1

def pairedServer : Protocol Server :=
  let peer := (Peer.new .zero (.v4 0 0) 1).awaitConnectionAck .zero
  ⟨0, { Server.new with
    awaitingConnectionAck := (Finmap.singleton .one peer).insert .two peer }, .zero⟩

/-- A transfer of each of them, in the one order and in the other. -/
theorem transfers_swapped :
    ∃ after after',
      [transferArrival .one, transferArrival .two].foldlM
        (serverTakes ieeeCrc32 (Classical.arbitrary RandomState)) pairedServer = .ok after ∧
      [transferArrival .two, transferArrival .one].foldlM
        (serverTakes ieeeCrc32 (Classical.arbitrary RandomState)) pairedServer = .ok after' ∧
      Alike after after' := by
  have hread : ∀ arrival ∈ [transferArrival .one, transferArrival .two],
      ∃ id, arrival = transferArrival id := by
    intro arrival hmem
    rcases List.mem_pair.mp hmem with rfl | rfl
    · exact ⟨_, rfl⟩
    · exact ⟨_, rfl⟩
  have hkeys : serverConnection ieeeCrc32 (transferArrival .one) ≠
      serverConnection ieeeCrc32 (transferArrival .two) := by
    rw [serverConnection, serverConnection, readBy_transferArrival, readBy_transferArrival]
    decide
  obtain ⟨hreturns, halike⟩ := interleavings_agree ieeeCrc32 (Classical.arbitrary RandomState)
    pairedServer (.swap _ hkeys [] []) fun arrival hmem => by
      obtain ⟨id, rfl⟩ := hread arrival hmem
      intro packet
      rw [readBy_transferArrival]
      simp
  obtain ⟨after, h⟩ := hreturns.mpr fun arrival hmem => by
    obtain ⟨id, rfl⟩ := hread arrival hmem
    exact ⟨_, readBy_transferArrival id⟩
  obtain ⟨after', h', hsame⟩ := halike after h
  exact ⟨after, after', h, h', hsame⟩

end Antarc.Properties
