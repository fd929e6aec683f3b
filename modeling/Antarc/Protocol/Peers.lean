import Antarc.Library.FiniteMap
import Antarc.Protocol.Packets

/-! A peer in each state of its connection, and the reassembly of its fragments. -/
namespace Antarc

open Library

structure MetaConnection where
  timeEnteredState : Duration
  latestSentPacketId : PacketId
  latestSentPacketTime : Duration

structure RequestingConnection where
  metadata : MetaConnection
  attempts : UInt32

structure AwaitingConnectionAck where
  metadata : MetaConnection
  attempts : UInt32

/-- The fragments received of each payload that is not complete yet, by their sequence. -/
abbrev Reassembler := HashMap Sequence (List (Packet Received Fragment))

structure Connected where
  metadata : MetaConnection
  connectionId : ConnectionId
  rtt : Duration
  reassembler : Reassembler

structure Peer (Connection : Type) where
  sequenceTracker : Sequence
  remoteAckTracker : Ack
  localAckTracker : Ack
  address : SocketAddr
  connection : Connection

inductive SendTo where
  | single (connectionId : ConnectionId)
  | broadcast
  deriving DecidableEq

namespace Peer

def new (timeEnteredState : Duration) (address : SocketAddr) (remoteAckTracker : UInt32) :
    Peer RequestingConnection where
  sequenceTracker := .one
  remoteAckTracker := remoteAckTracker
  localAckTracker := 0
  address := address
  connection := ⟨⟨timeEnteredState, 0, .zero⟩, 0⟩

def awaitConnectionAck (peer : Peer RequestingConnection) (timeEnteredState : Duration) :
    Peer AwaitingConnectionAck where
  sequenceTracker := peer.sequenceTracker
  remoteAckTracker := peer.remoteAckTracker
  localAckTracker := peer.localAckTracker
  address := peer.address
  connection :=
    { metadata := { peer.connection.metadata with timeEnteredState := timeEnteredState }
      attempts := 0 }

def connected (peer : Peer AwaitingConnectionAck) (timeEnteredState : Duration)
    (connectionId : ConnectionId) : Peer Connected where
  sequenceTracker := peer.sequenceTracker
  remoteAckTracker := peer.remoteAckTracker
  localAckTracker := peer.localAckTracker
  address := peer.address
  connection :=
    { metadata := { peer.connection.metadata with timeEnteredState := timeEnteredState }
      connectionId := connectionId
      rtt := .zero
      reassembler := ∅ }

/-- `peer.sequence_tracker.checked_add(1).unwrap()`, stored back. -/
def advance (peer : Peer Connection) : Exec (Peer Connection) := do
  let sequence ← unwrap (peer.sequenceTracker.checkedAdd 1)
  pure { peer with sequenceTracker := sequence }

/-- The two assignments every handler makes from a packet it takes. -/
def acknowledge (peer : Peer Connection) (sequence : Sequence) (ack : Ack) : Peer Connection :=
  { peer with remoteAckTracker := sequence.get, localAckTracker := ack }

def keepFragments (peer : Peer Connected) (reassembler : Reassembler) : Peer Connected :=
  { peer with connection := { peer.connection with reassembler := reassembler } }

end Peer

/-- `Packet::from(fragments)`: the last fragment names the packet, and the payloads of
the fragments before it are concatenated. -/
def Packet.ofFragments (fragments : List (Packet Received Fragment)) :
    Exec (Packet Received DataTransfer) := do
  let last ← expect "Fragment must exist!" fragments.getLast?
  let payload := fragments.dropLast.foldl (fun payload fragment =>
    payload ++ fragment.message.payload) []
  pure
    { delivery := ⟨last.delivery.metadata⟩
      sequence := last.sequence
      ack := last.ack
      message := ⟨⟨dataTransfer⟩, last.message.connectionId, payload⟩ }

/-- A received fragment opens the group of its sequence, or joins it. A group that was
joined is complete when it counts as many fragments as the newest one announces. -/
def joinGroup (reassembler : Reassembler) (packet : Packet Received Fragment) :
    Reassembler × Bool :=
  match reassembler.lookup packet.sequence with
  | some fragments =>
      let fragments := fragments ++ [packet]
      (reassembler.insert packet.sequence fragments,
        decide (fragments.length = packet.message.total.toNat))
  | none => (reassembler.insert packet.sequence [packet], false)

/-- A group that is complete leaves the reassembler as one payload. -/
def Peer.reassemble (peer : Peer Connected) (packet : Packet Received Fragment) :
    Exec (Peer Connected × Option Payload) :=
  match joinGroup peer.connection.reassembler packet with
  | (reassembler, false) => pure (peer.keepFragments reassembler, none)
  | (reassembler, true) => do
      let fragments ← expect "Fragment must exist!" (reassembler.lookup packet.sequence)
      let sorted := fragments.mergeSort fun a b => decide (a.sequence.get ≤ b.sequence.get)
      let whole ← Packet.ofFragments sorted
      pure (peer.keepFragments (reassembler.erase packet.sequence), some whole.message.payload)

/-- The test that `Peer<Connected>::poll` makes of one group. -/
def dropFragment (now : Duration) (fragments : List (Packet Received Fragment)) :
    Exec (Option Sequence) := do
  let fragment ← expect "Fragment must exist!" fragments.getLast?
  let fragmentTime := fragment.delivery.metadata.time
  let expiry ← fragmentTime.add (.fromSecs 1)
  pure (if expiry > now then some fragment.sequence else none)

/-- `Peer<Connected>::poll`: of the groups that pass the test, the last in iteration
order is removed. -/
def Peer.poll (hash : RandomState) (peer : Peer Connected) (now : Duration) :
    Exec (Peer Connected) := do
  let reassembler := peer.connection.reassembler
  let values := (hash.iterate reassembler).entries.map Sigma.snd
  let tested ← values.mapM (dropFragment now)
  match (tested.filterMap id).getLast? with
  | some fragmentId => do
      let _ ← expect "Fragment must exist!" (reassembler.lookup fragmentId)
      pure (peer.keepFragments (reassembler.erase fragmentId))
  | none => pure peer

end Antarc
