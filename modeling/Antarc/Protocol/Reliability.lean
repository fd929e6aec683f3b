import Antarc.Protocol.Packets

/-! Reliable packets that have been sent: kept in order of sending, dropped from the
front by `poll`, taken from the back to be sent again. -/
namespace Antarc

/-- `list.first().map(|packet| (time + ttl > now).then(|| ())).is_some()`: whatever the
comparison says, the outer `Option` is full as soon as the list is not empty. -/
def firstExpires (now : Duration) (list : List (Packet Sent M)) : Exec Bool := do
  let tested ← list.head?.mapM fun packet => do
    let expiry ← packet.delivery.metadata.time.add packet.delivery.ttl
    pure (if expiry > now then some () else none)
  pure tested.isSome

/-- The newest packet is popped, and sent again if its send time and `now` add up to
more than a thousand seconds. The five retry functions differ in the list alone. -/
def retryLast (now : Duration) (list : List (Packet Sent M)) :
    Exec (Option (Packet ToSend M) × List (Packet Sent M)) :=
  match list.getLast? with
  | some packet => do
      let sum ← packet.delivery.metadata.time.add now
      if sum > .fromSecs 1000 then
        let delivery : ToSend := ⟨packet.delivery.id, ⟨now, packet.delivery.metadata.address⟩⟩
        pure (some ⟨delivery, packet.sequence, packet.ack, packet.message⟩, list.dropLast)
      else pure (none, list.dropLast)
  | none => pure (none, list)

/-- The part of the handler that knows the service's handshake packet. -/
class ServiceReliability (S : Type) where
  poll : S → Duration → Exec S

structure ReliabilityHandler (S : Type) where
  listSentReliableDataTransfer : List (Packet Sent DataTransfer)
  listSentReliableHeartbeat : List (Packet Sent Heartbeat)
  listSentReliableFragment : List (Packet Sent Fragment)
  service : S

namespace ReliabilityHandler

def new (service : S) : ReliabilityHandler S :=
  ⟨[], [], [], service⟩

/-- At most one packet leaves the two lists: the fragments are looked at only while no data
transfer is kept. -/
def dropExpired (handler : ReliabilityHandler S) (now : Duration) :
    Exec (ReliabilityHandler S) := do
  if ← firstExpires now handler.listSentReliableDataTransfer then
    pure { handler with
      listSentReliableDataTransfer := handler.listSentReliableDataTransfer.tail }
  else do
    if ← firstExpires now handler.listSentReliableFragment then
      pure { handler with listSentReliableFragment := handler.listSentReliableFragment.tail }
    else pure handler

def poll [ServiceReliability S] (handler : ReliabilityHandler S) (now : Duration) :
    Exec (ReliabilityHandler S) := do
  let handler ← handler.dropExpired now
  let service ← ServiceReliability.poll handler.service now
  pure { handler with service := service }

end ReliabilityHandler

/-- The messages that travel on a connection: which one, where the packets sent
reliably are kept, and whether sending one ends its sequence number. -/
class Carried (M : Type) where
  connectionId : M → ConnectionId
  listSent : {S : Type} → ReliabilityHandler S → List (Packet Sent M)
  setListSent : {S : Type} → ReliabilityHandler S → List (Packet Sent M) → ReliabilityHandler S
  listSent_setListSent : ∀ {S : Type} (handler : ReliabilityHandler S) packets,
    listSent (setListSent handler packets) = packets
  completes : M → Exec Bool

instance : Carried DataTransfer where
  connectionId := DataTransfer.connectionId
  listSent := ReliabilityHandler.listSentReliableDataTransfer
  setListSent handler list := { handler with listSentReliableDataTransfer := list }
  listSent_setListSent _ _ := rfl
  completes _ := pure true

/-- The sequence tracker only moves on after the last part of a group; the subtraction
is on `u8`. -/
instance : Carried Fragment where
  connectionId := Fragment.connectionId
  listSent := ReliabilityHandler.listSentReliableFragment
  setListSent handler list := { handler with listSentReliableFragment := list }
  listSent_setListSent _ _ := rfl
  completes message := do
    let last ← subU8 message.total 1
    pure (decide (message.index = last))

instance : Carried Heartbeat where
  connectionId := Heartbeat.connectionId
  listSent := ReliabilityHandler.listSentReliableHeartbeat
  setListSent handler list := { handler with listSentReliableHeartbeat := list }
  listSent_setListSent _ _ := rfl
  completes _ := pure true

attribute [simp] Carried.listSent_setListSent

namespace ReliabilityHandler

/-- The body of the retry functions, on the list of one message. -/
def retry [Carried M] (handler : ReliabilityHandler S) (now : Duration) :
    Exec (Option (Packet ToSend M) × ReliabilityHandler S) := do
  let (packet, list) ← retryLast now (Carried.listSent handler)
  pure (packet, Carried.setListSent handler list)

def retryReliableDataTransfer (handler : ReliabilityHandler S) (now : Duration) :
    Exec (Option (Packet ToSend DataTransfer) × ReliabilityHandler S) :=
  handler.retry now

def retryReliableFragment (handler : ReliabilityHandler S) (now : Duration) :
    Exec (Option (Packet ToSend Fragment) × ReliabilityHandler S) :=
  handler.retry now

def retryReliableHeartbeat (handler : ReliabilityHandler S) (now : Duration) :
    Exec (Option (Packet ToSend Heartbeat) × ReliabilityHandler S) :=
  handler.retry now

/-- What every `sent_` function does with the packet: a reliable one is kept. -/
def keep [Carried M] (handler : ReliabilityHandler S) (reliability : ReliabilityType)
    (sent : Packet Sent M) : ReliabilityHandler S :=
  match reliability with
  | .reliable => Carried.setListSent handler (Carried.listSent handler ++ [sent])
  | .unreliable => handler

end ReliabilityHandler

end Antarc
