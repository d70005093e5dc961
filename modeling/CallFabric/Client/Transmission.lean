import CallFabric.Client.Duplex

namespace CallFabric.Client

structure Transmission where
  stream : Duplex
  senderGone : Bool
  -- What was sent as its sender was told, and what went over, the oldest in front.
  accepted : List Bytes
  delivered : List Bytes
  ended : Bool

namespace Transmission

inductive Event
  | send (payload : Bytes)
  | resumeSend (closeFirst : Bool) (payload : Bytes)
  | closeSend
  | close
  | dropSender
  | carry
  | receive (cancelFirst : Bool)
  | arrive (item : Except Status Bytes)
  | endInbound

def bufferSize : Nat := 16

def start (stream : Duplex) : Transmission := ⟨stream, false, [], [], false⟩

def attempt (t : Transmission) (payload : Bytes) : Duplex.SendOutcome × Duplex → Transmission
  | (.sent, stream) => { t with stream, accepted := t.accepted ++ [payload] }
  | (_, stream) => { t with stream }

-- That sending is closed is looked at before the outbox; what is still in it then does not go over.
def carry (t : Transmission) : Transmission :=
  if t.ended then t
  else if t.stream.sendClosed then { t with ended := true }
  else
    match t.stream.peerTake? with
    | some (payload, stream) => { t with stream, delivered := t.delivered ++ [payload] }
    | none => if t.senderGone then { t with ended := true } else t

def step (t : Transmission) : Event → Transmission
  | .send payload => if t.senderGone then t else t.attempt payload (t.stream.send payload)
  | .resumeSend closeFirst payload =>
    if t.senderGone then t else t.attempt payload (t.stream.resumeSend closeFirst payload)
  | .closeSend => { t with stream := t.stream.closeSend }
  | .close => { t with stream := t.stream.close.2 }
  | .dropSender => { t with senderGone := true }
  | .carry => t.carry
  | .receive cancelFirst => { t with stream := (t.stream.receive cancelFirst).2 }
  | .arrive item => { t with stream := t.stream.arrive item }
  | .endInbound => { t with stream := t.stream.endInbound }

def run (t : Transmission) (events : List Event) : Transmission := events.foldl step t

end Transmission
end CallFabric.Client
