import CallFabric.Client.Duplex
import CallFabric.Rpc.Server

namespace CallFabric.Client

open Duplex (Receipt SendOutcome)
open Service (StreamCall)

inductive Attempt
  | sent (outcome : SendOutcome)
  | received (receipt : Receipt Bytes)
  deriving DecidableEq, Repr

def Attempt.receipt? : Attempt → Option (Receipt Bytes)
  | .sent _ => none
  | .received receipt => some receipt

-- What the handler sends goes over one by one and in order. Behind it comes the status of a handler
-- that failed, and last of all that nothing more comes.
structure Link where
  call : StreamCall
  settled : Bool
  stream : Duplex
  ended : Bool
  attempts : List Attempt

namespace Link

def start (call : StreamCall) (stream : Duplex) : Link :=
  ⟨{ call with room := some Rpc.streamRoom }, false, stream, false, []⟩

def receipts (l : Link) : List (Receipt Bytes) := l.attempts.filterMap Attempt.receipt?

-- Up to `finish` the handler and what it sent, up to `hangUp` what the caller sent on its way to the
-- handler, and then the caller itself.
inductive Move
  | serve
  | post
  -- A handler that still works is given up, because the caller is gone.
  | giveUp
  | carry
  | finish
  | submit
  | endRequests
  | breakOff (message : String)
  | hangUp
  | send (payload : Bytes)
  | resumeSend (closeFirst : Bool) (payload : Bytes)
  | closeSend
  | receive (cancelFirst : Bool)
  | cancel
  | close
  | depart
  deriving DecidableEq, Repr

namespace Move

def keepsReading : Move → Bool
  | .cancel | .close | .depart => false
  | _ => true

def delivers : Move → Bool
  | .post | .carry | .finish | .receive _ => true
  | _ => false

end Move

def settles : Option (Except Fault Unit) → Bool
  | some (.ok ()) => true
  | some (.error _) | none => false

def serve? (l : Link) : Option Link :=
  if l.settled then none
  else l.call.step?.map fun call => { l with call, settled := settles call.result }

def post? (l : Link) : Option Link :=
  match l.call.result with
  | some (.error _) =>
    if !l.settled && (l.call.peerGone || l.call.hasRoom) then some { l with settled := true }
    else none
  | _ => none

def failure : Option (Except Fault Unit) → List (Except Status Bytes)
  | some (.error f) => [.error (.ofFault f)]
  | some (.ok ()) | none => []

def finish (l : Link) : Link :=
  { l with
    stream := { l.stream with
      inbox := l.stream.inbox ++ failure l.call.result
      inboundEnded := true }
    ended := true }

def afterSend? (l : Link) : SendOutcome × Duplex → Option Link
  | (.waiting, _) => none
  | (outcome, stream) => some { l with stream, attempts := l.attempts ++ [.sent outcome] }

def receive? (l : Link) (cancelFirst : Bool) : Option Link :=
  match l.stream.receive cancelFirst with
  | (.waiting, _) => none
  | (receipt, stream) => some { l with stream, attempts := l.attempts ++ [.received receipt] }

-- What a move makes of the link; nothing where it cannot be made.
def step? (l : Link) : Move → Option Link
  | .serve => l.serve?
  | .post => l.post?
  | .giveUp =>
    if l.call.peerGone && l.call.result.isNone && !l.settled then some { l with settled := true }
    else none
  | .carry =>
    match l.call.sent with
    | m :: rest =>
      some { l with call := { l.call with sent := rest }, stream := l.stream.arrive (.ok m) }
    | [] => none
  | .finish => if l.settled && l.call.sent.isEmpty && !l.ended then some l.finish else none
  | .submit =>
    if l.stream.sendClosed || l.call.inboundEnded then none
    else l.stream.peerTake?.map fun (payload, stream) =>
      { l with stream, call := { l.call with inbox := l.call.inbox ++ [.message payload] } }
  | .endRequests =>
    if l.stream.sendClosed && !l.call.inboundEnded then
      some { l with call := { l.call with inboundEnded := true } }
    else none
  | .breakOff message =>
    if l.call.inboundEnded then none
    else some { l with call := { l.call with
      inbox := l.call.inbox ++ [.failure message]
      inboundEnded := true } }
  | .hangUp => some { l with stream := l.stream.leave }
  | .send payload => l.afterSend? (l.stream.send payload)
  | .resumeSend closeFirst payload => l.afterSend? (l.stream.resumeSend closeFirst payload)
  | .closeSend => some { l with stream := l.stream.closeSend }
  | .receive cancelFirst => l.receive? cancelFirst
  | .cancel => some { l with stream := l.stream.cancel }
  | .close => some { l with stream := l.stream.close.2 }
  | .depart => some { l with call := { l.call with peerGone := true, sent := [] } }

def run? (l : Link) (moves : List Move) : Option Link := moves.foldlM step? l

end Link
end CallFabric.Client
