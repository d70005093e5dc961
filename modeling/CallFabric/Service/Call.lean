import CallFabric.Metrics
import CallFabric.Service.Directory

namespace CallFabric.Service

-- The first tick at or after a time.
def tick (t : Time) : Nat := (t + millisecond - 1) / millisecond

def outcomeLabel {α : Type} : Except Fault α → String
  | .ok _ => "ok"
  | .error f => if f.status = 200 then "business_error" else "error"

def measurement {α : Type} (name : String) (result : Except Fault α) : Measurement :=
  .dispatch name (outcomeLabel result)

def encodeReply (codec : Codec) : Completion Datum → Except Fault Bytes
  | .value d =>
    match codec.encode d with
    | .ok payload => .ok payload
    | .error e => .error (.internal ("Marshal error: " ++ e.message))
  | .error e => .error e.toFault
  | .panic p => .error p.fault

structure Answer where
  result : Except Fault Bytes
  time : Time
  handled : Option Datum

def callUnary (name : String) (request : Request) (run : CallView → Datum → Work)
    (codec : Codec) (view : CallView) (now : Time) (deadline : Option Time) (payload : Bytes) :
    Option Answer :=
  let exceeded : Except Fault Bytes := .error (.timeout (name ++ " exceeded its deadline"))
  match request.read codec payload with
  | .error f => some ⟨.error f, now, none⟩
  | .ok d =>
    let work := run view d
    let result := encodeReply codec work.completion
    match work.delay, deadline with
    | some 0, _ => some ⟨result, now, some d⟩
    | some delay, none => some ⟨result, now + delay, some d⟩
    | none, none => none
    | none, some deadline => some ⟨exceeded, max now deadline, some d⟩
    | some delay, some deadline =>
      if tick (now + delay) ≤ tick deadline ∧ now < deadline then
        some ⟨result, now + delay, some d⟩
      else some ⟨exceeded, max now deadline, some d⟩

-- A unary call to a described method. Only one that reaches a handler is counted.
def Descriptor.call (d : Descriptor) (codec : Codec) (view : CallView) (now : Time)
    (deadline : Option Time) (payload : Bytes) : Option Answer × List Measurement :=
  match d.handler with
  | .unary request run =>
    let answer := callUnary d.name request run codec view now deadline payload
    (answer, answer.toList.map fun a => measurement d.name a.result)
  | _ => (some ⟨.error (.badRequest (d.name ++ " is a stream method")), now, none⟩, [])

def Directory.dispatch (d : Directory) (key contentType : String) (view : CallView) (now : Time)
    (deadline : Option Time) (payload : Bytes) : Option Answer × List Measurement :=
  match d.get? key with
  | none => (some ⟨.error (.notFound ("method not found: " ++ key)), now, none⟩, [])
  | some descriptor =>
    match d.codecs.lookup contentType with
    | none => (some ⟨.error (.badRequest ("codec not found: " ++ contentType)), now, none⟩, [])
    | some codec => descriptor.call codec view now deadline payload

inductive Inbound
  | message (payload : Bytes)
  | failure (message : String)
  deriving DecidableEq, Repr

structure StreamCall where
  next : List Signal → Action
  -- What happened so far, the latest in front.
  history : List Signal
  inbox : List Inbound
  inboundEnded : Bool
  sent : List Bytes
  room : Option Nat
  peerGone : Bool
  result : Option (Except Fault Unit)

namespace StreamCall

def toResult : Completion Unit → Except Fault Unit
  | .value () => .ok ()
  | .error e => .error e.toFault
  | .panic p => .error p.fault

def hasRoom (c : StreamCall) : Bool := c.room.all (c.sent.length < ·)

-- One action of the handler; nothing where it has to wait or is done.
def step? (c : StreamCall) : Option StreamCall :=
  if c.result.isSome then none
  else
    match c.next c.history with
    | .finish completion => some { c with result := some (toResult completion) }
    | .receive =>
      match c.inbox with
      | .message payload :: rest =>
        some { c with history := .received (some payload) :: c.history, inbox := rest }
      | .failure message :: rest =>
        some { c with
          history := .receiveFailed (.badRequest ("stream recv: " ++ message)) :: c.history
          inbox := rest }
      | [] =>
        if c.inboundEnded then some { c with history := .received none :: c.history } else none
    | .send payload =>
      if c.peerGone then
        let f := Fault.badRequest "stream send: client went away"
        some { c with history := .sendFailed f :: c.history }
      else if c.hasRoom then
        some { c with history := .sent :: c.history, sent := c.sent ++ [payload] }
      else none

def run : Nat → StreamCall → StreamCall
  | 0, c => c
  | fuel + 1, c =>
    match c.step? with
    | some c => run fuel c
    | none => c

end StreamCall

def Descriptor.openStream (d : Descriptor) (codec : Codec) (view : CallView) :
    Except Fault StreamCall :=
  let start (next : Strategy) : StreamCall :=
    ⟨next codec view, [], [], false, [], none, false, none⟩
  match d.handler with
  | .unary .. => .error (.badRequest (d.name ++ " is a unary method"))
  | .serverStream request next => .ok (start (afterRequest request next))
  | .duplex next => .ok (start next)

end CallFabric.Service
