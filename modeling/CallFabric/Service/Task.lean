import CallFabric.Service.Call

namespace CallFabric.Service

def overdue (deadline : Option Time) (now : Time) : Bool :=
  deadline.any fun t => tick t ≤ now / millisecond

structure Poll where
  time : Time
  -- None where the handler, if it is asked, still waits.
  progress : Option (Completion Datum)

inductive Stage
  | fresh
  | working
  | ended (result : Except Fault Bytes)

structure UnaryTask where
  stage : Stage
  -- The requests that the handler was called with, the latest in front.
  called : List Datum

structure UnaryCall where
  name : String
  request : Request
  codec : Codec
  deadline : Option Time
  payload : Bytes

namespace UnaryCall

def exceeded (c : UnaryCall) : Except Fault Bytes :=
  .error (.timeout (c.name ++ " exceeded its deadline"))

def look (c : UnaryCall) (p : Poll) : Stage :=
  match p.progress with
  | some completion => .ended (encodeReply c.codec completion)
  | none => if overdue c.deadline p.time then .ended c.exceeded else .working

def poll (c : UnaryCall) (t : UnaryTask) (p : Poll) : UnaryTask :=
  match t.stage with
  | .fresh =>
    match c.request.read c.codec c.payload with
    | .error f => { t with stage := .ended (.error f) }
    | .ok d => ⟨c.look p, d :: t.called⟩
  | .working => { t with stage := c.look p }
  | .ended _ => t

def run (c : UnaryCall) (polls : List Poll) : UnaryTask :=
  polls.foldl c.poll ⟨.fresh, []⟩

end UnaryCall

-- What work that started at a time has come to; its timer ticks like that of a deadline.
def Work.progress (w : Work) (started now : Time) : Option (Completion Datum) :=
  match w.delay with
  | none => none
  | some 0 => some w.completion
  | some delay => if tick (started + delay) ≤ now / millisecond then some w.completion else none

inductive ServerStage
  | waiting
  | refused (f : Fault)
  | serving (request : Datum) (later : List Signal)

structure ServerTask where
  stage : ServerStage
  called : List Datum

namespace ServerTask

def start : ServerTask := ⟨.waiting, []⟩

-- The first message is read as the request; where there is none the request is read of nothing.
def take (request : Request) (codec : Codec) (t : ServerTask) (s : Signal) : ServerTask :=
  match t.stage, s with
  | .waiting, .received message =>
    match request.read codec (message.getD []) with
    | .error f => { t with stage := .refused f }
    | .ok d => ⟨.serving d [], d :: t.called⟩
  | .waiting, .receiveFailed f => { t with stage := .refused f }
  | .serving d later, s => { t with stage := .serving d (s :: later) }
  | .waiting, _ | .refused _, _ => t

def action (t : ServerTask) (next : Datum → List Signal → Action) : Action :=
  match t.stage with
  | .waiting => .receive
  | .refused f => .fail f
  | .serving d later => next d later

end ServerTask

structure Hosted where
  call : StreamCall
  arrived : List Inbound

inductive Happening
  | serve
  | arrive (i : Inbound)
  | endInbound
  | outward (sent : List Bytes) (room : Option Nat) (peerGone : Bool)

namespace Hosted

def host (call : StreamCall) : Hosted := ⟨call, call.inbox⟩

def after (h : Hosted) : Happening → Hosted
  | .serve => { h with call := h.call.step?.getD h.call }
  | .arrive i =>
    if h.call.inboundEnded then h
    else ⟨{ h.call with inbox := h.call.inbox ++ [i] }, h.arrived ++ [i]⟩
  | .endInbound => { h with call := { h.call with inboundEnded := true } }
  | .outward sent room peerGone => { h with call := { h.call with sent, room, peerGone } }

def run (h : Hosted) (happenings : List Happening) : Hosted := happenings.foldl after h

end Hosted
end CallFabric.Service
