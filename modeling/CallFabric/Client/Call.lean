import CallFabric.Client.Outgoing
import CallFabric.Client.Slot
import CallFabric.Rpc.Network

namespace CallFabric.Client

open Rpc (Network)

inductive Exchanged
  | texts (request reply : String)
  | lengths (request reply : Nat)
  deriving DecidableEq, Repr

inductive Report
  | succeeded (requestId sequence method : String) (messages : Exchanged)
  | removed (address : String)
  deriving DecidableEq, Repr

def audits (c : Client) (contentType : String) : Bool :=
  c.audit && !Text.startsWith contentType ContentType.multipart

def report? (c : Client) (o : Outgoing) (request reply : Bytes) : Option Report :=
  if c.audits o.contentType then
    let messages : Exchanged :=
      if o.codec.isJson then .texts request.lossy reply.lossy
      else .lengths request.length reply.length
    some (.succeeded (o.metadata.requestId?.getD "") (o.metadata.requestSequence?.getD "")
      o.method messages)
  else none

def acquire (c : Client) (n : Network) (now : Time) (address : String) :
    Except OutgoingError Slot × Client :=
  match { c.pools with dialFailure := n.refusal? address, now }.acquire address with
  | (.acquired number _ h, pools) => (.ok ⟨number, h.claim.conn, address⟩, { c with pools })
  | (.dialFailed e, pools) => (.error (.noConnection e), { c with pools })
  | (.done _, pools) =>
    (.error (.noConnection (.failed address "no connection")), { c with pools })

def settle (c : Client) (slot : Slot) (actions : List SlotAction) : List Report × Client :=
  let (removed, pools) := slot.actAll c.pools actions
  (List.replicate removed (.removed slot.address), { c with pools })

def readReply (limit : Nat) (o : Rpc.Outcome) : Except Status Bytes :=
  match o.messages.find? (limit < ·.length) with
  | some m => .error (Rpc.TransportError.receivedTooLong m.length limit).status
  | none =>
    if o.status.code = .ok then
      match o.messages with
      | reply :: _ => .ok reply
      | [] => .error Rpc.TransportError.noReply.status
    else .error o.status

def unreachable : Status := ⟨.unavailable, "service was not ready: transport error"⟩

def endingOf : Except Status Bytes → Ending
  | .ok reply => .reply reply
  | .error s => .status s

def stopOf (now deadline : Time) : Option Time → Time × Ending
  | some cancelled =>
    if cancelled ≤ deadline then (max now cancelled, .cancelled) else (deadline, .outOfTime)
  | none => (deadline, .outOfTime)

structure Called where
  ending : Ending
  time : Time
  handled : Option Datum

-- Ends with the first of three things: the server's answer, the cancellation of the context and the
-- end of the time.
def exchange (c : Client) (n : Network) (patience : Nat) (now : Time) (address : String)
    (o : Outgoing) (stop : Time × Ending) (payload : Bytes) : Called :=
  if stop.1 ≤ now then ⟨stop.2, now, none⟩
  else if c.maxSent < payload.length then
    ⟨.status (Rpc.TransportError.sentTooLong payload.length c.maxSent).status, now, none⟩
  else
    match n.servers.get? address with
    | none => ⟨.status unreachable, now, none⟩
    | some server =>
      match server.serve patience now (n.arrival o.path o.metadata [payload]) with
      | none => ⟨stop.2, stop.1, none⟩
      | some answer =>
        if answer.time ≤ stop.1 then
          ⟨endingOf (readReply c.maxReceived answer), answer.time, answer.handled⟩
        else ⟨stop.2, stop.1, answer.handled⟩

structure Invocation where
  result : Except Fault Bytes
  client : Client
  reports : List Report
  time : Time
  handled : Option Datum

def outcomeLabel : Except Fault Bytes → String
  | .ok _ => "ok"
  | .error f => toString f.status.toNat

def conclude (c : Client) (slot : Slot) (o : Outgoing) (payload : Bytes) (called : Called) :
    Invocation :=
  let (removals, c) := c.settle slot (SlotAction.afterUnary called.ending)
  match called.ending.result? with
  | none => ⟨.error Ending.cancelledFault, c, removals, called.time, called.handled⟩
  | some result =>
    let c := { c with pools := c.pools.measure (.call o.method (outcomeLabel result)) }
    let success := match result with
      | .ok reply => (c.report? o payload reply).toList
      | .error _ => []
    ⟨result, c, removals ++ success, called.time, called.handled⟩

-- A unary call with a request that is written already; `cancelAt` is when its context is
-- cancelled.
def invokeRaw (c : Client) (n : Network) (patience : Nat) (freshId : String) (ctx : Context)
    (now : Time) (cancelAt : Option Time) (address service endpoint : String) (payload : Bytes) :
    Invocation :=
  match c.unaryOutgoing ctx freshId now service endpoint with
  | .error e => ⟨.error e.fault, c, [], now, none⟩
  | .ok o =>
    match c.acquire n now address with
    | (.error e, c) => ⟨.error e.fault, c, [], now, none⟩
    | (.ok slot, c) =>
      let stop := stopOf now (now + c.unaryTimeout ctx now) cancelAt
      c.conclude slot o payload (c.exchange n patience now address o stop payload)

def invoke (c : Client) (n : Network) (patience : Nat) (freshId : String) (ctx : Context)
    (now : Time) (cancelAt : Option Time) (address service endpoint : String) (request : Datum)
    (shape : Shape) (initial : Datum) : Except Fault Datum × Invocation :=
  let failed (f : Fault) : Except Fault Datum × Invocation :=
    (.error f, ⟨.error f, c, [], now, none⟩)
  match c.codecFor (ctx.metadata.outbound freshId) with
  | .error e => failed e.fault
  | .ok (_, codec) =>
    match codec.encode request with
    | .error e => failed (.badRequest ("[rpc-client] encode request: " ++ e.message))
    | .ok payload =>
      let called :=
        c.invokeRaw n patience freshId ctx now cancelAt address service endpoint payload
      let reply := called.result.bind fun reply =>
        (codec.decodeOver shape initial reply).mapError fun e =>
          .badRequest ("[rpc-client] decode reply: " ++ e.message)
      (reply, called)

def streamRoom : Nat := 16

-- How the server answers the opening of a stream. A unary method answers only when it has its
-- request, which is not sent before.
def openingOf (server : Rpc.Server) (a : Rpc.Arrival) : SlotAction.Opening :=
  if !a.isPlain then .failed Rpc.TransportError.compressed.status
  else
    match server.select a.path a.heading.contentType with
    | .error r => .failed (.ofFault r.fault)
    | .ok (d, _) =>
      if d.kind.isStream then .opened else .failed ⟨.deadlineExceeded, "stream open timed out"⟩

def openingFault (s : Status) : Fault :=
  .badRequest ("Error creating stream: " ++ s.toFault.message)

structure StreamOpening where
  result : Except Fault (Duplex × Slot)
  client : Client
  reports : List Report

def openStream (c : Client) (n : Network) (freshId : String) (ctx : Context) (now : Time)
    (cancelled : Bool) (address service endpoint : String) : StreamOpening :=
  match c.streamOutgoing ctx freshId now service endpoint with
  | .error e => ⟨.error e.fault, c, []⟩
  | .ok o =>
    match c.acquire n now address with
    | (.error e, c) => ⟨.error e.fault, c, []⟩
    | (.ok slot, c) =>
      let opening : SlotAction.Opening :=
        if cancelled then .failed ⟨.cancelled, "context canceled"⟩
        else
          match n.servers.get? address with
          | none => .failed unreachable
          | some server => openingOf server (n.arrival o.path o.metadata [])
      let (removals, c) := c.settle slot (SlotAction.afterOpening opening)
      match opening with
      | .opened => ⟨.ok (.opened o.codec streamRoom, slot), c, removals⟩
      | .failed s => ⟨.error (openingFault s), c, removals⟩
      | .dropped => ⟨.error Ending.cancelledFault, c, removals⟩

end CallFabric.Client
