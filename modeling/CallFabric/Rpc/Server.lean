import CallFabric.Rpc.Arrival
import CallFabric.Service.Call

namespace CallFabric.Rpc

structure Server where
  directory : Service.Directory
  maxReceived : Nat
  maxSent : Nat

inductive Rejection
  | unknownMethod (path : String)
  | unknownCodec (contentType : String)
  deriving DecidableEq, Repr

def Rejection.fault : Rejection → Fault
  | .unknownMethod path => .notFound ("method not found: " ++ path)
  | .unknownCodec contentType => .badRequest ("codec not found: " ++ contentType)

structure Outcome where
  messages : List Bytes
  status : Status
  time : Time
  measurements : List Measurement
  handled : Option Datum

def Outcome.refused (status : Status) (now : Time) : Outcome := ⟨[], status, now, [], none⟩

def inbound (limit : Nat) : List Bytes → List Service.Inbound
  | [] => []
  | m :: rest =>
    if limit < m.length then
      [.failure (TransportError.receivedTooLong m.length limit).message]
    else .message m :: inbound limit rest

def frameHead : Nat := 5

def writeSize : Nat := 32 * 1024

-- What is written of messages that are sent at once. One that is too long ends the call, and what
-- was held back until then is lost.
def deliver (limit : Nat) :
    List Bytes → Nat → List Bytes → List Bytes × Option TransportError
  | held, _, [] => (held, none)
  | held, size, m :: rest =>
    if limit < m.length then ([], some (.sentTooLong m.length limit))
    else
      let size := size + frameHead + m.length
      if writeSize ≤ size then
        let (later, e) := deliver limit [] 0 rest
        (held ++ m :: later, e)
      else deliver limit (held ++ [m]) size rest

def streamRoom : Nat := 16

def endStatus : Except Fault Unit → Status
  | .ok () => .success
  | .error f => .ofFault f

namespace Server

def select (s : Server) (path contentType : String) :
    Except Rejection (Service.Descriptor × Codec) :=
  match s.directory.resolvePath? path with
  | none => .error (.unknownMethod path)
  | some d =>
    match s.directory.codecs.lookup contentType with
    | none => .error (.unknownCodec contentType)
    | some codec => .ok (d, codec)

def unknownPath? (s : Server) (path : String) : Option String :=
  if (s.directory.resolvePath? path).isNone then some path else none

def serveUnary (s : Server) (now : Time) (heading : Heading) (d : Service.Descriptor)
    (codec : Codec) (messages : List Bytes) : Option Outcome :=
  match messages, messages.find? (s.maxReceived < ·.length) with
  | [], _ => some (.refused TransportError.noRequest.status now)
  | _, some m =>
    some (.refused (TransportError.receivedTooLong m.length s.maxReceived).status now)
  | request :: _, none =>
    let view : Service.CallView := ⟨heading.metadata, heading.timeout.isSome, false⟩
    let (answer, measured) :=
      d.call codec view now (heading.timeout.map (now + ·)) request
    answer.map fun a =>
      match a.result with
      | .error f => ⟨[], .ofFault f, a.time, measured, a.handled⟩
      | .ok reply =>
        if s.maxSent < reply.length then
          ⟨[], (TransportError.sentTooLong reply.length s.maxSent).status, a.time, measured,
            a.handled⟩
        else ⟨[reply], .success, a.time, measured, a.handled⟩

-- Lets the handler go on as far as it can, writes what it sent, and so on. The numbers bound how
-- often, and how far the handler goes each time.
def runStream (s : Server) (patience : Nat) :
    Nat → List Bytes → Service.StreamCall → Option (List Bytes × Status × Service.StreamCall)
  | 0, _, _ => none
  | rounds + 1, written, call =>
    let call := call.run patience
    let (more, tooLong) := deliver s.maxSent [] 0 call.sent
    match tooLong, call.result with
    | some e, _ => some (written ++ more, e.status, call)
    | none, some result => some (written ++ more, endStatus result, call)
    | none, none =>
      if call.sent.isEmpty then none
      else s.runStream patience rounds (written ++ more) { call with sent := [] }

def serveStream (s : Server) (patience : Nat) (now : Time) (heading : Heading)
    (d : Service.Descriptor) (codec : Codec) (messages : List Bytes) : Option Outcome :=
  match d.openStream codec ⟨heading.metadata, heading.timeout.isSome, false⟩ with
  | .error f => some (.refused (.ofFault f) now)
  | .ok call =>
    let call := { call with
      inbox := inbound s.maxReceived messages
      inboundEnded := true
      room := some streamRoom }
    (s.runStream patience patience [] call).map fun (written, status, call) =>
      ⟨written, status, now, (call.result.map (Service.measurement d.name)).toList, none⟩

def serve (s : Server) (patience : Nat) (now : Time) (a : Arrival) : Option Outcome :=
  let heading := a.heading
  if !a.isPlain then some (.refused TransportError.compressed.status now)
  else
    match s.select a.path heading.contentType with
    | .error r => some (.refused (.ofFault r.fault) now)
    | .ok (d, codec) =>
      if d.kind.isStream then s.serveStream patience now heading d codec a.messages
      else s.serveUnary now heading d codec a.messages

end Server
end CallFabric.Rpc
