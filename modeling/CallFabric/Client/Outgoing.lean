import CallFabric.Address
import CallFabric.Call.Context
import CallFabric.Codec.Registry
import CallFabric.Config.Basic
import CallFabric.Http.Uri
import CallFabric.Pool.System

namespace CallFabric

structure Client where
  requestTimeout : Time
  maxReceived : Nat
  maxSent : Nat
  audit : Bool
  codecs : Codec.Registry
  services : Table String
  pools : Pool.System

namespace Client

def poolLimits (c : ClientConfig) : Pool.Limits :=
  .of c.poolSize (c.poolTtlSeconds * 1000 * millisecond) c.poolMaxIdle c.poolMaxStreams

def ofConfig (c : ClientConfig) (codecs : Codec.Registry) : Client :=
  ⟨c.requestTimeoutMs * millisecond, c.maxReceived, c.maxSent, c.audit, codecs, c.services,
    .new (poolLimits c)⟩

inductive OutgoingError
  | noCodec
  | noPath (method : String)
  | noConnection (e : Pool.DialError)
  deriving DecidableEq, Repr

namespace OutgoingError

def message : OutgoingError → String
  | .noCodec => "[rpc-client] codec not found"
  | .noPath method => "[rpc-client] invalid method " ++ method ++ ": not a path"
  | .noConnection e => "[rpc-client] Error sending request: " ++ e.message

def fault (e : OutgoingError) : Fault := .badRequest e.message

end OutgoingError

def codecFor (c : Client) (m : Metadata) : Except OutgoingError (String × Codec) :=
  let contentType := (m.get? Metadata.contentTypeKey).getD ContentType.standard
  match c.codecs.lookup contentType with
  | some codec => .ok (contentType, codec)
  | none => .error .noCodec

structure Outgoing where
  metadata : Metadata
  contentType : String
  codec : Codec
  -- The method in the form that calls are counted by.
  method : String
  path : String
  deriving DecidableEq, Repr

def outgoing (c : Client) (ctx : Context) (freshId : String) (timeout : Option Time)
    (service endpoint : String) : Except OutgoingError Outgoing := do
  let metadata := ctx.metadata.outbound freshId
  let (contentType, codec) ← c.codecFor metadata
  let method := Address.methodPath service endpoint
  match PathAndQuery.ofText? method with
  | none => .error (.noPath method)
  | some target =>
    return ⟨(timeout.map metadata.setTimeout).getD metadata, contentType, codec, method,
      target.path⟩

def unaryTimeout (c : Client) (ctx : Context) (now : Time) : Time :=
  (ctx.remaining? now).getD c.requestTimeout

def unaryOutgoing (c : Client) (ctx : Context) (freshId : String) (now : Time)
    (service endpoint : String) : Except OutgoingError Outgoing :=
  c.outgoing ctx freshId (some (c.unaryTimeout ctx now)) service endpoint

-- A stream says how much time is left only where its caller set a deadline.
def streamOutgoing (c : Client) (ctx : Context) (freshId : String) (now : Time)
    (service endpoint : String) : Except OutgoingError Outgoing :=
  c.outgoing ctx freshId (ctx.remaining? now) service endpoint

def resolve (c : Client) (target : String) : String := Address.resolve c.services target

end Client
end CallFabric
