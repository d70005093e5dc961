import CallFabric.Client.Call
import CallFabric.Gateway.Admission
import CallFabric.Gateway.Payload
import CallFabric.Gateway.Session
import CallFabric.Gateway.Upgrade
import CallFabric.Http.Reply
import CallFabric.Shutdown

namespace CallFabric

open ContentType (BodyKind)

inductive Gateway.Backend
  | native (directory : Service.Directory)
  | remote (client : Client) (network : Rpc.Network)

structure Gateway where
  config : GatewayConfig
  admission : Gateway.Admission
  backend : Gateway.Backend
  sessions : Sessions

namespace Gateway

def ofConfig (config : GatewayConfig) (backend : Backend) : Gateway :=
  ⟨config, .ofConfig config.auth, backend, .empty⟩

-- When a request is served, the id that it is given, and how many steps a stream handler takes at
-- a time.
structure Occasion where
  now : Time
  freshId : String
  patience : Nat

structure SessionTarget where
  service : String
  endpoint : String
  address : String
  metadata : Metadata
  deriving DecidableEq, Repr

inductive Response
  | reply (r : Reply)
  | upgrade (t : SessionTarget)
  deriving DecidableEq, Repr

structure Exchange where
  response : Response
  gateway : Gateway
  measurements : List Measurement
  reports : List Client.Report
  time : Time
  handled : Option Datum

structure Handling where
  result : Except Fault Bytes
  backend : Backend
  measurements : List Measurement
  reports : List Client.Report
  time : Time
  handled : Option Datum

def Handling.none (backend : Backend) (now : Time) (f : Fault) : Handling :=
  ⟨.error f, backend, [], [], now, Option.none⟩

def callMetadata (headers : Headers) (contentType requestId : String) : Metadata :=
  ((Metadata.ofHeaders headers).insert Metadata.contentTypeKey contentType).insert
    Metadata.requestIdKey requestId

structure Asked where
  target : Address.Target
  path : String
  contentType : String
  kind : BodyKind
  metadata : Metadata
  payload : Bytes

inductive NativeError
  | notAccepted (contentType : String)
  | unknown (endpoint : String)
  deriving DecidableEq, Repr

def NativeError.fault : NativeError → Fault
  | .notAccepted contentType =>
    .badRequest ("native handler does not accept " ++ contentType)
  | .unknown endpoint => .notFound ("method not found: " ++ endpoint)

-- The method is the one that the endpoint is a key of, else the one of the whole path. Only JSON
-- is accepted.
def selectNative (d : Service.Directory) (a : Asked) :
    Except NativeError (Service.Descriptor × Codec) :=
  match (d.codecs.lookup a.contentType).filter (·.isJson) with
  | none => .error (.notAccepted a.contentType)
  | some codec =>
    match (d.get? a.target.endpoint).or (d.get? a.path) with
    | none => .error (.unknown a.target.endpoint)
    | some descriptor => .ok (descriptor, codec)

def callNative (d : Service.Directory) (now : Time) (a : Asked) : Option Handling :=
  match selectNative d a with
  | .error e => some (.none (.native d) now e.fault)
  | .ok (descriptor, codec) =>
    let (answer, measured) := descriptor.call codec ⟨a.metadata, false, false⟩ now none a.payload
    answer.map fun answer =>
      ⟨answer.result, .native d, measured, [], answer.time, answer.handled⟩

def remoteAddress (config : GatewayConfig) (c : Client) (service : String) : String :=
  c.resolve (Address.destination c.services service config.grpcPort)

def readable (c : Client) (a : Asked) (reply : Bytes) : Except Fault Bytes :=
  if a.kind = .binary then
    let codec := (c.codecs.lookup a.contentType).getD .messagePack
    (codec.toJsonText reply).mapError fun e =>
      .badRequest ("[gate] transcode reply: " ++ e.message)
  else .ok reply

def contextOf (metadata : Metadata) : Context := (Context.new .empty metadata).1

def callRemote (config : GatewayConfig) (c : Client) (n : Rpc.Network) (o : Occasion)
    (a : Asked) : Handling :=
  let called := c.invokeRaw n o.patience o.freshId (contextOf a.metadata) o.now none
    (remoteAddress config c a.target.service) a.target.service a.target.endpoint a.payload
  ⟨called.result.bind (readable c a), .remote called.client n, [], called.reports, called.time,
    called.handled⟩

def contentTypeOf (headers : Headers) : String :=
  ((headers.text? "content-type").map ContentType.normalize).getD ""

def ask (config : GatewayConfig) (o : Occasion) (r : Request) (rest : String) :
    Except Fault Asked := do
  let target ← (Address.parseTarget rest).mapError Address.TargetError.fault
  let parts := r.parts
  let contentType := contentTypeOf parts.headers
  let (kind, payload) ←
    (Payload.extract config.maxBodySize config.maxBodySize
      ⟨parts.method, parts.uri.query, parts.headers, r.body⟩).mapError PayloadError.fault
  return ⟨target, parts.uri.path, contentType, kind,
    callMetadata parts.headers contentType o.freshId, payload⟩

def handle (g : Gateway) (o : Occasion) (a : Asked) : Option Handling :=
  match g.backend with
  | .native d => callNative d o.now a
  | .remote c n => some (callRemote g.config c n o a)

def panicFault (p : Service.Panic) : Fault :=
  .internal ("[gate] panic recovered: " ++ p.message)

def replied (g : Gateway) (o : Occasion) (r : Reply) (measurements : List Measurement) :
    Exchange :=
  ⟨.reply r, g, measurements, [], o.now, none⟩

def rejected (g : Gateway) (o : Occasion) (kind : String) (f : Fault) : Exchange :=
  g.replied o (.ofFault f) [.gatewayRequest kind f.status.toNat]

def resultStatus : Except Fault Bytes → Nat
  | .ok _ => 200
  | .error f => f.status.toNat

def answerCall (g : Gateway) (o : Occasion) (r : Request) (rest : String) : Option Exchange :=
  match ask g.config o r rest with
  | .error f => some (g.rejected o "http" f)
  | .ok a =>
    (g.handle o a).map fun h =>
      ⟨.reply (.ofExcept h.result), { g with backend := h.backend },
        h.measurements ++ [.gatewayRequest "http" (resultStatus h.result)], h.reports, h.time,
        h.handled⟩

def noRemote : Fault := .notImplemented "[gate] websocket needs a remote backend"

def answerSession (g : Gateway) (o : Occasion) (p : Parts) (rest : String) : Exchange :=
  match Address.parseTarget rest with
  | .error e => g.rejected o "ws" e.fault
  | .ok target =>
    match g.backend with
    | .native _ => g.rejected o "ws" noRemote
    | .remote c _ =>
      match p.upgradeError? with
      | some e => g.rejected o "ws" e.fault
      | none =>
        let metadata := callMetadata p.headers ContentType.json o.freshId
        let address := remoteAddress g.config c target.service
        ⟨.upgrade ⟨target.service, target.endpoint, address, metadata⟩,
          { g with sessions := g.sessions.track.2 }, [.gatewayRequest "ws" 101], [], o.now, none⟩

def guarded (g : Gateway) (o : Occasion) (p : Parts) (kind : String)
    (answer : Option Exchange) : Option Exchange :=
  match g.admission p with
  | .admitted => answer
  | .refused f => some (g.rejected o kind f)
  | .panicked e => some (g.replied o (.ofFault (panicFault e)) [])

def plainText : String := "text/plain; charset=utf-8"

def unreadablePath : Reply :=
  ⟨400, some plainText, false, Bytes.ofText "Invalid URL: Invalid UTF-8 in \x60rest\x60"⟩

def otherMethodFault (p : Parts) : Fault :=
  .badRequest ("[gate] req method:" ++ p.method ++ " not support url:" ++ p.uri.text)

def elsewhereFault (p : Parts) : Fault :=
  .notFound ("[gate] no route for " ++ p.uri.path)

def answer (g : Gateway) (o : Occasion) (r : Request) : Option Exchange :=
  match Route.of g.config.mount r.parts with
  | .call rest => g.guarded o r.parts "http" (g.answerCall o r rest)
  | .session rest => g.guarded o r.parts "ws" (some (g.answerSession o r.parts rest))
  | .unreadable => some (g.replied o unreadablePath [])
  | .options => some (g.replied o (.ofJson []) [])
  | .otherMethod => some (g.replied o (.ofFault (otherMethodFault r.parts)) [])
  | .elsewhere => some (g.replied o (.ofFault (elsewhereFault r.parts)) [])

def Response.withoutBody : Response → Response
  | .reply r => .reply { r with body := [] }
  | .upgrade t => .upgrade t

-- What a request comes to, if its handler ever answers. Who asks for the head of a reply gets no
-- body.
def serve (g : Gateway) (o : Occasion) (r : Request) : Option Exchange :=
  (g.answer o r).map fun e =>
    if r.parts.method = "HEAD" then { e with response := e.response.withoutBody } else e

structure SessionOpening where
  result : Except Fault Session
  gateway : Gateway
  reports : List Client.Report

def pingPeriod (g : Gateway) : Time := g.config.pingPeriodSeconds * 1000 * millisecond

def openSession (g : Gateway) (o : Occasion) (closing : Bool) (t : SessionTarget) :
    SessionOpening :=
  match g.backend with
  | .native _ => ⟨.error noRemote, g, []⟩
  | .remote c n =>
    let opening := c.openStream n o.freshId (contextOf t.metadata) o.now closing t.address
      t.service t.endpoint
    ⟨opening.result.map fun (stream, _) => .start stream g.pingPeriod,
      { g with backend := .remote opening.client n }, opening.reports⟩

end Gateway
end CallFabric
