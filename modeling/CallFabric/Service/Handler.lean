import CallFabric.Call.Context
import CallFabric.Codec
import CallFabric.Fault.Handler

namespace CallFabric.Service

structure CallView where
  metadata : Metadata
  hasDeadline : Bool
  cancelled : Bool
  deriving DecidableEq, Repr, Inhabited

inductive Panic
  | text (message : String)
  | other
  deriving DecidableEq, Repr

def Panic.message : Panic → String
  | .text message => message
  | .other => "unknown panic"

def Panic.fault (p : Panic) : Fault := .internal ("handler panicked: " ++ p.message)

inductive Completion (α : Type)
  | value (a : α)
  | error (e : HandlerError)
  | panic (p : Panic)
  deriving Repr

-- How a request ends, and after how long; without a delay it never does.
structure Work where
  delay : Option Time
  completion : Completion Datum
  deriving Repr

def Work.now (completion : Completion Datum) : Work := ⟨some 0, completion⟩

structure Request where
  shape : Shape
  initial : Datum
  violation : Datum → Option String

namespace Request

def refusedCode : Int32 := -1

def read (r : Request) (codec : Codec) (payload : Bytes) : Except Fault Datum :=
  match codec.decodeOver r.shape r.initial payload with
  | .error e => .error (.badRequest ("Unmarshal error: " ++ e.message))
  | .ok d =>
    match r.violation d with
    | some reason => .error (.business refusedCode ("param error: " ++ reason))
    | none => .ok d

end Request

inductive Signal
  -- The next message, or the end of them.
  | received (message : Option Bytes)
  | receiveFailed (f : Fault)
  | sent
  | sendFailed (f : Fault)
  deriving DecidableEq, Repr

inductive Action
  | receive
  | send (payload : Bytes)
  | finish (completion : Completion Unit)
  deriving Repr

namespace Action

def fail (f : Fault) : Action := .finish (.error (.fault f))

def succeed : Action := .finish (.value ())

def sendDatum (codec : Codec) (d : Datum) : Action :=
  match codec.encode d with
  | .ok payload => .send payload
  | .error e => fail (.internal ("Marshal error: " ++ e.message))

def withDatum (codec : Codec) (shape : Shape) (payload : Bytes) (next : Datum → Action) : Action :=
  match codec.decode shape payload with
  | .ok d => next d
  | .error e => fail (.badRequest ("Unmarshal error: " ++ e.message))

end Action

-- What to do next, given the codec, the call and what happened so far, the latest in front.
abbrev Strategy := Codec → CallView → List Signal → Action

def afterRequest (r : Request) (next : Datum → Strategy) : Strategy := fun codec view signals =>
  match signals.reverse with
  | [] => .receive
  | .received message :: later =>
    match r.read codec (message.getD []) with
    | .error f => .fail f
    | .ok d => next d codec view later.reverse
  | .receiveFailed f :: _ => .fail f
  | _ => .succeed

inductive Handler
  | unary (request : Request) (run : CallView → Datum → Work)
  | serverStream (request : Request) (next : Datum → Strategy)
  | duplex (next : Strategy)

inductive Kind
  | unary
  | serverStream
  | duplex
  deriving DecidableEq, Repr

namespace Kind

def isStream : Kind → Bool
  | .unary => false
  | _ => true

def clientStreams : Kind → Bool
  | .duplex => true
  | _ => false

def serverStreams (k : Kind) : Bool := k.isStream

def name : Kind → String
  | .unary => "Unary"
  | .serverStream => "ServerStream"
  | .duplex => "Duplex"

end Kind

def Handler.kind : Handler → Kind
  | .unary .. => .unary
  | .serverStream .. => .serverStream
  | .duplex .. => .duplex

structure Method where
  name : String
  requestType : String
  replyType : String
  handler : Handler

structure Definition where
  name : String
  methods : List Method

def keyOf (service method : String) : String := service ++ "." ++ method

def Definition.methodNames (d : Definition) : List String :=
  d.methods.map fun m => keyOf d.name m.name

end CallFabric.Service
