import CallFabric.Config.Validation
import CallFabric.Text.Bytes
import CallFabric.Toml.Document

namespace CallFabric.Config

-- What the two notations allow: whether an array may go on after a section's last field, and what
-- may stand under the name of an enumeration's member.
structure Source where
  surplus : Bool
  payload : Json

def Source.json : Source := ⟨false, .null⟩

def Source.toml : Source := ⟨true, .obj []⟩

structure Field (σ : Type) where
  name : String
  read : Json → σ → Option σ

namespace Field

variable {σ : Type}

def nat (name : String) (bound : Nat) (set : Nat → σ → σ) : Field σ :=
  ⟨name, fun v s =>
    match v with
    | .int i => if 0 ≤ i ∧ i < bound then some (set i.toNat s) else none
    | _ => none⟩

def word (name : String) (set : Nat → σ → σ) : Field σ := nat name 0x10000000000000000 set

def text (name : String) (set : String → σ → σ) : Field σ :=
  ⟨name, fun v s => v.asText?.map (set · s)⟩

def flag (name : String) (set : Bool → σ → σ) : Field σ :=
  ⟨name, fun v s => v.asBool?.map (set · s)⟩

end Field

def textTable? : Json → Option (Table String)
  | .obj members =>
    members.mapM fun m : String × Json => m.2.asText?.map fun s => (m.1, s)
  | _ => none

def texts? : Json → Option (List String)
  | .arr items => items.mapM Json.asText?
  | _ => none

section

variable {σ : Type}

def readNamed (fields : List (Field σ)) (members : Table Json) (start : σ) : Option σ :=
  fields.foldlM (fun s f =>
    match members.get? f.name with
    | some v => f.read v s
    | none => some s) start

def readOrdered (source : Source) : List (Field σ) → List Json → σ → Option σ
  | _, [], s => some s
  | [], _ :: _, s => if source.surplus then some s else none
  | f :: fields, v :: items, s => (f.read v s).bind (readOrdered source fields items)

def readSection (source : Source) (fields : List (Field σ)) (start : σ) : Json → Option σ
  | .obj members => readNamed fields members start
  | .arr items => readOrdered source fields items start
  | _ => none

end

def clientFields : List (Field ClientConfig) :=
  [.word "pool_size" fun n c => { c with poolSize := n },
    .word "pool_ttl_secs" fun n c => { c with poolTtlSeconds := n },
    .word "pool_max_idle" fun n c => { c with poolMaxIdle := n },
    .word "pool_max_streams" fun n c => { c with poolMaxStreams := n },
    .word "max_recv_msg_size" fun n c => { c with maxReceived := n },
    .word "max_send_msg_size" fun n c => { c with maxSent := n },
    .word "dial_timeout_ms" fun n c => { c with dialTimeoutMs := n },
    .word "request_timeout_ms" fun n c => { c with requestTimeoutMs := n },
    .flag "audit_log" fun b c => { c with audit := b },
    ⟨"services", fun v c => (textTable? v).map fun t => { c with services := t }⟩]

def serverFields : List (Field ServerConfig) :=
  [.text "name" fun s c => { c with name := s },
    .text "bind_address" fun s c => { c with bindAddress := s },
    .word "max_recv_msg_size" fun n c => { c with maxReceived := n },
    .word "max_send_msg_size" fun n c => { c with maxSent := n }]

def authFields : List (Field AuthConfig) :=
  [.text "header" fun s c => { c with header := s },
    ⟨"tokens", fun v c => (texts? v).map fun t => { c with tokens := t }⟩]

def readAuth (source : Source) : Json → Option (Option AuthConfig)
  | .null => some none
  | v => (readSection source authFields {} v).map some

def gatewayFields (source : Source) : List (Field GatewayConfig) :=
  [.text "bind_address" fun s c => { c with bindAddress := s },
    .text "prefix" fun s c => { c with mount := s },
    .nat "grpc_port" 0x10000 fun n c => { c with grpcPort := n },
    .word "max_body_size" fun n c => { c with maxBodySize := n },
    .word "ws_ping_period_secs" fun n c => { c with pingPeriodSeconds := n },
    .word "ws_max_message_size" fun n c => { c with maxMessageSize := n },
    ⟨"auth", fun v c => (readAuth source v).map fun a => { c with auth := a }⟩]

def logFormat? : String → Option LogFormat
  | "pretty" => some .pretty
  | "json" => some .json
  | _ => none

-- The name alone, or the name with nothing to it.
def readLogFormat (source : Source) : Json → Option LogFormat
  | .str s => logFormat? s
  | .obj [(s, v)] => if v = source.payload then logFormat? s else none
  | _ => none

def observabilityFields (source : Source) : List (Field ObservabilityConfig) :=
  [.text "log_level" fun s c => { c with logLevel := s },
    ⟨"log_format", fun v c => (readLogFormat source v).map fun f => { c with logFormat := f }⟩,
    .flag "metrics_enabled" fun b c => { c with metricsEnabled := b },
    .text "metrics_address" fun s c => { c with metricsAddress := s }]

def fields (source : Source) : List (Field Config) :=
  [⟨"client", fun v c => (readSection source clientFields {} v).map fun x =>
      { c with client := x }⟩,
    ⟨"server", fun v c => (readSection source serverFields {} v).map fun x =>
      { c with server := x }⟩,
    ⟨"gateway", fun v c => (readSection source (gatewayFields source) {} v).map fun x =>
      { c with gateway := x }⟩,
    ⟨"observability", fun v c =>
      (readSection source (observabilityFields source) {} v).map fun x =>
        { c with observability := x }⟩]

def ofJson? (source : Source) (v : Json) : Option Config :=
  readSection source (fields source) {} v

inductive LoadError
  | unreadable
  | malformed
  | invalid (errors : List ConfigError)
  deriving DecidableEq, Repr

def LoadError.message : LoadError → String
  | .unreadable => "IO error: the file cannot be read as text"
  | .malformed => "Parse error: no settings in TOML"
  | .invalid errors =>
    "Validation failed: " ++ Text.join ", " (errors.map ConfigError.describe)

def validated : Option Config → Except LoadError Config
  | none => .error .malformed
  | some c => if c.errors = [] then .ok c else .error (.invalid c.errors)

def parse (toml : String) : Except LoadError Config :=
  validated ((Toml.ofText? toml).bind (ofJson? .toml))

def load (file : Option Bytes) : Except LoadError Config :=
  match file.bind Bytes.text? with
  | none => .error .unreadable
  | some toml => parse toml

end CallFabric.Config
