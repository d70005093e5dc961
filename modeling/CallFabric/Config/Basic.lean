import CallFabric.Json.Basic

namespace CallFabric

def mebibyte : Nat := 1024 * 1024

structure ClientConfig where
  poolSize : Nat := 100
  poolTtlSeconds : Nat := 60
  poolMaxIdle : Nat := 50
  poolMaxStreams : Nat := 20
  maxReceived : Nat := 16 * mebibyte
  maxSent : Nat := 16 * mebibyte
  dialTimeoutMs : Nat := 5000
  requestTimeoutMs : Nat := 10000
  audit : Bool := true
  services : Table String := []
  deriving DecidableEq, Repr

structure ServerConfig where
  name : String := "rpc-server"
  bindAddress : String := "0.0.0.0:10000"
  maxReceived : Nat := 16 * mebibyte
  maxSent : Nat := 16 * mebibyte
  deriving DecidableEq, Repr

structure AuthConfig where
  header : String := "authtoken"
  tokens : List String := []
  deriving DecidableEq, Repr

structure GatewayConfig where
  bindAddress : String := "0.0.0.0:8080"
  -- The path under which services stand.
  mount : String := "/rpc"
  grpcPort : Nat := 10000
  maxBodySize : Nat := 10 * mebibyte
  pingPeriodSeconds : Nat := 60
  maxMessageSize : Nat := 4 * mebibyte
  auth : Option AuthConfig := none
  deriving DecidableEq, Repr

inductive LogFormat
  | pretty
  | json
  deriving DecidableEq, Repr

structure ObservabilityConfig where
  logLevel : String := "info"
  logFormat : LogFormat := .pretty
  metricsEnabled : Bool := false
  metricsAddress : String := "0.0.0.0:9090"
  deriving DecidableEq, Repr

structure Config where
  client : ClientConfig := {}
  server : ServerConfig := {}
  gateway : GatewayConfig := {}
  observability : ObservabilityConfig := {}
  deriving DecidableEq, Repr

namespace LogFormat

def name : LogFormat → String
  | .pretty => "pretty"
  | .json => "json"

end LogFormat

def ClientConfig.toJson (c : ClientConfig) : Json :=
  .obj [("pool_size", .int c.poolSize), ("pool_ttl_secs", .int c.poolTtlSeconds),
    ("pool_max_idle", .int c.poolMaxIdle), ("pool_max_streams", .int c.poolMaxStreams),
    ("max_recv_msg_size", .int c.maxReceived), ("max_send_msg_size", .int c.maxSent),
    ("dial_timeout_ms", .int c.dialTimeoutMs), ("request_timeout_ms", .int c.requestTimeoutMs),
    ("audit_log", .bool c.audit), ("services", .obj (c.services.mapValues .str))]

def ServerConfig.toJson (c : ServerConfig) : Json :=
  .obj [("name", .str c.name), ("bind_address", .str c.bindAddress),
    ("max_recv_msg_size", .int c.maxReceived), ("max_send_msg_size", .int c.maxSent)]

def AuthConfig.toJson (c : AuthConfig) : Json :=
  .obj [("header", .str c.header), ("tokens", .arr (c.tokens.map .str))]

def GatewayConfig.toJson (c : GatewayConfig) : Json :=
  .obj [("bind_address", .str c.bindAddress), ("prefix", .str c.mount),
    ("grpc_port", .int c.grpcPort), ("max_body_size", .int c.maxBodySize),
    ("ws_ping_period_secs", .int c.pingPeriodSeconds),
    ("ws_max_message_size", .int c.maxMessageSize),
    ("auth", (c.auth.map AuthConfig.toJson).getD .null)]

def ObservabilityConfig.toJson (c : ObservabilityConfig) : Json :=
  .obj [("log_level", .str c.logLevel), ("log_format", .str c.logFormat.name),
    ("metrics_enabled", .bool c.metricsEnabled), ("metrics_address", .str c.metricsAddress)]

def Config.toJson (c : Config) : Json :=
  .obj [("client", c.client.toJson), ("server", c.server.toJson),
    ("gateway", c.gateway.toJson), ("observability", c.observability.toJson)]

end CallFabric
