import CallFabric.Config.Basic
import CallFabric.Net.SocketAddress
import CallFabric.Text.Quoted

namespace CallFabric

inductive Violation
  | notSocketAddress (value : String)
  | badMount (value : String)
  | emptyAddress (service : String)
  | zero
  | belowOne
  | empty
  | noToken
  deriving DecidableEq, Repr

def Violation.reason : Violation → String
  | .notSocketAddress value => Text.quoted value ++ " is not a socket address"
  | .badMount value => Text.quoted value ++ " must start with '/' and not end with one"
  | .emptyAddress service => "empty address for " ++ service
  | .zero => "must be positive"
  | .belowOne => "must be at least 1"
  | .empty => "must not be empty"
  | .noToken => "at least one token is required"

structure ConfigError where
  field : String
  violation : Violation
  deriving DecidableEq, Repr

def ConfigError.describe (e : ConfigError) : String :=
  e.field ++ ": " ++ e.violation.reason

namespace Config

def check (ok : Bool) (field : String) (violation : Violation) : List ConfigError :=
  if ok then [] else [⟨field, violation⟩]

def checkAddress (field value : String) : List ConfigError :=
  check (SocketAddress.isValid value) field (.notSocketAddress value)

def isMount (s : String) : Bool :=
  s.toList.head? = some '/' && s.toList.getLast? ≠ some '/'

def clientErrors (c : ClientConfig) : List ConfigError :=
  check (c.poolSize ≠ 0) "client.pool_size" .belowOne
    ++ check (c.poolMaxStreams ≠ 0) "client.pool_max_streams" .belowOne
    ++ check (c.poolTtlSeconds ≠ 0) "client.pool_ttl_secs" .zero
    ++ check (c.maxReceived ≠ 0 && c.maxSent ≠ 0) "client.max_*_msg_size" .zero
    ++ c.services.flatMap fun (name, address) =>
      check (Text.trim address ≠ "") "client.services" (.emptyAddress name)

def serverErrors (c : ServerConfig) : List ConfigError :=
  checkAddress "server.bind_address" c.bindAddress
    ++ check (c.maxReceived ≠ 0 && c.maxSent ≠ 0) "server.max_*_msg_size" .zero

def authErrors (c : AuthConfig) : List ConfigError :=
  check (c.header ≠ "") "gateway.auth.header" .empty
    ++ check (c.tokens ≠ []) "gateway.auth.tokens" .noToken

def gatewayErrors (c : GatewayConfig) : List ConfigError :=
  checkAddress "gateway.bind_address" c.bindAddress
    ++ check (isMount c.mount) "gateway.prefix" (.badMount c.mount)
    ++ check (c.maxBodySize ≠ 0) "gateway.max_body_size" .zero
    ++ check (c.pingPeriodSeconds ≠ 0) "gateway.ws_ping_period_secs" .zero
    ++ (c.auth.map authErrors).getD []

def observabilityErrors (c : ObservabilityConfig) : List ConfigError :=
  if c.metricsEnabled then checkAddress "observability.metrics_address" c.metricsAddress else []

def errors (c : Config) : List ConfigError :=
  clientErrors c.client ++ serverErrors c.server ++ gatewayErrors c.gateway
    ++ observabilityErrors c.observability

end Config
end CallFabric
