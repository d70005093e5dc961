import CallFabric.Json.Basic
import CallFabric.Pool.AddressPool
import CallFabric.Table
import CallFabric.Text.Blank

namespace CallFabric

inductive Measurement
  | dial (address : String) (ok : Bool)
  | poolState (address : String) (stats : Pool.Stats)
  | eviction (address : String)
  | call (method outcome : String)
  | dispatch (method outcome : String)
  | gatewayRequest (kind : String) (status : Nat)
  | sessions (active : Nat)
  deriving DecidableEq, Repr

-- Series by their text. Counters add up, gauges keep the last value, and of durations the number of
-- samples is kept.
abbrev Metrics := Table Nat

namespace Metrics

def empty : Metrics := []

def series (name : String) (labels : List (String × String)) : String :=
  let parts := (Table.ofList labels).map fun (k, v) => k ++ "=" ++ v
  name ++ "\x7b" ++ Text.join "," parts ++ "\x7d"

def count (m : Metrics) (name : String) (labels : List (String × String)) : Metrics :=
  m.modify (series name labels) 0 (· + 1)

def gauge (m : Metrics) (name : String) (labels : List (String × String)) (n : Nat) : Metrics :=
  m.insert (series name labels) n

def record (m : Metrics) : Measurement → Metrics
  | .dial address ok =>
    m.count "rpc_pool_dials_total" [("addr", address), ("result", if ok then "ok" else "error")]
  | .poolState address stats =>
    [("open", stats.tracked), ("idle", stats.idle), ("available", stats.available),
      ("saturated", stats.saturated)].foldl (fun m (state, n) =>
        m.gauge "rpc_pool_connections" [("addr", address), ("state", state)] n) m
  | .eviction address => m.count "rpc_pool_evictions_total" [("addr", address)]
  | .call method outcome =>
    (m.count "rpc_client_calls_total" [("method", method), ("outcome", outcome)]).count
      "rpc_client_call_duration_seconds" [("method", method)]
  | .dispatch method outcome =>
    (m.count "rpc_server_dispatch_total" [("method", method), ("outcome", outcome)]).count
      "rpc_server_dispatch_duration_seconds" [("method", method)]
  | .gatewayRequest kind status =>
    (m.count "gateway_requests_total" [("kind", kind), ("status", toString status)]).count
      "gateway_request_duration_seconds" [("kind", kind)]
  | .sessions active => m.gauge "gateway_ws_sessions_active" [] active

def recordAll (m : Metrics) (ms : List Measurement) : Metrics := ms.foldl record m

def toJson (m : Metrics) : Json := .obj (m.mapValues fun (n : Nat) => .int n)

end Metrics
end CallFabric
