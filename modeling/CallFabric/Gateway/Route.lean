import CallFabric.Http.Headers
import CallFabric.Http.Uri
import CallFabric.Text.Percent

namespace CallFabric.Gateway

structure Parts where
  method : String
  uri : Uri
  headers : Headers
  upgradable : Bool
  deriving DecidableEq, Repr

structure Request where
  parts : Parts
  body : Bytes
  deriving DecidableEq, Repr

-- A line that is none of HTTP names no request.
def Parts.ofLine? (method uri : String) (headers : Headers) (upgradable : Bool) : Option Parts :=
  if Headers.isName method then (Uri.ofText? uri).map fun uri => ⟨method, uri, headers, upgradable⟩
  else none

inductive Route
  | call (rest : String)
  | session (rest : String)
  | unreadable
  | options
  | otherMethod
  | elsewhere
  deriving DecidableEq, Repr

namespace Route

def restOf? (mount path : String) : Option String :=
  let lead := mount ++ "/"
  let rest := path.toList.drop lead.length
  if Text.startsWith path lead && !rest.isEmpty then some (.ofList rest) else none

def unescape? (rest : String) : Option String :=
  Bytes.text? (Percent.decode (Bytes.ofText rest))

def of (mount : String) (p : Parts) : Route :=
  match restOf? mount p.uri.path with
  | none => .elsewhere
  | some rest =>
    if p.method = "POST" then ((unescape? rest).map .call).getD .unreadable
    else if p.method = "GET" ∨ p.method = "HEAD" then
      ((unescape? rest).map .session).getD .unreadable
    else if p.method = "OPTIONS" then .options
    else .otherMethod

end Route
end CallFabric.Gateway
