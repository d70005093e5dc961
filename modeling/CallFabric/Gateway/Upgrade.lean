import CallFabric.Fault
import CallFabric.Gateway.Route

namespace CallFabric.Gateway

inductive UpgradeError
  | notGet
  | noConnection
  | noProtocol
  | noKey
  | noVersion
  | fixedConnection
  deriving DecidableEq, Repr

namespace UpgradeError

def message : UpgradeError → String
  | .notGet => "Request method must be \x60GET\x60"
  | .noConnection => "Connection header did not include 'upgrade'"
  | .noProtocol => "\x60Upgrade\x60 header did not include 'websocket'"
  | .noKey => "\x60Sec-WebSocket-Key\x60 header missing"
  | .noVersion => "\x60Sec-WebSocket-Version\x60 header did not include '13'"
  | .fixedConnection =>
    "WebSocket request couldn't be upgraded since no upgrade state was present"

def fault (e : UpgradeError) : Fault := .badRequest ("[gate] " ++ e.message)

end UpgradeError

namespace Parts

def names (p : Parts) (header value : String) : Bool :=
  ((p.headers.first? header).bind Bytes.text?).any (Text.lower · = value)

def isWithin (part : List Char) : List Char → Bool
  | [] => part.isEmpty
  | c :: cs => part.isPrefixOf (c :: cs) || isWithin part cs

def mentions (p : Parts) (header part : String) : Bool :=
  ((p.headers.first? header).bind Bytes.text?).any fun value =>
    isWithin part.toList (Text.lower value).toList

-- What is found lacking first.
def upgradeError? (p : Parts) : Option UpgradeError :=
  if p.method ≠ "GET" then some .notGet
  else if !p.mentions "connection" "upgrade" then some .noConnection
  else if !p.names "upgrade" "websocket" then some .noProtocol
  else if (p.headers.first? "sec-websocket-key").isNone then some .noKey
  else if !p.names "sec-websocket-version" "13" then some .noVersion
  else if !p.upgradable then some .fixedConnection
  else none

end Parts
end CallFabric.Gateway
