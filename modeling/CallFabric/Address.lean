import CallFabric.Table
import CallFabric.Text.Blank
import CallFabric.Fault

namespace CallFabric.Address

-- An endpoint `Type.Method` names the type as part of the service; one that starts with a slash
-- is the path itself.
def methodPath (service endpoint : String) : String :=
  if Text.startsWith endpoint "/" then endpoint
  else
    match Text.splitFirst? '.' endpoint with
    | some (typeName, method) =>
      if Text.contains method '.' then "/" ++ service ++ "/" ++ endpoint
      else if service = "" then "/" ++ typeName ++ "/" ++ method
      else "/" ++ service ++ "." ++ typeName ++ "/" ++ method
    | none => "/" ++ service ++ "/" ++ endpoint

structure Target where
  service : String
  endpoint : String
  deriving DecidableEq, Repr

inductive TargetError
  | noService (rest : String)
  | noEndpoint (rest : String)
  deriving DecidableEq, Repr

def TargetError.fault : TargetError → Fault
  | .noService rest => .badRequest ("[gate] service is empty url:" ++ rest)
  | .noEndpoint rest => .badRequest ("[gate] endpoint is empty url:" ++ rest)

def parseTarget (rest : String) : Except TargetError Target :=
  let segments := Text.splitChars '/' (rest.toList.dropWhile (· = '/'))
  let service := String.ofList (segments.headD [])
  let endpoint := String.ofList ((segments.drop 1).headD [])
  if service = "" then .error (.noService rest)
  else if endpoint = "" then .error (.noEndpoint rest)
  else .ok ⟨service, endpoint⟩

def resolve (services : Table String) (target : String) : String :=
  (services.get? target).getD target

def destination (services : Table String) (service : String) (port : Nat) : String :=
  (services.get? service).getD (service ++ ":" ++ toString port)

end CallFabric.Address
