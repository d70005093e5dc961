import CallFabric.Fault
import CallFabric.Http.Headers

namespace CallFabric.Gateway

structure TokenCheck where
  header : String
  tokens : List String
  deriving DecidableEq, Repr

namespace TokenCheck

def ofConfig (header : String) (tokens : List String) : TokenCheck :=
  ⟨Text.lower header, tokens⟩

inductive Refusal
  | missing (header : String)
  | unknown
  deriving DecidableEq, Repr

def Refusal.fault : Refusal → Fault
  | .missing header => .unauthorized ("missing " ++ header ++ " header")
  | .unknown => .forbidden "invalid token"

def check (c : TokenCheck) (headers : Headers) : Except Refusal Unit :=
  let given := ((headers.text? c.header).map Text.trim).getD ""
  if given = "" then .error (.missing c.header)
  else if given ∈ c.tokens then .ok ()
  else .error .unknown

end TokenCheck
end CallFabric.Gateway
