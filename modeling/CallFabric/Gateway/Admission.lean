import CallFabric.Config.Basic
import CallFabric.Gateway.Route
import CallFabric.Gateway.Token
import CallFabric.Service.Handler

namespace CallFabric.Gateway

inductive Verdict
  | admitted
  | refused (f : Fault)
  | panicked (p : Service.Panic)
  deriving DecidableEq, Repr

abbrev Admission := Parts → Verdict

namespace Admission

def everyone : Admission := fun _ => .admitted

def ofTokens (c : TokenCheck) : Admission := fun p =>
  match c.check p.headers with
  | .ok () => .admitted
  | .error e => .refused e.fault

def ofConfig : Option AuthConfig → Admission
  | none => everyone
  | some a => ofTokens (.ofConfig a.header a.tokens)

end Admission
end CallFabric.Gateway
