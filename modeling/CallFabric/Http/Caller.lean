import CallFabric.Http.MediaType
import CallFabric.Http.Reply
import CallFabric.Text.Charset

namespace CallFabric.Caller

def dropSlashesAtEnd (s : String) : String :=
  .ofList (s.toList.reverse.dropWhile (· = '/')).reverse

def standardMount : String := "/rpc"

def endpointUrl (gateway : String) (mount : Option String) (service endpoint : String) : String :=
  let below := (mount.map dropSlashesAtEnd).getD standardMount
  dropSlashesAtEnd gateway ++ below ++ "/" ++ service ++ "/" ++ endpoint

structure Response where
  status : Nat
  body : Json

def charsetOf (r : Reply) : Charset :=
  (((r.contentType.bind MediaType.ofText?).bind (·.parameter? "charset")).bind
    Charset.ofLabel?).getD .utf8

def Response.ofReply? (r : Reply) : Option Response :=
  let text := (charsetOf r).decode r.body
  if Text.trim text = "" then some ⟨r.status, .null⟩
  else (Json.ofText? (Bytes.ofText text)).map fun body => ⟨r.status, body⟩

def Response.isSuccess (r : Response) : Bool :=
  200 ≤ r.status && r.status < 300

-- The fault that the body is. A success counts as one only if its body has a status.
def Response.fault? (r : Response) : Option Fault :=
  if r.isSuccess && (r.body.member? "status").isNone then none else Fault.ofJson? r.body

end CallFabric.Caller
