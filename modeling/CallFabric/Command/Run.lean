import CallFabric.Command.Arguments
import CallFabric.ContentType
import CallFabric.Gateway.Route
import CallFabric.Http.Caller
import CallFabric.Http.Reply
import CallFabric.Http.StatusText
import CallFabric.Json.Pretty

namespace CallFabric.Command

structure Outcome where
  exit : Nat
  out : String
  err : String
  deriving DecidableEq, Repr

inductive CommandError
  | noHeader
  | noBody
  | noAddress
  | noReply
  deriving DecidableEq, Repr

def CommandError.message : CommandError → String
  | .noHeader => "no header of HTTP"
  | .noBody => "no JSON in the body"
  | .noAddress => "no address of a gateway"
  | .noReply => "error sending request"

def tokenHeader (a : Arguments) : Except CommandError Headers :=
  match a.token with
  | none => .ok []
  | some token =>
    let value := Bytes.ofText token
    if Headers.isName a.header && value.all Headers.isValueOctet then
      .ok [(Text.lower a.header, value)]
    else .error .noHeader

def url (a : Arguments) : String :=
  Caller.endpointUrl a.url (some a.mount) a.service a.endpoint

def request (a : Arguments) : Except CommandError Gateway.Request := do
  let token ← tokenHeader a
  match Json.ofText? (Bytes.ofText a.body), Uri.ofText? (url a) with
  | none, _ => .error .noBody
  | _, none => .error .noAddress
  | some body, some uri =>
    let headers := token.filter fun (name, _) => name ≠ "content-type"
    let replaced := token.filter fun (name, _) => name = "content-type"
    let type : Headers := if replaced.isEmpty then
        [("content-type", Bytes.ofText ContentType.json)]
      else replaced
    return ⟨⟨"POST", uri, type ++ headers, false⟩, body.text⟩

def printed (body : Bytes) : String :=
  match Json.ofText? body with
  | some v => v.pretty
  | none => body.lossy

def ofReply (r : Reply) : Outcome :=
  let text := printed r.body ++ "\n"
  if 200 ≤ r.status ∧ r.status < 300 then ⟨0, text, ""⟩
  else ⟨0, "", "Error: gateway returned status " ++ StatusText.text r.status ++ "\n" ++ text⟩

def failed (e : CommandError) : Outcome := ⟨1, "", "Error: " ++ e.message ++ "\n"⟩

def misused : Outcome :=
  ⟨2, "", "Usage: gate-cli [OPTIONS] <COMMAND>\n\nFor more information, try '--help'.\n"⟩

-- Runs the command; `send` gets a request its reply, unless the gateway cannot be reached. A token
-- that is not among the words may be inherited.
def run (send : Gateway.Request → Option Reply) (inherited : Option String)
    (words : List String) : Outcome :=
  match parse words with
  | .misuse => misused
  | .help topic => ⟨0, topic.text, ""⟩
  | .call a =>
    match request { a with token := a.token.or inherited } with
    | .error e => failed e
    | .ok r =>
      match send r with
      | none => failed .noReply
      | some reply => ofReply reply

end CallFabric.Command
