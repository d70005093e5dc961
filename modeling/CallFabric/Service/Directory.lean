import CallFabric.Codec.Registry
import CallFabric.Service.Handler

namespace CallFabric.Service

structure Endpoint where
  method : String
  url : String
  clientStream : Bool
  serverStream : Bool
  deriving DecidableEq, Repr

def Endpoint.isStream (e : Endpoint) : Bool := e.clientStream || e.serverStream

structure Descriptor where
  name : String
  aliases : List String
  requestType : String
  replyType : String
  handler : Handler

namespace Descriptor

def kind (d : Descriptor) : Kind := d.handler.kind

end Descriptor

inductive RegistryError
  | emptyName (service : String)
  | duplicateKey (key existing : String)
  | streamMismatch (method : String) (declared : Bool) (kind : Kind)
  deriving DecidableEq, Repr

def RegistryError.name : RegistryError → String
  | .emptyName .. => "EmptyName"
  | .duplicateKey .. => "DuplicateKey"
  | .streamMismatch .. => "StreamMismatch"

def RegistryError.message : RegistryError → String
  | .emptyName service => "service " ++ service ++ ": empty method name"
  | .duplicateKey key existing =>
    "handler key " ++ key ++ " already registered by " ++ existing
  | .streamMismatch method declared kind =>
    "endpoint " ++ method ++ " declares stream=" ++ toString declared ++ " but handler is "
      ++ kind.name

structure Directory where
  handlers : Table Descriptor
  codecs : Codec.Registry

namespace Directory

def empty (codecs : Codec.Registry) : Directory := ⟨[], codecs⟩

def get? (d : Directory) (key : String) : Option Descriptor := d.handlers.get? key

def size (d : Directory) : Nat := d.handlers.length

def keys (d : Directory) : List String := d.handlers.keys

def aliasesOf (name : String) (endpoint : Option Endpoint) : List String :=
  match endpoint with
  | some e => if e.url ≠ "" ∧ e.url ≠ name then [e.url] else []
  | none => []

def taken? (d : Directory) (keys : List String) : Option (String × String) :=
  keys.findSome? fun key => (d.get? key).map fun found => (key, found.name)

def insert (d : Directory) (service : String) (m : Method) (endpoint : Option Endpoint) :
    Except RegistryError Directory :=
  let name := keyOf service m.name
  let kind := m.handler.kind
  let aliases := aliasesOf name endpoint
  if m.name = "" then .error (.emptyName service)
  else if endpoint.any (·.isStream ≠ kind.isStream) then
    .error (.streamMismatch name (endpoint.any (·.isStream)) kind)
  else
    match d.taken? (name :: aliases) with
    | some (key, existing) => .error (.duplicateKey key existing)
    | none =>
      let descriptor : Descriptor := ⟨name, aliases, m.requestType, m.replyType, m.handler⟩
      let aliased := aliases.foldl (fun t key => Table.insert key descriptor t) d.handlers
      .ok { d with handlers := Table.insert name descriptor aliased }

-- What registering came to: how many methods were added or what stopped it, the directory with
-- those that were added before, and the endpoints that matched no method.
structure Registration where
  result : Except RegistryError Nat
  directory : Directory
  unmatched : List Endpoint

def insertAll (d : Directory) (added : Nat) :
    List (String × Method × Option Endpoint) → Except RegistryError Nat × Directory
  | [] => (.ok added, d)
  | (service, m, endpoint) :: rest =>
    match d.insert service m endpoint with
    | .error e => (.error e, d)
    | .ok d => insertAll d (added + 1) rest

def register (d : Directory) (s : Definition) : Registration :=
  let (result, directory) := d.insertAll 0 (s.methods.map fun m => (s.name, m, none))
  ⟨result, directory, []⟩

def registerFrom (d : Directory) (added : Nat) : List Definition → Registration
  | [] => ⟨.ok added, d, []⟩
  | s :: rest =>
    let r := d.register s
    match r.result with
    | .ok n => registerFrom r.directory (added + n) rest
    | .error _ => r

def registerEach (d : Directory) (services : List Definition) : Registration :=
  d.registerFrom 0 services

def selected (services : List Definition) (endpoints : List Endpoint) :
    List (String × Method × Option Endpoint) :=
  services.flatMap fun s => s.methods.filterMap fun m =>
    (endpoints.find? (·.method = keyOf s.name m.name)).map fun e => (s.name, m, some e)

def registerWith (d : Directory) (services : List Definition) (endpoints : List Endpoint) :
    Registration :=
  let methods := selected services endpoints
  match d.insertAll 0 methods with
  | (.error e, directory) => ⟨.error e, directory, []⟩
  | (.ok added, directory) =>
    let matched := methods.map fun (service, m, _) => keyOf service m.name
    ⟨.ok added, directory, endpoints.filter (·.method ∉ matched)⟩

def registerGiven (d : Directory) (services : List Definition)
    (endpoints : Option (List Endpoint)) : Registration :=
  match endpoints with
  | some endpoints => d.registerWith services endpoints
  | none => d.registerEach services

def lastPart (s : String) : String :=
  .ofList (s.toList.reverse.takeWhile (· ≠ '.')).reverse

-- The handler for a path such as `/package.Type/Method`: that of `Type.Method`, else of the
-- method alone, else of the path itself.
def resolvePath? (d : Directory) (path : String) : Option Descriptor :=
  let bare := String.ofList (path.toList.dropWhile (· = '/'))
  let byParts := (Text.splitFirst? '/' bare).bind fun (service, method) =>
    (d.get? (keyOf (lastPart service) method)).or (d.get? method)
  byParts.or (d.get? path)

end Directory
end CallFabric.Service
