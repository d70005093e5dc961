import CallFabric.ContentType
import CallFabric.Http.Form
import CallFabric.Http.Multipart
import CallFabric.Fault

namespace CallFabric.Gateway

open ContentType (BodyKind)

structure BodySource where
  method : String
  query : Option String
  headers : Headers
  body : Bytes
  deriving DecidableEq, Repr

inductive PayloadError
  | unsupported (contentType : String)
  | tooLarge
  | noForm
  | noMultipart
  | field (name : String)
  | file (name : String)
  deriving DecidableEq, Repr

def PayloadError.message : PayloadError → String
  | .unsupported contentType => "not support contentType:" ++ contentType
  | .tooLarge => "read body: length limit exceeded"
  | .noForm => "parse form: no form within the limit"
  | .noMultipart => "parse multipart: no parts within the limit"
  | .field name => "read field " ++ name ++ ": incomplete"
  | .file name => "read file " ++ name ++ ": incomplete"

def PayloadError.fault (e : PayloadError) : Fault := .badRequest e.message

namespace Payload

def collect (pairs : List (String × String)) : Table (List String) :=
  pairs.foldl (fun t (key, value) => t.modify key [] (· ++ [value])) []

def joined (values : List String) : Json := .str (Text.join "," values)

def ofPairs (pairs : List (String × String)) : Json :=
  .obj ((collect pairs).mapValues joined)

open Multipart (Part)

def texts (parts : List Part) : List (String × String) :=
  parts.filterMap fun p =>
    match p.header.name, p.header.fileName with
    | some name, none => some (name, p.text)
    | _, _ => none

def files (parts : List Part) : List (String × String × Bytes) :=
  parts.filterMap fun p =>
    match p.header.name, p.header.fileName with
    | some name, some fileName => some (name, fileName, p.content)
    | _, _ => none

def octetArray (bs : Bytes) : Json := .arr (bs.map fun b => .int b.toNat)

def fileNamesKey : String := "filenames"

-- A file counts more than texts of the same name, and the last file of a name is the one.
def ofParts (parts : List Part) : Json :=
  let files := files parts
  let contents := Table.ofList (files.map fun (name, _, content) => (name, octetArray content))
  let fields := ((collect (texts parts)).mapValues joined).union contents
  let fileNames := Table.ofList (files.map fun (name, fileName, _) => (name, Json.str fileName))
  .obj (if files.isEmpty then fields else fields.insert fileNamesKey (.obj fileNames))

-- A form in the query of a request that gets something, in the body of any other.
def formText (limit : Nat) (r : BodySource) : Except PayloadError Bytes :=
  if r.method = "GET" then .ok ((r.query.map Bytes.ofText).getD [])
  else if ((r.headers.text? "content-type").any fun t => Text.startsWith t ContentType.form) = false
  then .error .noForm
  else if limit < r.body.length then .error .noForm
  else .ok r.body

def boundary? (headers : Headers) : Option String := do
  let type ← (headers.text? "content-type").bind MediaType.ofText?
  if type.type = "multipart" ∧ type.subtype = "form-data" then type.parameter? "boundary" else none

def multipartObject (limit : Nat) (r : BodySource) : Except PayloadError Json :=
  match boundary? r.headers with
  | none => .error .noMultipart
  | some boundary =>
    if limit < r.body.length then .error .noMultipart
    else
      match Multipart.parts boundary r.body with
      | (parts, .complete) => .ok (ofParts parts)
      | (_, .broken) => .error .noMultipart
      | (_, .cutOff header) =>
        match header.name, header.fileName with
        | none, _ => .error .noMultipart
        | some name, none => .error (.field name)
        | some name, some _ => .error (.file name)

def standardFormLimit : Nat := 2 * 1024 * 1024

def extract (limit formLimit : Nat) (r : BodySource) : Except PayloadError (BodyKind × Bytes) :=
  let contentType := (r.headers.text? "content-type").getD ""
  match ContentType.bodyKind? contentType with
  | none => .error (.unsupported contentType)
  | some .form => (formText formLimit r).map fun text => (.form, (ofPairs (Form.pairs text)).text)
  | some .multipart => (multipartObject formLimit r).map fun object => (.multipart, object.text)
  | some kind => if limit < r.body.length then .error .tooLarge else .ok (kind, r.body)

end Payload
end CallFabric.Gateway
