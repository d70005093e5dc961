import CallFabric.Text.Blank

namespace CallFabric.ContentType

def json : String := "application/json"
def form : String := "application/x-www-form-urlencoded"
def multipart : String := "multipart/form-data"
def proto : String := "application/proto"
def protobuf : String := "application/protobuf"
def octetStream : String := "application/octet-stream"
def grpc : String := "application/grpc"
def grpcProto : String := "application/grpc+proto"

-- What a call without a content type is taken to carry.
def standard : String := grpc

def binaryTypes : List String := [proto, protobuf, octetStream, grpc, grpcProto]

def mediaType (contentType : String) : String :=
  .ofList (contentType.toList.takeWhile (· ≠ ';'))

def normalize (contentType : String) : String :=
  Text.lower (Text.trim (mediaType contentType))

inductive BodyKind
  | json
  | form
  | multipart
  | binary
  deriving DecidableEq, Repr

def bodyKind? (contentType : String) : Option BodyKind :=
  let normal := normalize contentType
  if normal = json then some .json
  else if normal = form then some .form
  else if normal = multipart then some .multipart
  else if normal ∈ binaryTypes then some .binary
  else none

def BodyKind.name : BodyKind → String
  | .json => "Json"
  | .form => "Form"
  | .multipart => "Multipart"
  | .binary => "Binary"

def BodyKind.isJson : BodyKind → Bool
  | .binary => false
  | _ => true

end CallFabric.ContentType
