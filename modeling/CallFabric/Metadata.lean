import CallFabric.Table
import CallFabric.ContentType
import CallFabric.Http.Headers

namespace CallFabric

structure Metadata where
  entries : Table String
  deriving DecidableEq, Repr, Inhabited

namespace Metadata

def contentTypeKey : String := "x-content-type"
def plainContentTypeKey : String := "content-type"
-- What is left for the call, in nanoseconds.
def timeoutKey : String := "timeout"
def requestIdKey : String := "request_id"
def requestSequenceKey : String := "request_sq"
def remoteKey : String := "remote"

def empty : Metadata := ⟨[]⟩

def get? (m : Metadata) (key : String) : Option String :=
  m.entries.get? (Text.lower key)

def contains (m : Metadata) (key : String) : Bool :=
  (m.get? key).isSome

def insert (m : Metadata) (key value : String) : Metadata :=
  ⟨m.entries.insert (Text.lower key) value⟩

def erase (m : Metadata) (key : String) : Metadata :=
  ⟨m.entries.erase (Text.lower key)⟩

def size (m : Metadata) : Nat := m.entries.length

def ofPairs (pairs : List (String × String)) : Metadata :=
  pairs.foldl (fun m (k, v) => m.insert k v) empty

def ofHeaders (hs : Headers) : Metadata :=
  hs.names.foldl (fun m name =>
    if name = "connection" then m
    else
      match hs.texts name with
      | [] => m
      | values => m.insert name (Text.join "," values)) empty

def requestId? (m : Metadata) : Option String := m.get? requestIdKey

def requestSequence? (m : Metadata) : Option String := m.get? requestSequenceKey

def contentType? (m : Metadata) : Option String :=
  (m.get? contentTypeKey).or (m.get? plainContentTypeKey)

def isEmptyAt (m : Metadata) (key : String) : Bool :=
  (m.get? key).getD "" = ""

-- The number after the one that is written; zero where none is, and after the greatest.
def nextSequence (m : Metadata) : Nat :=
  match m.requestSequence?.bind fun s => Text.word64? (Text.trim s) with
  | some n => (n + 1) % 0x10000000000000000
  | none => 0

def outbound (m : Metadata) (freshId : String) : Metadata :=
  let typed := if m.isEmptyAt contentTypeKey then m.insert contentTypeKey ContentType.standard
    else m
  let named := if typed.isEmptyAt requestIdKey then typed.insert requestIdKey freshId else typed
  named.insert requestSequenceKey (toString m.nextSequence)

def setTimeout (m : Metadata) (nanoseconds : Nat) : Metadata :=
  m.insert timeoutKey (toString nanoseconds)

def takeTimeout (m : Metadata) : Option Nat × Metadata :=
  ((m.get? timeoutKey).bind fun s => Text.word64? (Text.trim s), m.erase timeoutKey)

def reserved : List String :=
  ["connection", "keep-alive", "proxy-connection", "transfer-encoding", "upgrade", "te", "host",
    "content-length", "content-type", "user-agent"]

def isForwardable (key : String) : Bool :=
  key ∉ reserved && !Text.startsWith key "grpc-" && !Text.startsWith key "sec-websocket-"

def binaryEnding : String := "-bin"

def isTextKey (key : String) : Bool :=
  Headers.isName key && Text.lower key = key
    && !binaryEnding.toList.reverse.isPrefixOf key.toList.reverse

-- Whether a transport carries the pair; a value that is no text for the receiver is carried too.
def carries (key value : String) : Bool :=
  isForwardable key && isTextKey key && (Bytes.ofText value).all Headers.isValueOctet

def toHeaders (m : Metadata) : Headers :=
  (m.entries.filter fun (k, v) => carries k v).map fun (k, v) => (k, Bytes.ofText v)

end Metadata

def requestIdOf (random : Nat) : String :=
  let octets := Bytes.bigEndian 16 random
  let versioned := octets.modify 6 fun b => b &&& 0x0f ||| 0x40
  let marked : Bytes := versioned.modify 8 fun b => b &&& 0x3f ||| 0x80
  marked.hexText

def isRequestId (s : String) : Bool :=
  let cs := s.toList
  cs.length = 32 && cs.all (fun c => Text.isDigit c || ('a' ≤ c && c ≤ 'f'))
    && cs[12]? = some '4' && (cs[16]?.any (· ∈ ['8', '9', 'a', 'b']))

end CallFabric
