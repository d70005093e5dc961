import CallFabric.Fault.Status
import CallFabric.Call.Context
import CallFabric.Net.SocketAddress

namespace CallFabric.Rpc

structure Arrival where
  path : String
  headers : Headers
  peer : Option SocketAddress
  messages : List Bytes
  deriving Repr

structure Heading where
  metadata : Metadata
  timeout : Option Time
  contentType : String
  deriving DecidableEq, Repr

-- The peer's address takes the place of one that the peer claims; the time that is left is no part
-- of the metadata.
def Arrival.heading (a : Arrival) : Heading :=
  let sent := Metadata.ofHeaders a.headers
  let known := match a.peer with
    | some peer => sent.insert Metadata.remoteKey peer.text
    | none => sent
  let (timeout, metadata) := known.takeTimeout
  ⟨metadata, timeout, metadata.contentType?.getD ContentType.standard⟩

def encodingHeader : String := "grpc-encoding"

def Arrival.isPlain (a : Arrival) : Bool :=
  (a.headers.first? encodingHeader).all (· = Bytes.ofText "identity")

inductive TransportError
  | compressed
  | noRequest
  | noReply
  | receivedTooLong (length limit : Nat)
  | sentTooLong (length limit : Nat)
  deriving DecidableEq, Repr

namespace TransportError

def tooLong (action : String) (length limit : Nat) : String :=
  "Error, " ++ action ++ " message length too large: found " ++ toString length
    ++ " bytes, the limit is: " ++ toString limit ++ " bytes"

def message : TransportError → String
  | .compressed => "Content is compressed in a way which isn't supported"
  | .noRequest => "Missing request message."
  | .noReply => "Missing response message."
  | .receivedTooLong length limit => tooLong "decoded" length limit
  | .sentTooLong length limit => tooLong "encoded" length limit

def code : TransportError → StatusCode
  | .compressed => .unimplemented
  | .noRequest | .noReply => .internal
  | .receivedTooLong .. | .sentTooLong .. => .outOfRange

def status (e : TransportError) : Status := ⟨e.code, e.message⟩

end TransportError
end CallFabric.Rpc
