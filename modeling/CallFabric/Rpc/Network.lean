import CallFabric.Http.Uri
import CallFabric.Rpc.Server

namespace CallFabric.Rpc

structure Network where
  servers : Table Server
  caller : SocketAddress

namespace Network

-- An address without a scheme is one of plain HTTP.
def addressUri (address : String) : String :=
  if Text.startsWith address "http://" || Text.startsWith address "https://" then address
  else "http://" ++ address

def refusal? (n : Network) (address : String) : Option String :=
  if (Uri.ofText? (addressUri address)).isNone then some "invalid URI"
  else if (n.servers.get? address).isNone then some "transport error"
  else none

def transportHeaders : Headers :=
  [("te", Bytes.ofText "trailers"), ("content-type", Bytes.ofText ContentType.grpc)]

def arrival (n : Network) (path : String) (metadata : Metadata) (messages : List Bytes) :
    Arrival :=
  ⟨path, metadata.toHeaders ++ transportHeaders, some n.caller, messages⟩

end Network
end CallFabric.Rpc
