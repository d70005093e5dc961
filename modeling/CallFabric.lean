import CallFabric.Address
import CallFabric.Call.Context
import CallFabric.Client.Call
import CallFabric.Client.Contention
import CallFabric.Client.Duplex
import CallFabric.Client.Link
import CallFabric.Client.Outgoing
import CallFabric.Client.Slot
import CallFabric.Client.Transmission
import CallFabric.Client.Usage
import CallFabric.Codec
import CallFabric.Codec.Registry
import CallFabric.Command.Arguments
import CallFabric.Command.Run
import CallFabric.Config.Basic
import CallFabric.Config.Reading
import CallFabric.Config.Validation
import CallFabric.ContentType
import CallFabric.Demo.Behaviour
import CallFabric.Fault
import CallFabric.Fault.Handler
import CallFabric.Fault.Status
import CallFabric.Gateway.Admission
import CallFabric.Gateway.Payload
import CallFabric.Gateway.Route
import CallFabric.Gateway.Serve
import CallFabric.Gateway.Session
import CallFabric.Gateway.Token
import CallFabric.Gateway.Upgrade
import CallFabric.Http.Caller
import CallFabric.Http.Form
import CallFabric.Http.Headers
import CallFabric.Http.MediaType
import CallFabric.Http.Multipart
import CallFabric.Http.Reply
import CallFabric.Http.StatusText
import CallFabric.Http.Uri
import CallFabric.Json.Basic
import CallFabric.Json.Overlay
import CallFabric.Json.Pretty
import CallFabric.Json.Text
import CallFabric.Json.Written
import CallFabric.Main
import CallFabric.MessagePack.Basic
import CallFabric.MessagePack.Json
import CallFabric.Metadata
import CallFabric.Metrics
import CallFabric.Net.SocketAddress
import CallFabric.Number.Binary64
import CallFabric.Number.Digits
import CallFabric.Number.Numeral
import CallFabric.Number.Shortest
import CallFabric.Pool.AddressPool
import CallFabric.Pool.Arena
import CallFabric.Pool.Manager
import CallFabric.Pool.System
import CallFabric.Rpc.Arrival
import CallFabric.Rpc.Network
import CallFabric.Rpc.Server
import CallFabric.Service.Call
import CallFabric.Service.Directory
import CallFabric.Service.Handler
import CallFabric.Shape.Basic
import CallFabric.Shape.OfItem
import CallFabric.Shape.OfJson
import CallFabric.Shape.OfText
import CallFabric.Shutdown
import CallFabric.Table
import CallFabric.Text.Blank
import CallFabric.Text.Bytes
import CallFabric.Text.Charset
import CallFabric.Text.Charset.UpperHalves
import CallFabric.Text.Percent
import CallFabric.Text.Printable
import CallFabric.Text.Quoted
import CallFabric.Text.Utf8
import CallFabric.Toml.Document
import CallFabric.Toml.Scan
import CallFabric.Proofs.Pool.Cells
import CallFabric.Proofs.Pool.Threading
import CallFabric.Proofs.Pool.Streams
import CallFabric.Proofs.Pool.Effects
import CallFabric.Proofs.Pool.Conservation
import CallFabric.Proofs.Pool.Custody
import CallFabric.Proofs.Pool.Room
import CallFabric.Proofs.Pool.Whereabouts
import CallFabric.Proofs.Pool.Eviction
import CallFabric.Proofs.Pool.Scan
import CallFabric.Proofs.Pool.Claiming
import CallFabric.Proofs.Client.Closing
import CallFabric.Proofs.Client.FirstError
import CallFabric.Gateway.Supervision
import CallFabric.Proofs.Gateway.Teardown
import CallFabric.Proofs.Gateway.Turns
import CallFabric.Proofs.Gateway.Relay
import CallFabric.Proofs.Gateway.Moves
import CallFabric.Proofs.Gateway.WaysOut
import CallFabric.Client.Tenancy
import CallFabric.Proofs.Client.Tenancy
import CallFabric.Proofs.Client.Delivery
import CallFabric.Proofs.Json.Reading
import CallFabric.Proofs.Json.Order
import CallFabric.Proofs.MessagePack.Reading
import CallFabric.Proofs.Shape.Fitting
import CallFabric.Proofs.Shape.Assembly
import CallFabric.Proofs.Shape.Reading
import CallFabric.Proofs.Json.Covering
import CallFabric.Proofs.Json.Containing
import CallFabric.Proofs.Shape.Covering
import CallFabric.Proofs.Codec.RoundTrip
import CallFabric.Proofs.Codec.Fidelity
import CallFabric.Proofs.Codec.Agreement
import CallFabric.Proofs.Codec.Transcoding
import CallFabric.Proofs.Json.Rendering
import CallFabric.Proofs.Fault.RoundTrip
import CallFabric.Proofs.Fault.Embedding
import CallFabric.Proofs.Text.Case
import CallFabric.Proofs.Text.Pieces
import CallFabric.Proofs.Service.Addressing
import CallFabric.Proofs.Text.Numerals
import CallFabric.Proofs.Metadata.Headers
import CallFabric.Proofs.Metadata.Hops
import CallFabric.Proofs.Metadata.Making
import CallFabric.Proofs.Metadata.Passage
import CallFabric.Proofs.Rpc.Heading
import CallFabric.Proofs.Gateway.Destination
import CallFabric.Proofs.Gateway.Answers
import CallFabric.Proofs.Gateway.Deadline
import CallFabric.Proofs.Gateway.Refusal
import CallFabric.Proofs.Gateway.Spelling
import CallFabric.Proofs.Service.Registration
import CallFabric.Proofs.Service.Listing
import CallFabric.Service.Task
import CallFabric.Proofs.Service.Acting
import CallFabric.Proofs.Service.Verdict
import CallFabric.Proofs.Service.Hosting
import CallFabric.Proofs.Client.Streaming
import CallFabric.Proofs.Rpc.Crossing
import CallFabric.Proofs.Client.Calling
import CallFabric.Proofs.Gateway.Agreement
import CallFabric.Call.Family
import CallFabric.Proofs.Call.Ties
import CallFabric.Proofs.Call.Descent
import CallFabric.Proofs.Metadata.Collecting
import CallFabric.Proofs.Text.Replacing
import CallFabric.Proofs.Http.Form
import CallFabric.Proofs.Gateway.Gathering
import CallFabric.Proofs.Pool.Links
import CallFabric.Proofs.Pool.Operations
import CallFabric.Proofs.Client.Auditing
import CallFabric.Proofs.Gateway.Tokens
