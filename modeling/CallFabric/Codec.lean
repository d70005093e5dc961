import CallFabric.Json.Overlay
import CallFabric.Json.Text
import CallFabric.Shape.OfItem

namespace CallFabric

inductive Codec
  | json
  | messagePack
  deriving DecidableEq, Repr

inductive CodecError
  | json
  | messagePackDecode
  deriving DecidableEq, Repr

namespace CodecError

def stage : CodecError → String
  | .json => "json"
  | .messagePackDecode => "msgpack decode"

def message : CodecError → String
  | .json => CodecError.json.stage ++ ": no text or value of the wanted form"
  | .messagePackDecode =>
    CodecError.messagePackDecode.stage ++ ": no item or value of the wanted form"

end CodecError

namespace Codec

def name : Codec → String
  | .json => "json"
  | .messagePack => "msgpack"

def isJson : Codec → Bool
  | .json => true
  | .messagePack => false

def encode (c : Codec) (d : Datum) : Except CodecError Bytes :=
  match c with
  | .json =>
    match d.toJson? with
    | some v => .ok v.text
    | none => .error .json
  | .messagePack => .ok d.toItem.octets

def readError : Codec → CodecError
  | .json => .json
  | .messagePack => .messagePackDecode

def decode (c : Codec) (s : Shape) (payload : Bytes) : Except CodecError Datum :=
  let found := match c with
    | .json => s.ofText? payload
    | .messagePack => s.ofOctets? payload
  match found with
  | some d => .ok d
  | none => .error c.readError

def decodeValue (c : Codec) (payload : Bytes) : Except CodecError Json :=
  let found := match c with
    | .json => Json.ofText? payload
    | .messagePack => (MessagePack.ofOctets? payload).bind (·.toJson?)
  match found with
  | some v => .ok v
  | none => .error c.readError

-- The value of `s` that `payload` makes of `default`: an object's members replace those of the
-- default one by one.
def decodeOver (c : Codec) (s : Shape) (default : Datum) (payload : Bytes) :
    Except CodecError Datum :=
  if payload.all Bytes.isBlank then .ok default
  else
    match c.decodeValue payload, default.toJson? with
    | .error e, _ => .error e
    | .ok _, none => .error .json
    | .ok patch, some base =>
      match s.ofJson? (base.sorted.overlay patch) with
      | some d => .ok d
      | none => .error .json

def toJsonText (c : Codec) (payload : Bytes) : Except CodecError Bytes :=
  match c with
  | .json => .ok payload
  | .messagePack =>
    if payload.isEmpty then .ok [0x7b, 0x7d]
    else (c.decodeValue payload).map Json.text

end Codec
end CallFabric
