import CallFabric.Json.Text
import CallFabric.Shape.OfText

namespace CallFabric

structure Fault where
  code : Int32
  status : UInt16
  message : String
  deriving DecidableEq, Repr, Inhabited

namespace Fault

def transportCode : Int32 := -1

def ofStatus (status : UInt16) (message : String) : Fault := ⟨transportCode, status, message⟩

-- Reported by a handler; travels as a success.
def business (code : Int32) (message : String) : Fault := ⟨code, 200, message⟩

def badRequest : String → Fault := ofStatus 400
def unauthorized : String → Fault := ofStatus 401
def forbidden : String → Fault := ofStatus 403
def notFound : String → Fault := ofStatus 404
def methodNotAllowed : String → Fault := ofStatus 405
def timeout : String → Fault := ofStatus 408
def conflict : String → Fault := ofStatus 409
def internal : String → Fault := ofStatus 500
def notImplemented : String → Fault := ofStatus 501
def badGateway : String → Fault := ofStatus 502
def unavailable : String → Fault := ofStatus 503
def gatewayTimeout : String → Fault := ofStatus 504

def isUnavailable (f : Fault) : Bool := f.status = 503

def toJson (f : Fault) : Json :=
  .obj [("code", .int f.code.toInt), ("status", .int f.status.toNat), ("msg", .str f.message)]

def text (f : Fault) : Bytes := f.toJson.text

def render (f : Fault) : String := f.toJson.render

def shape : Shape := .record [("code", .i32), ("status", .u16), ("msg", .text)]

def ofDatum (d : Datum) : Fault :=
  ⟨.ofInt (d.intField "code"), .ofNat (d.intField "status").toNat, d.textField "msg"⟩

def ofJson? (v : Json) : Option Fault := (shape.ofJson? v).map ofDatum

def opening : Bytes := [0x7b, 0x22]

def fromOpening? : Bytes → Option Bytes
  | [] => none
  | b :: bs =>
    if opening.isPrefixOf (b :: bs) then some (b :: bs) else fromOpening? bs

def embedded? (bs : Bytes) : Option Fault := do
  let candidate ← fromOpening? bs
  let written ← Json.Written.first? candidate
  let d ← shape.ofWritten? Json.Written.depthLimit written
  return ofDatum d

-- A text that carries no fault is the message of a bad request.
def parse (message : String) : Fault :=
  (embedded? (Bytes.ofText message)).getD (badRequest message)

end Fault
end CallFabric
