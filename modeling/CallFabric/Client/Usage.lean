import CallFabric.Client.Duplex

namespace CallFabric.Client

inductive Origin
  | encoding
  | refusal
  | sending
  | receiving
  | decoding
  deriving DecidableEq, Repr

def Origin.isKept : Origin → Bool
  | .sending | .receiving => true
  | .encoding | .refusal | .decoding => false

structure Notice where
  origin : Origin
  fault : Fault
  deriving DecidableEq, Repr

namespace Duplex

def SendOutcome.fault? : SendOutcome → Option Fault
  | .failed f => some f
  | .sent | .waiting => none

def Receipt.fault? {α : Type} : Receipt α → Option Fault
  | .failed f => some f
  | .value _ | .ended | .waiting => none

def sendOrigin (d : Duplex) : Origin := if d.sendClosed then .refusal else .sending

def sendDatumOrigin (d : Duplex) (datum : Datum) : Origin :=
  match d.codec.encode datum with
  | .ok _ => d.sendOrigin
  | .error _ => .encoding

-- A message that was received can only fail to be read.
def Receipt.origin : Receipt Bytes → Origin
  | .value _ => .decoding
  | .ended | .failed _ | .waiting => .receiving

end Duplex

structure Usage where
  stream : Duplex
  notices : List Notice

namespace Usage

inductive Event
  | send (payload : Bytes)
  | sendDatum (datum : Datum)
  | resumeSend (closeFirst : Bool) (payload : Bytes)
  | receive (cancelFirst : Bool)
  | receiveDatum (cancelFirst : Bool) (shape : Shape)
  | closeSend
  | close
  | cancel
  | arrive (item : Except Status Bytes)
  | endInbound
  | peerTake
  | leave

def opened (codec : Codec) (capacity : Nat) : Usage := ⟨.opened codec capacity, []⟩

-- The error that is returned, if one is, and what becomes of the stream.
def outcome (d : Duplex) : Event → Option Notice × Duplex
  | .send payload =>
    let (outcome, e) := d.send payload
    (outcome.fault?.map (Notice.mk d.sendOrigin), e)
  | .sendDatum datum =>
    let (outcome, e) := d.sendDatum datum
    (outcome.fault?.map (Notice.mk (d.sendDatumOrigin datum)), e)
  | .resumeSend closeFirst payload =>
    let (outcome, e) := d.resumeSend closeFirst payload
    (outcome.fault?.map (Notice.mk .sending), e)
  | .receive cancelFirst =>
    let (receipt, e) := d.receive cancelFirst
    (receipt.fault?.map (Notice.mk .receiving), e)
  | .receiveDatum cancelFirst shape =>
    let (receipt, e) := d.receiveDatum cancelFirst shape
    (receipt.fault?.map (Notice.mk (d.receive cancelFirst).1.origin), e)
  | .closeSend => (none, d.closeSend)
  | .close => (none, d.close.2)
  | .cancel => (none, d.cancel)
  | .arrive item => (none, d.arrive item)
  | .endInbound => (none, d.endInbound)
  | .peerTake =>
    match d.peerTake? with
    | some (_, e) => (none, e)
    | none => (none, d)
  | .leave => (none, d.leave)

def step (u : Usage) (event : Event) : Usage :=
  let (notice?, stream) := outcome u.stream event
  ⟨stream, u.notices ++ notice?.toList⟩

def run (u : Usage) (events : List Event) : Usage := events.foldl step u

end Usage
end CallFabric.Client
