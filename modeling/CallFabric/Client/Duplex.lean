import CallFabric.Codec
import CallFabric.Fault.Status

namespace CallFabric.Client

structure Duplex where
  codec : Codec
  closed : Bool
  error : Option Fault
  -- What the connection was handed back with, for each time that it was.
  releases : List (Option Fault)
  cancelled : Bool
  sendClosed : Bool
  outbox : List Bytes
  capacity : Nat
  peerGone : Bool
  -- Arrived and not yet received; a status is the end of the call in an error.
  inbox : List (Except Status Bytes)
  inboundEnded : Bool

namespace Duplex

def opened (codec : Codec) (capacity : Nat) : Duplex :=
  ⟨codec, false, none, [], false, false, [], capacity, false, [], false⟩

def sendAfterClose : Fault := .badRequest "[rpc-client] stream send: closed"
def sendAfterEnd : Fault := .badRequest "[rpc-client] stream send: call ended"
def receiveCancelled : Fault := .timeout "[rpc-client] stream recv: context canceled"

def encodeFault (e : CodecError) : Fault :=
  .badRequest ("[rpc-client] stream encode: " ++ e.message)

def decodeFault (e : CodecError) : Fault :=
  .badRequest ("[rpc-client] stream decode: " ++ e.message)

def record (d : Duplex) (f : Fault) : Duplex := { d with error := d.error.or (some f) }

def close (d : Duplex) : Bool × Duplex :=
  if d.closed then (false, d)
  else
    (true, { d with
      closed := true
      sendClosed := true
      releases := d.releases ++ [d.error]
      cancelled := d.cancelled || d.error.isSome })

@[simp] theorem inbox_close (d : Duplex) : d.close.2.inbox = d.inbox := by
  unfold close; split <;> rfl

@[simp] theorem inboundEnded_close (d : Duplex) : d.close.2.inboundEnded = d.inboundEnded := by
  unfold close; split <;> rfl

@[simp] theorem error_close (d : Duplex) : d.close.2.error = d.error := by
  unfold close; split <;> rfl

@[simp] theorem closed_close (d : Duplex) : d.close.2.closed = true := by
  unfold close
  split
  case isTrue h => exact h
  case isFalse  => rfl

def closeSend (d : Duplex) : Duplex := { d with sendClosed := true }

def cancel (d : Duplex) : Duplex := { d with cancelled := true }

inductive Deed
  | record (f : Fault)
  | close
  | endSending
  | handBack
  | cancelCall
  deriving DecidableEq, Repr

def closing : List Deed := [.close, .endSending, .handBack, .cancelCall]

structure Operation where
  deeds : List Deed
  -- For the one that marked the stream as closed, the error that was recorded at that moment.
  found : Option (Option Fault)
  deriving DecidableEq, Repr

namespace Operation

def toDo (deeds : List Deed) : Operation := ⟨deeds, none⟩

def proceed (o : Operation) (d : Duplex) : Operation × Duplex :=
  match o.deeds with
  | [] => (o, d)
  | .record f :: rest => ({ o with deeds := rest }, d.record f)
  | .close :: rest =>
    if d.closed then ({ o with deeds := [] }, d)
    else (⟨rest, some d.error⟩, { d with closed := true })
  | .endSending :: rest => ({ o with deeds := rest }, d.closeSend)
  | .handBack :: rest =>
    ({ o with deeds := rest }, { d with releases := d.releases ++ [o.found.join] })
  | .cancelCall :: rest =>
    ({ o with deeds := rest }, if o.found.join.isSome then d.cancel else d)

end Operation

def finish (d : Duplex) (deeds : List Deed) : Duplex :=
  (deeds.foldl (fun (o, d) _ => Operation.proceed o d) (Operation.toDo deeds, d)).2

theorem finish_nil (d : Duplex) : d.finish [] = d := rfl

theorem finish_closing (d : Duplex) : d.finish closing = d.close.2 := by
  cases h : d.closed <;> cases he : d.error <;>
    simp [finish, closing, Operation.toDo, Operation.proceed, close, closeSend, cancel, h, he]

theorem finish_record_closing (d : Duplex) (f : Fault) :
    d.finish (.record f :: closing) = (d.record f).close.2 :=
  finish_closing (d.record f)

inductive SendOutcome
  | sent
  | failed (f : Fault)
  | waiting
  deriving DecidableEq, Repr

def SendOutcome.deeds : SendOutcome → List Deed
  | .failed f => [.record f]
  | .sent | .waiting => []

def offer (d : Duplex) (payload : Bytes) : SendOutcome × Duplex :=
  if d.peerGone then (.failed sendAfterEnd, d)
  else if d.outbox.length < d.capacity then (.sent, { d with outbox := d.outbox ++ [payload] })
  else (.waiting, d)

-- What a send that was admitted comes to; one that has to wait changes nothing. Once sending is
-- closed it fails, unless the outbox is looked at first and has room.
def trySend (closeFirst : Bool) (d : Duplex) (payload : Bytes) : SendOutcome × Duplex :=
  if d.sendClosed then
    if closeFirst then (.failed sendAfterClose, d)
    else
      match d.offer payload with
      | (.waiting, _) => (.failed sendAfterClose, d)
      | result => result
  else d.offer payload

theorem offer_outbox (d : Duplex) (payload : Bytes) :
    (d.offer payload).2 =
      { d with outbox := d.outbox ++ if (d.offer payload).1 = .sent then [payload] else [] } := by
  unfold offer
  split
  case isTrue  => simp
  case isFalse => split <;> simp

theorem trySend_outbox (closeFirst : Bool) (d : Duplex) (payload : Bytes) :
    (d.trySend closeFirst payload).2 =
      { d with
        outbox := d.outbox ++
          if (d.trySend closeFirst payload).1 = .sent then [payload] else [] } := by
  have ho := d.offer_outbox payload
  unfold trySend
  split
  case isFalse => exact ho
  case isTrue =>
    split
    case isTrue => simp
    case isFalse =>
      split
      case h_1 => simp
      case h_2 => exact ho

theorem trySend_waiting (closeFirst : Bool) (d : Duplex) (payload : Bytes)
    (h : (d.trySend closeFirst payload).1 = .waiting) : (d.trySend closeFirst payload).2 = d := by
  simp [trySend_outbox, h]

def resumeSend (closeFirst : Bool) (d : Duplex) (payload : Bytes) : SendOutcome × Duplex :=
  let (outcome, d) := d.trySend closeFirst payload
  (outcome, d.finish outcome.deeds)

-- A send after sending was closed is refused and not recorded.
def send (d : Duplex) (payload : Bytes) : SendOutcome × Duplex :=
  if d.sendClosed then (.failed sendAfterClose, d) else d.resumeSend true payload

-- A datum that the codec has no form for is not sent, and the failure not recorded.
def sendDatum (d : Duplex) (datum : Datum) : SendOutcome × Duplex :=
  match d.codec.encode datum with
  | .ok payload => d.send payload
  | .error e => (.failed (encodeFault e), d)

inductive Receipt (α : Type)
  | value (a : α)
  | ended
  | failed (f : Fault)
  | waiting
  deriving DecidableEq, Repr

def Receipt.deeds {α : Type} : Receipt α → List Deed
  | .failed f => .record f :: closing
  | .ended => closing
  | .value _ | .waiting => []

def takeArrived (d : Duplex) : Receipt Bytes × Duplex :=
  match d.inbox with
  | .ok payload :: rest => (.value payload, { d with inbox := rest })
  | .error status :: rest => (.failed status.toFault, { d with inbox := rest })
  | [] => if d.inboundEnded then (.ended, d) else (.waiting, d)

-- The next message. A cancelled call has none, unless what has arrived is looked at first.
def tryReceive (cancelFirst : Bool) (d : Duplex) : Receipt Bytes × Duplex :=
  if d.cancelled then
    if cancelFirst then (.failed receiveCancelled, d)
    else
      match d.takeArrived with
      | (.waiting, _) => (.failed receiveCancelled, d)
      | result => result
  else d.takeArrived

theorem takeArrived_inbox (d : Duplex) :
    ∃ inbox, d.takeArrived.2 = { d with inbox } ∧
      (d.takeArrived.1 = .waiting → inbox = d.inbox) := by
  unfold takeArrived
  split
  case h_3  => split <;> exact ⟨d.inbox, rfl, fun _ => rfl⟩
  all_goals exact ⟨_, rfl, by simp⟩

theorem tryReceive_inbox (cancelFirst : Bool) (d : Duplex) :
    ∃ inbox, (d.tryReceive cancelFirst).2 = { d with inbox } ∧
      ((d.tryReceive cancelFirst).1 = .waiting → inbox = d.inbox) := by
  have ht := d.takeArrived_inbox
  unfold tryReceive
  split
  case isFalse => exact ht
  case isTrue =>
    split
    case isTrue => exact ⟨d.inbox, rfl, fun _ => rfl⟩
    case isFalse =>
      split
      case h_1 => exact ⟨d.inbox, rfl, fun _ => rfl⟩
      case h_2 => exact ht

theorem tryReceive_waiting (cancelFirst : Bool) (d : Duplex)
    (h : (d.tryReceive cancelFirst).1 = .waiting) : (d.tryReceive cancelFirst).2 = d := by
  obtain ⟨inbox, hd, hw⟩ := d.tryReceive_inbox cancelFirst
  rw [hd, hw h]

def receive (cancelFirst : Bool) (d : Duplex) : Receipt Bytes × Duplex :=
  let (receipt, d) := d.tryReceive cancelFirst
  (receipt, d.finish receipt.deeds)

def receiveDatum (cancelFirst : Bool) (d : Duplex) (shape : Shape) : Receipt Datum × Duplex :=
  match d.receive cancelFirst with
  | (.value payload, d) =>
    match d.codec.decode shape payload with
    | .ok datum => (.value datum, d)
    | .error e => (.failed (decodeFault e), d)
  | (.ended, d) => (.ended, d)
  | (.failed f, d) => (.failed f, d)
  | (.waiting, d) => (.waiting, d)

inductive Delivery
  | queued
  | rejected
  | ended
  deriving DecidableEq, Repr

def Delivery.name : Delivery → String
  | .queued => "queued"
  | .rejected => "rejected"
  | .ended => "ended"

def arrive (d : Duplex) (item : Except Status Bytes) : Duplex :=
  { d with inbox := d.inbox ++ [item] }

def deliver (capacity : Nat) (d : Duplex) (item : Except Status Bytes) : Delivery × Duplex :=
  if d.inboundEnded then (.ended, d)
  else if capacity ≤ d.inbox.length then (.rejected, d)
  else (.queued, d.arrive item)

def endInbound (d : Duplex) : Duplex := { d with inboundEnded := true }

def peerTake? (d : Duplex) : Option (Bytes × Duplex) :=
  match d.outbox with
  | payload :: rest => some (payload, { d with outbox := rest })
  | [] => none

def leave (d : Duplex) : Duplex := { d with peerGone := true, outbox := [] }

end Duplex
end CallFabric.Client
