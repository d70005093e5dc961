import CallFabric.Call.Context
import CallFabric.Client.Duplex

namespace CallFabric.Gateway

inductive Frame
  | text (s : String)
  | binary (payload : Bytes)
  | ping
  | pong
  | close
  | failure
  deriving DecidableEq, Repr

inductive SocketMessage
  | text (s : String)
  | ping
  | close
  deriving DecidableEq, Repr

inductive Pump
  | socketReader
  | socketWriter
  | callWriter
  | callReader
  deriving DecidableEq, Repr

def Pump.all : List Pump := [.socketReader, .callWriter, .callReader, .socketWriter]

inductive Hand
  | empty
  | holding (payload : Bytes)
  | exited
  deriving DecidableEq, Repr

inductive Writer
  | idle
  | writing (message : SocketMessage)
  | closing
  | exited
  deriving DecidableEq, Repr

structure Session where
  call : Client.Duplex
  cancelled : Bool
  closes : Nat
  source : List Frame
  sourceEnded : Bool
  accepting : Bool
  broken : Bool
  now : Time
  pingPeriod : Time
  nextPing : Time
  socketReader : Hand
  callWriter : Hand
  callReader : Hand
  socketWriter : Writer
  toCall : List Bytes
  toSocket : List Bytes
  panicked : List Pump
  -- From here on only what went by is recorded, and nothing depends on it.
  read : List Bytes
  handed : List Bytes
  received : List Bytes
  attempted : List SocketMessage
  written : List SocketMessage
  -- Frames that are no text; the first ends the session.
  refused : Nat

namespace Session

def queueCapacity : Nat := 10

-- A ping that comes later than this is not caught up with.
def pingGrace : Time := 5 * millisecond

def close (s : Session) : Bool × Session :=
  if s.closes = 0 then
    (true, { s with closes := 1, cancelled := true, call := s.call.close.2 })
  else (false, s)

def cancel (s : Session) : Session := { s with cancelled := true }

def gone (s : Session) : Pump → Session
  | .socketReader => { s with socketReader := .exited }
  | .callWriter => { s with callWriter := .exited }
  | .callReader => { s with callReader := .exited }
  | .socketWriter => { s with socketWriter := .exited }

def noteOfPanic (s : Session) (p : Pump) : Session := { s with panicked := p :: s.panicked }

def panic (s : Session) (p : Pump) : Session := ((s.noteOfPanic p).gone p).close.2

def fresh (call : Client.Duplex) (pingPeriod : Time) : Session :=
  ⟨call, false, 0, [], false, true, false, 0, pingPeriod, pingPeriod, .empty, .empty, .empty,
    .idle, [], [], [], [], [], [], [], [], 0⟩

def start (call : Client.Duplex) (pingPeriod : Time) : Session :=
  if pingPeriod = 0 then (fresh call pingPeriod).panic .socketWriter else fresh call pingPeriod

def hasExited (s : Session) : Pump → Bool
  | .socketReader => s.socketReader = .exited
  | .callWriter => s.callWriter = .exited
  | .callReader => s.callReader = .exited
  | .socketWriter => s.socketWriter = .exited

open Client.Duplex (Deed)

-- What a pump comes to between two waits: it goes on, or it is done, with what it has still to do
-- to the call.
inductive Turn
  | on (s : Session)
  | out (s : Session) (last : List Deed)

def parting : Pump → List Deed
  | .callWriter => [.endSending]
  | .socketReader | .callReader | .socketWriter => []

def stop (s : Session) (p : Pump) : Turn := .out s (parting p)

def onCancel (s : Session) (p : Pump) : List Turn := if s.cancelled then [s.stop p] else []

def readFrame (s : Session) : List Turn :=
  match s.source with
  | .text t :: rest =>
    let payload := Bytes.ofText t
    [.on { s with source := rest, socketReader := .holding payload, read := s.read ++ [payload] }]
  | .binary _ :: rest => [{ s with source := rest, refused := s.refused + 1 }.stop .socketReader]
  | .ping :: rest | .pong :: rest => [.on { s with source := rest }]
  | .close :: rest | .failure :: rest => [{ s with source := rest }.stop .socketReader]
  | [] => if s.sourceEnded then [s.stop .socketReader] else []

def socketReaderTurns (s : Session) : List Turn :=
  match s.socketReader with
  | .exited => []
  | .empty => s.onCancel .socketReader ++ s.readFrame
  | .holding payload =>
    s.onCancel .socketReader ++
      if s.callWriter = .exited then [s.stop .socketReader]
      else if s.toCall.length < queueCapacity then
        [.on { s with socketReader := .empty, toCall := s.toCall ++ [payload] }]
      else []

def afterSend (s : Session) (payload : Bytes) :
    Client.Duplex.SendOutcome × Client.Duplex → List Turn
  | (.sent, call) => [.on { s with call, callWriter := .empty, handed := s.handed ++ [payload] }]
  | (.failed f, call) => [.out { s with call } (.record f :: parting .callWriter)]
  | (.waiting, _) => []

-- Once it sends, this pump looks out for nothing but the send.
def callWriterTurns (s : Session) : List Turn :=
  match s.callWriter with
  | .exited => []
  | .empty =>
    s.onCancel .callWriter ++
      match s.toCall with
      | payload :: rest =>
        let s := { s with toCall := rest }
        if s.call.sendClosed then [s.stop .callWriter]
        else [.on { s with callWriter := .holding payload }]
      | [] => if s.socketReader = .exited then [s.stop .callWriter] else []
  | .holding payload =>
    s.afterSend payload (s.call.trySend true payload)
      ++ if s.call.sendClosed then s.afterSend payload (s.call.trySend false payload) else []

def afterReceive (s : Session) : Client.Duplex.Receipt Bytes × Client.Duplex → List Turn
  | (.value payload, call) =>
    [.on { s with call, callReader := .holding payload, received := s.received ++ [payload] }]
  | (.waiting, _) => []
  | (receipt, call) => [.out { s with call } receipt.deeds]

def callReaderTurns (s : Session) : List Turn :=
  match s.callReader with
  | .exited => []
  | .empty =>
    s.onCancel .callReader ++ s.afterReceive (s.call.tryReceive true)
      ++ if s.call.cancelled then s.afterReceive (s.call.tryReceive false) else []
  | .holding payload =>
    s.onCancel .callReader ++
      if s.socketWriter = .exited then [s.stop .callReader]
      else if s.toSocket.length < queueCapacity then
        [.on { s with callReader := .empty, toSocket := s.toSocket ++ [payload] }]
      else []

def beginWrite (s : Session) (message : SocketMessage) : Session :=
  { s with socketWriter := .writing message, attempted := s.attempted ++ [message] }

def beginClose (s : Session) : Session :=
  { s with socketWriter := .closing, attempted := s.attempted ++ [.close] }

def pingAfter (s : Session) : Time :=
  if s.nextPing + pingGrace < s.now then s.now + s.pingPeriod else s.nextPing + s.pingPeriod

-- Once it writes, this pump looks out for nothing but the socket.
def socketWriterTurns (s : Session) : List Turn :=
  match s.socketWriter with
  | .exited => []
  | .idle =>
    (if s.cancelled then [.on s.beginClose] else [])
      ++ (if s.nextPing ≤ s.now then [.on ({ s with nextPing := s.pingAfter }.beginWrite .ping)]
        else [])
      ++ match s.toSocket with
        | payload :: rest => [.on ({ s with toSocket := rest }.beginWrite (.text payload.lossy))]
        | [] => if s.callReader = .exited then [.on s.beginClose] else []
  | .writing message =>
    if !s.accepting then []
    else if s.broken then [.on s.beginClose]
    else [.on { s with socketWriter := .idle, written := s.written ++ [message] }]
  | .closing =>
    if !s.accepting then []
    else
      let written := if s.broken then s.written else s.written ++ [.close]
      [{ s with written }.stop .socketWriter]

def turns (s : Session) : Pump → List Turn
  | .socketReader => s.socketReaderTurns
  | .callWriter => s.callWriterTurns
  | .callReader => s.callReaderTurns
  | .socketWriter => s.socketWriterTurns

def Turn.result (p : Pump) : Turn → Session
  | .on s => s
  | .out s last => ({ s with call := s.call.finish last }.gone p).close.2

def moves (s : Session) (p : Pump) : List Session := (s.turns p).map (·.result p)

structure Report where
  exited : Nat
  closes : Nat
  deriving DecidableEq, Repr

def report? (s : Session) : Option Report :=
  if Pump.all.all s.hasExited then some ⟨Pump.all.length, s.closes⟩ else none

def deliver (s : Session) (f : Frame) : Client.Duplex.Delivery × Session :=
  if s.sourceEnded then (.ended, s)
  else if s.hasExited .socketReader then (.rejected, s)
  else (.queued, { s with source := s.source ++ [f] })

-- Where several moves can be made and nothing else decides, the first of them is.
def move? (s : Session) : Option Session := Pump.all.findSome? fun p => (s.moves p).head?

def settle : Nat → Session → Session
  | 0, s => s
  | fuel + 1, s =>
    match s.move? with
    | some s => settle fuel s
    | none => s

-- Lets time pass up to an instant, and the pings go that are due before it. The fuel bounds the
-- pings.
def passTo (settleFuel : Nat) (instant : Time) : Nat → Session → Session
  | 0, s => { s with now := instant }
  | fuel + 1, s =>
    if s.nextPing < instant ∧ s.socketWriter ≠ .exited then
      passTo settleFuel instant fuel ({ s with now := max s.now s.nextPing }.settle settleFuel)
    else { s with now := instant }

def runFor (duration : Time) (s : Session) : Session :=
  let fuel :=
    20 * (s.source.length + s.call.inbox.length + s.toCall.length + s.toSocket.length) + 200
  let s := s.settle fuel
  let pings := if s.pingPeriod = 0 then 0 else duration / s.pingPeriod + 1
  s.passTo fuel (s.now + duration) pings

end Session
end CallFabric.Gateway
