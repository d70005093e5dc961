import CallFabric.Client.Duplex

namespace CallFabric.Client

inductive Purpose
  | send (outcome : Duplex.SendOutcome)
  | receive (receipt : Duplex.Receipt Bytes)
  | closeSend
  | close
  deriving DecidableEq, Repr

def Purpose.closes : Purpose → Bool
  | .close | .receive (.failed _) | .receive .ended => true
  | .send _ | .receive (.value _) | .receive .waiting | .closeSend => false

structure Task where
  purpose : Purpose
  operation : Duplex.Operation
  deriving DecidableEq, Repr

namespace Task

def isOver (t : Task) : Bool := t.operation.deeds.isEmpty

-- Whether this is the attempt that closed the stream, which is what a close tells its caller.
def closed (t : Task) : Bool := t.operation.found.isSome

end Task

structure Contention where
  stream : Duplex
  tasks : List Task
  -- The call was cancelled by somebody else than the stream.
  cancelledOutside : Bool

namespace Contention

inductive Event
  | send (payload : Bytes)
  | resumeSend (closeFirst : Bool) (payload : Bytes)
  | receive (cancelFirst : Bool)
  | close
  | closeSend
  | cancel
  | proceed (task : Nat)
  | arrive (item : Except Status Bytes)
  | endInbound
  | peerTake
  | leave

def opened (codec : Codec) (capacity : Nat) : Contention := ⟨.opened codec capacity, [], false⟩

def begin (c : Contention) (stream : Duplex) (purpose : Purpose) (deeds : List Duplex.Deed) :
    Contention :=
  { c with stream, tasks := c.tasks ++ [⟨purpose, .toDo deeds⟩] }

-- A send that waits has not begun anything.
def attemptSend (c : Contention) : Duplex.SendOutcome × Duplex → Contention
  | (.waiting, _) => c
  | (outcome, stream) => c.begin stream (.send outcome) outcome.deeds

def attemptReceive (c : Contention) : Duplex.Receipt Bytes × Duplex → Contention
  | (.waiting, _) => c
  | (receipt, stream) => c.begin stream (.receive receipt) receipt.deeds

def proceed (c : Contention) (number : Nat) : Contention :=
  match c.tasks[number]? with
  | some t =>
    let (operation, stream) := t.operation.proceed c.stream
    { c with stream, tasks := c.tasks.set number { t with operation } }
  | none => c

def step (c : Contention) : Event → Contention
  | .send payload =>
    if c.stream.sendClosed then c.begin c.stream (.send (.failed Duplex.sendAfterClose)) []
    else c.attemptSend (c.stream.trySend true payload)
  | .resumeSend closeFirst payload => c.attemptSend (c.stream.trySend closeFirst payload)
  | .receive cancelFirst => c.attemptReceive (c.stream.tryReceive cancelFirst)
  | .close => c.begin c.stream .close Duplex.closing
  | .closeSend => c.begin c.stream .closeSend [.endSending]
  | .cancel => { c with stream := c.stream.cancel, cancelledOutside := true }
  | .proceed number => c.proceed number
  | .arrive item => { c with stream := c.stream.arrive item }
  | .endInbound => { c with stream := c.stream.endInbound }
  | .peerTake =>
    match c.stream.peerTake? with
    | some (_, stream) => { c with stream }
    | none => c
  | .leave => { c with stream := c.stream.leave }

def run (c : Contention) (events : List Event) : Contention := events.foldl step c

def finishLast (c : Contention) (deeds : List Duplex.Deed) : Contention :=
  c.run (deeds.map fun _ => .proceed (c.tasks.length - 1))

theorem proceed_eq {c : Contention} {t : Task} {number : Nat} (ht : c.tasks[number]? = some t) :
    c.proceed number = { c with
      stream := (t.operation.proceed c.stream).2
      tasks  := c.tasks.set number { t with operation := (t.operation.proceed c.stream).1 } } := by
  simp [proceed, ht]

theorem stream_run_proceed {c : Contention} {t : Task} {number : Nat}
    (ht : c.tasks[number]? = some t) (deeds : List Duplex.Deed) :
    (c.run (deeds.map fun _ => .proceed number)).stream =
      (deeds.foldl (fun (o, d) _ => Duplex.Operation.proceed o d) (t.operation, c.stream)).2 := by
  induction deeds generalizing c t
  case nil => rfl
  case cons deed deeds hi =>
    have hlt := (List.getElem?_eq_some_iff.mp ht).1
    have hn : (c.proceed number).tasks[number]? =
        some { t with operation := (t.operation.proceed c.stream).1 } := by
      rw [proceed_eq ht, List.getElem?_set_self hlt]
    calc (c.run ((deed :: deeds).map fun _ => .proceed number)).stream
      _ = ((c.proceed number).run (deeds.map fun _ => .proceed number)).stream := rfl
      _ = _ := hi hn
      _ = _ := by rw [proceed_eq ht]; rfl

theorem stream_finishLast (c : Contention) (stream : Duplex) (purpose : Purpose)
    (deeds : List Duplex.Deed) :
    ((c.begin stream purpose deeds).finishLast deeds).stream = stream.finish deeds := by
  have ht : (c.begin stream purpose deeds).tasks[(c.begin stream purpose deeds).tasks.length - 1]? =
      some ⟨purpose, .toDo deeds⟩ := by simp [begin]
  exact stream_run_proceed ht deeds

theorem stream_close (c : Contention) :
    ((c.step .close).finishLast Duplex.closing).stream = c.stream.close.2 :=
  (c.stream_finishLast _ _ _).trans (Duplex.finish_closing _)

theorem stream_receive (c : Contention) (cancelFirst : Bool) :
    ((c.step (.receive cancelFirst)).finishLast (c.stream.tryReceive cancelFirst).1.deeds).stream =
      (c.stream.receive cancelFirst).2 := by
  have hw := c.stream.tryReceive_waiting cancelFirst
  simp only [step, Duplex.receive]
  generalize c.stream.tryReceive cancelFirst = result at hw ⊢
  obtain ⟨receipt, stream⟩ := result
  cases receipt
  case waiting => exact (hw rfl).symm
  all_goals exact c.stream_finishLast _ _ _

theorem stream_resumeSend (c : Contention) (closeFirst : Bool) (payload : Bytes) :
    ((c.step (.resumeSend closeFirst payload)).finishLast
        (c.stream.trySend closeFirst payload).1.deeds).stream =
      (c.stream.resumeSend closeFirst payload).2 := by
  have hw := c.stream.trySend_waiting closeFirst payload
  simp only [step, Duplex.resumeSend]
  generalize c.stream.trySend closeFirst payload = result at hw ⊢
  obtain ⟨outcome, stream⟩ := result
  cases outcome
  case waiting => exact (hw rfl).symm
  all_goals exact c.stream_finishLast _ _ _

end Contention
end CallFabric.Client
