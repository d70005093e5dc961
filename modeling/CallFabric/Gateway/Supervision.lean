import CallFabric.Client.Contention
import CallFabric.Gateway.Session

namespace CallFabric.Gateway

open Client (Contention Task)
open Client.Duplex (Deed)

inductive Party
  | pump (p : Pump)
  | supervisor
  deriving DecidableEq, Repr

def Party.all : List Party := .supervisor :: Pump.all.map .pump

-- A pump that is done does to the call what is left to do, then it wants the guard of the teardown.
-- Whoever comes to the guard first tears the session down and holds it until the call is closed;
-- the others find that done.
inductive Stage
  | working
  | parting (task : Nat)
  | waiting
  | entered
  | closing (task : Nat)
  | over
  deriving DecidableEq, Repr

def Stage.holds : Stage → Bool
  | .entered | .closing _ => true
  | .working | .parting _ | .waiting | .over => false

structure Supervision where
  session : Session
  tasks : List Task
  cancelledOutside : Bool
  stage : Party → Stage
  running : List Pump
  exited : Nat

namespace Supervision

-- A session over a call of which something is known. Where the period of the pings is zero the pump
-- that writes to the socket panics first of all.
def started (calls : Contention) (pingPeriod : Time) : Supervision :=
  ⟨.fresh calls.stream pingPeriod, calls.tasks, calls.cancelledOutside, fun _ => .working, Pump.all,
    0⟩

def calls (v : Supervision) : Contention := ⟨v.session.call, v.tasks, v.cancelledOutside⟩

def put (v : Supervision) (party : Party) (stage : Stage) : Supervision :=
  { v with stage := fun q => if q = party then stage else v.stage q }

def begin (v : Supervision) (task : Task) : Supervision := { v with tasks := v.tasks ++ [task] }

def deed (v : Supervision) (number : Nat) : Supervision :=
  let calls := v.calls.proceed number
  { v with session := { v.session with call := calls.stream }, tasks := calls.tasks }

def isDone (v : Supervision) (number : Nat) : Bool := v.tasks[number]?.all Task.isOver

def held (v : Supervision) : Bool := Party.all.any fun q => (v.stage q).holds

@[simp] theorem put_stage (v : Supervision) (q : Party) (stage : Stage) :
    (v.put q stage).stage q = stage := by
  simp [put]

theorem put_stage_ne {q r : Party} (v : Supervision) (stage : Stage) (h : r ≠ q) :
    (v.put q stage).stage r = v.stage r := by
  simp [put, h]

theorem put_stage_congr {v w : Supervision} {q : Party} {stage last : Stage}
    (h : w.stage = (v.put q stage).stage) : (w.put q last).stage = (v.put q last).stage := by
  funext r
  simp only [put, h]
  split <;> rfl

theorem holds_put {v : Supervision} (h : ∀ r, (v.stage r).holds = false) {q : Party} {stage : Stage}
    (hs : stage.holds = false) (r : Party) : ((v.put q stage).stage r).holds = false := by
  simp only [put]
  split
  case isTrue  => exact hs
  case isFalse => exact h r

theorem held_eq_false {v : Supervision} : v.held = false ↔ ∀ q, (v.stage q).holds = false := by
  simp only [held, List.any_eq_false, Bool.not_eq_true]
  refine ⟨fun h q => h q ?_, fun h q _ => h q⟩
  cases q
  case supervisor => decide
  case pump p     => cases p <;> decide

inductive Event
  | turn (p : Pump) (choice : Nat)
  | panic (p : Pump)
  | advance (q : Party)
  | join (p : Pump)
  | deliver (f : Frame)
  | endSource
  | accept (accepting : Bool)
  | breakSocket
  | pass (duration : Time)
  | cancelSession
  | cancelCall
  | arrive (item : Except Status Bytes)
  | endInbound
  | peerTake
  | leave

def purpose (last : List Deed) : Client.Purpose := if .close ∈ last then .close else .closeSend

def part (v : Supervision) (p : Pump) (session : Session) (last : List Deed) : Supervision :=
  ({ v with session }.begin ⟨purpose last, .toDo last⟩).put (.pump p) (.parting v.tasks.length)

def turn (v : Supervision) (p : Pump) (choice : Nat) : Supervision :=
  if v.stage (.pump p) = .working then
    match (v.session.turns p)[choice]? with
    | some (.on session) => { v with session }
    | some (.out session last) => v.part p session last
    | none => v
  else v

def panic (v : Supervision) (p : Pump) : Supervision :=
  if v.stage (.pump p) = .working then
    { v with session := v.session.noteOfPanic p }.put (.pump p) .waiting
  else v

def enter (v : Supervision) (q : Party) : Supervision :=
  { v with session := { v.session with closes := 1 } }.put q .entered

def beginClose (v : Supervision) (q : Party) : Supervision :=
  ({ v with session := v.session.cancel }.begin ⟨.close, .toDo Client.Duplex.closing⟩).put q
    (.closing v.tasks.length)

def retire (v : Supervision) : Party → Supervision
  | .pump p => { v with session := v.session.gone p }.put (.pump p) .over
  | .supervisor => v.put .supervisor .working

def advance (v : Supervision) (q : Party) : Supervision :=
  match v.stage q with
  | .working | .over => v
  | .parting number => if v.isDone number then v.put q .waiting else v.deed number
  | .waiting => if v.held then v else if v.session.closes = 0 then v.enter q else v.retire q
  | .entered => v.beginClose q
  | .closing number => if v.isDone number then v.retire q else v.deed number

def join (v : Supervision) (p : Pump) : Supervision :=
  if v.stage .supervisor = .working ∧ p ∈ v.running ∧ v.stage (.pump p) = .over then
    { v with running := v.running.erase p, exited := v.exited + 1 }.put .supervisor
      (if p ∈ v.session.panicked then .waiting else .working)
  else v

-- What others do to the call does not depend on the session.
def onCall (v : Supervision) (call : Client.Duplex) : Supervision :=
  { v with session := { v.session with call } }

def step (v : Supervision) : Event → Supervision
  | .turn p choice => v.turn p choice
  | .panic p => v.panic p
  | .advance q => v.advance q
  | .join p => v.join p
  | .deliver f => { v with session := (v.session.deliver f).2 }
  | .endSource => { v with session := { v.session with sourceEnded := true } }
  | .accept accepting => { v with session := { v.session with accepting } }
  | .breakSocket => { v with session := { v.session with broken := true } }
  | .pass duration => { v with session := { v.session with now := v.session.now + duration } }
  | .cancelSession => { v with session := v.session.cancel }
  | .cancelCall => { v.onCall v.session.call.cancel with cancelledOutside := true }
  | .arrive item => v.onCall (v.session.call.arrive item)
  | .endInbound => v.onCall v.session.call.endInbound
  | .peerTake =>
    match v.session.call.peerTake? with
    | some (_, call) => v.onCall call
    | none => v
  | .leave => v.onCall v.session.call.leave

def run (v : Supervision) (events : List Event) : Supervision := events.foldl step v

def report? (v : Supervision) : Option Session.Report :=
  if v.running = [] ∧ v.stage .supervisor = .working then some ⟨v.exited, v.session.closes⟩
  else none

end Supervision
end CallFabric.Gateway
