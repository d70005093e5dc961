import CallFabric.Client.Call
import CallFabric.Client.Contention

namespace CallFabric.Client

namespace Tenancy

inductive Stage
  | asking
  | ended (e : Ending)
  | opening (codec : Codec)
  | refused (s : Status)
  | givenUp
  | streaming (c : Contention)
  | gone (c : Contention)

inductive Outcome
  | fine
  | failed (f : Fault)
  | dropped
  deriving DecidableEq, Repr

namespace Outcome

def ofResult : Except Fault Bytes → Outcome
  | .ok _ => .fine
  | .error f => .failed f

def ofClose : Option Fault → Outcome
  | none => .fine
  | some f => .failed f

end Outcome

-- For a stream that was closed, the error that the one who closed it found recorded.
def closedWith? (c : Contention) : Option (Option Fault) := c.tasks.findSome? (·.operation.found)

namespace Stage

def owed : Stage → List SlotAction
  | .asking | .opening _ => []
  | .ended e => SlotAction.afterUnary e
  | .refused s => SlotAction.afterOpening (.failed s)
  | .givenUp => SlotAction.afterOpening .dropped
  | .streaming c => SlotAction.ofStream c.stream
  | .gone c => SlotAction.ofStreamGone c.stream

def outcome? : Stage → Option Outcome
  | .asking | .opening _ => none
  | .ended e => some ((e.result?.map .ofResult).getD .dropped)
  | .refused s => some (.failed s.toFault)
  | .givenUp => some .dropped
  | .streaming c => (closedWith? c).map .ofClose
  | .gone c => some (((closedWith? c).map .ofClose).getD .dropped)

def isAtRest : Stage → Bool
  | .asking | .opening _ => false
  | .ended _ | .refused _ | .givenUp | .gone _ => true
  | .streaming c => c.stream.closed && c.tasks.all Task.isOver

end Stage
end Tenancy

structure Tenancy where
  slot : Slot
  pools : Pool.System
  stage : Tenancy.Stage
  done : List SlotAction

namespace Tenancy

inductive Event
  | answer (e : Ending)
  | answerOpening (o : SlotAction.Opening)
  | use (e : Contention.Event)
  | drop
  | act
  | pool (e : Pool.Event)

def unary (slot : Slot) (pools : Pool.System) : Tenancy := ⟨slot, pools, .asking, []⟩

def stream (codec : Codec) (slot : Slot) (pools : Pool.System) : Tenancy :=
  ⟨slot, pools, .opening codec, []⟩

-- Nobody else has the handle of the call.
def isOfOthers (number : Nat) : Pool.Event → Bool
  | .release k _ | .drop k => k ≠ number
  | _ => true

def afterOpening (codec : Codec) : SlotAction.Opening → Stage
  | .opened => .streaming (.opened codec streamRoom)
  | .failed s => .refused s
  | .dropped => .givenUp

-- Who does something to a stream has it, so that it is not gone before that is done.
def letGo (c : Contention) : Stage := if c.tasks.all Task.isOver then .gone c else .streaming c

def step (t : Tenancy) : Event → Tenancy
  | .answer e =>
    match t.stage with
    | .asking => { t with stage := .ended e }
    | _ => t
  | .answerOpening o =>
    match t.stage with
    | .opening codec => { t with stage := afterOpening codec o }
    | _ => t
  | .use e =>
    match t.stage with
    | .streaming c => { t with stage := .streaming (c.step e) }
    | _ => t
  | .drop =>
    match t.stage with
    | .streaming c => { t with stage := letGo c }
    | _ => t
  | .act =>
    match t.stage.owed[t.done.length]? with
    | some a => { t with pools := (t.slot.act t.pools a).2, done := t.done ++ [a] }
    | none => t
  | .pool e =>
    if isOfOthers t.slot.handle e then { t with pools := (t.pools.step e).2 } else t

def run (t : Tenancy) (events : List Event) : Tenancy := events.foldl step t

def releases (actions : List SlotAction) : List Bool :=
  actions.filterMap fun
    | .release failed => some failed
    | .distrust | .evict => none

end Tenancy
end CallFabric.Client
