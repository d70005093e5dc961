import CallFabric.Client.Duplex
import CallFabric.Pool.System

namespace CallFabric.Client

inductive Ending
  | reply (payload : Bytes)
  | status (s : Status)
  | brokenDown (reason : String)
  | cancelled
  | outOfTime
  | dropped
  deriving DecidableEq, Repr

namespace Ending

def cancelledFault : Fault := .timeout "[rpc-client] req fail: context canceled"
def outOfTimeFault : Fault := .timeout "[rpc-client] req fail: context deadline exceeded"

def result? : Ending → Option (Except Fault Bytes)
  | .reply payload => some (.ok payload)
  | .status s => some (.error s.toFault)
  | .brokenDown reason => some (.error (.internal ("[rpc-client] call task failed: " ++ reason)))
  | .cancelled => some (.error cancelledFault)
  | .outOfTime => some (.error outOfTimeFault)
  | .dropped => none

end Ending

inductive SlotAction
  | distrust
  | evict
  | release (failed : Bool)
  deriving DecidableEq, Repr

namespace SlotAction

def afterError (f : Fault) : List SlotAction :=
  if f.isUnavailable then [.distrust, .evict, .release true] else [.release true]

def afterUnary (e : Ending) : List SlotAction :=
  match e.result? with
  | none => [.release true]
  | some (.ok _) => [.release false]
  | some (.error f) => afterError f

def afterClose : Option Fault → List SlotAction
  | none => [.release false]
  | some f => if f.isUnavailable then [.distrust, .release true, .evict] else [.release true]

def ofStream (d : Duplex) : List SlotAction := d.releases.flatMap afterClose

def ofStreamGone (d : Duplex) : List SlotAction :=
  ofStream d ++ if d.closed then [] else [.release true]

-- How the opening of a stream ends; a stream that nobody waits for is given up.
inductive Opening
  | opened
  | failed (s : Status)
  | dropped
  deriving DecidableEq, Repr

def afterOpening : Opening → List SlotAction
  | .opened => []
  | .failed s => afterError s.toFault
  | .dropped => [.release true]

end SlotAction

structure Slot where
  handle : Nat
  conn : Nat
  address : String
  deriving DecidableEq, Repr

namespace Slot

-- A connection that is closed stays what it is.
def distrust (s : Slot) (pools : Pool.System) : Pool.System :=
  if pools.health[s.conn]? = some .ready then
    (pools.step (.setHealth s.conn .transientFailure)).2
  else pools

def act (s : Slot) (pools : Pool.System) : SlotAction → Bool × Pool.System
  | .distrust => (false, s.distrust pools)
  | .evict =>
    match pools.evict s.address with
    | (.done found, pools) => (found, pools)
    | (_, pools) => (false, pools)
  | .release failed => (false, (pools.release s.handle failed).2)

-- Actions one after the other; how often a pool was removed.
def actAll (s : Slot) (pools : Pool.System) (actions : List SlotAction) : Nat × Pool.System :=
  actions.foldl (fun (removed, pools) a =>
    let (found, pools) := s.act pools a
    (if found then removed + 1 else removed, pools)) (0, pools)

end Slot
end CallFabric.Client
