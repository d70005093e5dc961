import CallFabric.Call.Context

namespace CallFabric

inductive Held
  | bare (t : Token)
  | context (ctx : Context)
  deriving DecidableEq, Repr

namespace Held

def token : Held → Token
  | .bare t      => t
  | .context ctx => ctx.token

def context? : Held → Option Context
  | .bare _      => none
  | .context ctx => some ctx

end Held

-- What is held is known by its number, in the order in which it came.
structure Family where
  now : Time
  cancellation : Cancellation
  members : List Held
  deriving DecidableEq, Repr

namespace Family

inductive Birth
  | token
  | childToken (of : Nat)
  | sameToken (of : Nat)
  | new (m : Metadata)
  | background
  | child (of : Nat)
  -- Under the token of a member, which need not be a context.
  | childOf (of : Nat) (m : Metadata)
  | clone (of : Nat)
  deriving DecidableEq, Repr

inductive Gift
  | deadline (d : Time)
  | timeout (t : Time)
  | metadata (m : Metadata)
  deriving DecidableEq, Repr

inductive Event
  | join (birth : Birth)
  | give (of : Nat) (gift : Gift)
  | cancel (of : Nat)
  | wait (time : Time)
  deriving DecidableEq, Repr

def start : Family := ⟨0, .empty, []⟩

def token? (f : Family) (i : Nat) : Option Token := f.members[i]?.map Held.token

def context? (f : Family) (i : Nat) : Option Context := f.members[i]?.bind Held.context?

def born? (f : Family) : Birth → Option (Held × Cancellation)
  | .token =>
    let (t, c) := f.cancellation.root
    some (.bare t, c)
  | .childToken i =>
    (f.token? i).map fun parent =>
      let (t, c) := f.cancellation.child parent
      (.bare t, c)
  | .sameToken i => (f.token? i).map fun t => (.bare t, f.cancellation)
  | .new m =>
    let (ctx, c) := Context.new f.cancellation m
    some (.context ctx, c)
  | .background =>
    let (ctx, c) := Context.background f.cancellation
    some (.context ctx, c)
  | .child i =>
    (f.context? i).map fun parent =>
      let (ctx, c) := parent.child f.cancellation
      (.context ctx, c)
  | .childOf i m =>
    (f.token? i).map fun parent =>
      let (ctx, c) := Context.childOf f.cancellation parent m
      (.context ctx, c)
  | .clone i => (f.context? i).map fun ctx => (.context ctx, f.cancellation)

def Gift.to (now : Time) (ctx : Context) : Gift → Context
  | .deadline d => ctx.withDeadline d
  | .timeout t  => ctx.withTimeout now t
  | .metadata m => ctx.withMetadata m

-- Nothing can be done with what is not held, nor anything but contexts be given something.
def step (f : Family) : Event → Option Family
  | .join birth =>
    (f.born? birth).map fun (held, cancellation) =>
      { f with cancellation, members := f.members ++ [held] }
  | .give i gift =>
    (f.context? i).map fun ctx =>
      { f with members := f.members.set i (.context (gift.to f.now ctx)) }
  | .cancel i =>
    (f.token? i).map fun t => { f with cancellation := f.cancellation.cancel t }
  | .wait time => some { f with now := f.now + time }

def run (f : Family) (events : List Event) : Option Family := events.foldlM step f

end Family
end CallFabric
