import CallFabric.Metadata

namespace CallFabric

-- Nanoseconds.
abbrev Time := Nat

def millisecond : Time := 1000000

structure Token where
  id : Nat
  ancestors : List Nat
  deriving DecidableEq, Repr, Inhabited

-- A token counts as cancelled when it or one that it descends from was cancelled itself, before or
-- after it was made.
structure Cancellation where
  next : Nat
  cancelled : List Nat
  deriving DecidableEq, Repr, Inhabited

namespace Cancellation

def empty : Cancellation := ⟨0, []⟩

def root (c : Cancellation) : Token × Cancellation :=
  (⟨c.next, []⟩, { c with next := c.next + 1 })

def child (c : Cancellation) (parent : Token) : Token × Cancellation :=
  (⟨c.next, parent.id :: parent.ancestors⟩, { c with next := c.next + 1 })

def cancel (c : Cancellation) (t : Token) : Cancellation :=
  { c with cancelled := t.id :: c.cancelled }

def isCancelled (c : Cancellation) (t : Token) : Bool :=
  (t.id :: t.ancestors).any (· ∈ c.cancelled)

end Cancellation

structure Context where
  metadata : Metadata
  deadline : Option Time
  token : Token
  deriving DecidableEq, Repr, Inhabited

namespace Context

def new (c : Cancellation) (metadata : Metadata) : Context × Cancellation :=
  let (token, c) := c.root
  (⟨metadata, none, token⟩, c)

def background (c : Cancellation) : Context × Cancellation := new c .empty

def childOf (c : Cancellation) (parent : Token) (metadata : Metadata) : Context × Cancellation :=
  let (token, c) := c.child parent
  (⟨metadata, none, token⟩, c)

def child (ctx : Context) (c : Cancellation) : Context × Cancellation :=
  let (token, c) := c.child ctx.token
  ({ ctx with token }, c)

def withDeadline (ctx : Context) (deadline : Time) : Context :=
  { ctx with deadline := some ((ctx.deadline.map (min · deadline)).getD deadline) }

def withTimeout (ctx : Context) (now timeout : Time) : Context :=
  ctx.withDeadline (now + timeout)

def withMetadata (ctx : Context) (metadata : Metadata) : Context := { ctx with metadata }

def remaining? (ctx : Context) (now : Time) : Option Time :=
  ctx.deadline.map (· - now)

def isCancelled (ctx : Context) (c : Cancellation) : Bool := c.isCancelled ctx.token

end Context
end CallFabric
