namespace CallFabric

-- Those who listen, each with whether the signal still waits for it; who left is none.
structure Shutdown where
  triggered : Bool
  receivers : List (Option Bool)
  deriving DecidableEq, Repr

namespace Shutdown

def empty : Shutdown := ⟨false, []⟩

def subscribe (s : Shutdown) : Shutdown := { s with receivers := s.receivers ++ [some false] }

def isListening (s : Shutdown) (n : Nat) : Bool := (s.receivers[n]?.join).isSome

def unsubscribe (s : Shutdown) (n : Nat) : Shutdown :=
  { s with receivers := s.receivers.set n none }

def trigger (s : Shutdown) : Bool × Shutdown :=
  if s.triggered then (false, s)
  else (true, ⟨true, s.receivers.map fun r => r.map fun _ => true⟩)

def take? (s : Shutdown) (n : Nat) : Option Bool × Shutdown :=
  match s.receivers[n]?.join with
  | none => (none, s)
  | some waiting => (some waiting, { s with receivers := s.receivers.set n (some false) })

def listeners (s : Shutdown) : Nat := (s.receivers.filter (·.isSome)).length

end Shutdown

structure Sessions where
  next : Nat
  live : List Nat
  deriving DecidableEq, Repr

namespace Sessions

def empty : Sessions := ⟨0, []⟩

def track (s : Sessions) : Nat × Sessions := (s.next, ⟨s.next + 1, s.live ++ [s.next]⟩)

def close (s : Sessions) (id : Nat) : Sessions := { s with live := s.live.erase id }

def active (s : Sessions) : Nat := s.live.length

def pollInterval : Nat := 50

-- In milliseconds: whether the count came to zero in time, and after how long.
def drainFrom (activeAt : Nat → Nat) (timeout : Nat) : Nat → Nat → Bool × Nat
  | 0, elapsed => (false, elapsed)
  | fuel + 1, elapsed =>
    if activeAt elapsed = 0 then (true, elapsed)
    else if timeout ≤ elapsed then (false, elapsed)
    else drainFrom activeAt timeout fuel (elapsed + pollInterval)

def drain (activeAt : Nat → Nat) (timeout : Nat) : Bool × Nat :=
  drainFrom activeAt timeout (timeout + 1) 0

end Sessions
end CallFabric
