import CallFabric.Pool.Manager

namespace CallFabric.Pool

inductive Acquisition
  | dialing (pool : Nat)
  -- The connection is there, but not yet taken in.
  | dialed (pool conn : Nat)
  | held (h : Handle Nat)
  | over
  deriving Repr

structure System where
  manager : Manager Nat
  now : Nat
  health : List Health
  -- Connections closed by the pools, each time they were.
  closings : List Nat
  dialFailure : Option String
  acquisitions : List Acquisition
  metrics : Metrics
  deriving Repr

inductive Event
  | acquire (address : String)
  | release (number : Nat) (failed : Bool)
  -- Lost without a release, which counts as failed.
  | drop (number : Nat)
  | setHealth (conn : Nat) (health : Health)
  | advance (time : Nat)
  | setDialFailure (reason : Option String)
  | evict (address : String)
  | lookup (address : String)
  -- A claim by an acquire that has looked up the pool, which may be forgotten since.
  | claim (pool : Nat)
  | dial (number : Nat)
  | takeIn (number : Nat)
  | abandon (number : Nat)
  | forget (address : String)
  | closeIdle (pool : Nat)
  deriving DecidableEq, Repr

inductive Outcome
  | acquired (number : Nat) (address : String) (handle : Handle Nat)
  | dialFailed (e : DialError)
  | done (found : Bool)
  deriving Repr

namespace System

def new (limits : Limits) : System := ⟨.new limits, 0, [], [], none, [], .empty⟩

def view (s : System) : View Nat := ⟨s.now, fun n => (s.health[n]?).getD .shutdown⟩

def addressOf (s : System) (pool : Nat) : String :=
  ((s.manager.pool? pool).map (·.address)).getD ""

def close (s : System) (conns : List Nat) : System :=
  { s with
    closings := s.closings ++ conns
    health := conns.foldl (fun health n => health.set n .shutdown) s.health }

def measure (s : System) (m : Measurement) : System := { s with metrics := s.metrics.record m }

def begin (s : System) (a : Acquisition) : System :=
  { s with acquisitions := s.acquisitions ++ [a] }

def proceed (s : System) (number : Nat) (a : Acquisition) : System :=
  { s with acquisitions := s.acquisitions.set number a }

def lookup (s : System) (address : String) : Nat × System :=
  let (n, manager) := s.manager.poolOf address
  (n, { s with manager })

def claim (s : System) (pool : Nat) : Outcome × System :=
  match s.manager.claim s.view pool with
  | none => (.done false, s)
  | some (claimed, retired, manager) =>
    let s := ({ s with manager }).close retired
    match claimed with
    | some h => (.acquired s.acquisitions.length (s.addressOf pool) h, s.begin (.held h))
    | none => (.done false, s.begin (.dialing pool))

def dial (s : System) (number : Nat) : Outcome × System :=
  match s.acquisitions[number]? with
  | some (.dialing pool) =>
    let address := s.addressOf pool
    match s.dialFailure with
    | some reason =>
      (.dialFailed (.failed address reason),
        (s.measure (.dial address false)).proceed number .over)
    | none =>
      let dialed := { s.measure (.dial address true) with health := s.health ++ [Health.ready] }
      (.done true, dialed.proceed number (.dialed pool s.health.length))
  | _ => (.done false, s)

def takeIn (s : System) (number : Nat) : Outcome × System :=
  match s.acquisitions[number]? with
  | some (.dialed pool conn) =>
    match s.manager.takeIn s.now pool conn with
    | none => (.done false, s)
    | some (h, stats, manager) =>
      let address := s.addressOf pool
      (.acquired number address h,
        (({ s with manager }).proceed number (.held h)).measure (.poolState address stats))
  | _ => (.done false, s)

def acquire (s : System) (address : String) : Outcome × System :=
  let (pool, s) := s.lookup address
  let number := s.acquisitions.length
  match s.claim pool with
  | (.done _, s) =>
    match s.dial number with
    | (.done _, s) => s.takeIn number
    | failed => failed
  | claimed => claimed

def abandon (s : System) (number : Nat) : Outcome × System :=
  match s.acquisitions[number]? with
  | some (.dialing _) => (.done true, s.proceed number .over)
  | _ => (.done false, s)

def release (s : System) (number : Nat) (failed : Bool) : Outcome × System :=
  match s.acquisitions[number]? with
  | some (.held h) =>
    let (close, manager) := s.manager.release s.now h failed
    let s := ({ s with manager }).proceed number .over
    (.done true, if close then s.close [h.claim.conn] else s)
  | _ => (.done false, s)

def forget (s : System) (address : String) : System :=
  { s with manager := s.manager.forget address }

def closeIdle (s : System) (pool : Nat) : System :=
  let (conns, manager) := s.manager.closeIdle pool
  ({ s with manager }).close conns

def evict (s : System) (address : String) : Outcome × System :=
  match s.manager.current.get? address with
  | none => (.done false, s)
  | some pool => (.done true, ((s.forget address).closeIdle pool).measure (.eviction address))

def step (s : System) : Event → Outcome × System
  | .acquire address => s.acquire address
  | .release number failed => s.release number failed
  | .drop number => s.release number true
  | .setHealth conn health =>
    (.done (conn < s.health.length), { s with health := s.health.set conn health })
  | .advance time => (.done true, { s with now := s.now + time })
  | .setDialFailure reason => (.done true, { s with dialFailure := reason })
  | .evict address => s.evict address
  | .lookup address => (.done true, (s.lookup address).2)
  | .claim pool => s.claim pool
  | .dial number => s.dial number
  | .takeIn number => s.takeIn number
  | .abandon number => s.abandon number
  | .forget address => (.done true, s.forget address)
  | .closeIdle pool => (.done true, s.closeIdle pool)

def run (s : System) (events : List Event) : System :=
  events.foldl (fun s e => (s.step e).2) s

end System
end CallFabric.Pool
