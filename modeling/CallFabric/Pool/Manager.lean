import CallFabric.Metrics

namespace CallFabric.Pool

structure Handle (α : Type) where
  pool : Nat
  claim : Claim α
  deriving Repr

inductive DialError
  | failed (address reason : String)
  deriving DecidableEq, Repr

def DialError.message : DialError → String
  | .failed address reason => "dial " ++ address ++ ": " ++ reason

structure Manager (α : Type) where
  limits : Limits
  pools : List (AddressPool α)
  current : Table Nat
  nextId : Nat
  deriving Repr

namespace Manager

variable {α : Type}

def new (limits : Limits) : Manager α := ⟨limits, [], [], 0⟩

def pool? (m : Manager α) (n : Nat) : Option (AddressPool α) := m.pools[n]?

def setPool (m : Manager α) (n : Nat) (p : AddressPool α) : Manager α :=
  { m with pools := m.pools.set n p }

def poolOf (m : Manager α) (address : String) : Nat × Manager α :=
  match m.current.get? address with
  | some n => (n, m)
  | none =>
    (m.pools.length, { m with
      pools := m.pools ++ [.new address m.limits]
      current := m.current.insert address m.pools.length })

def claim (m : Manager α) (view : View α) (n : Nat) :
    Option (Option (Handle α) × List α × Manager α) :=
  (m.pool? n).map fun p =>
    let (claim, retired, p) := p.tryClaim view
    (claim.map fun c => ⟨n, c⟩, retired, m.setPool n p)

def takeIn (m : Manager α) (now n : Nat) (conn : α) : Option (Handle α × Stats × Manager α) :=
  (m.pool? n).map fun p =>
    let (claim, p) := p.takeIn conn m.nextId now
    (⟨n, claim⟩, p.stats, { m.setPool n p with nextId := m.nextId + 1 })

def release (m : Manager α) (now : Nat) (h : Handle α) (failed : Bool) : Bool × Manager α :=
  match m.pool? h.pool with
  | none => (true, m)
  | some p =>
    let (close, p) := p.release h.claim now failed
    (close, m.setPool h.pool p)

-- The address's pool is no longer in use; what is claimed from it stays so.
def forget (m : Manager α) (address : String) : Manager α :=
  { m with current := m.current.erase address }

def closeIdle (m : Manager α) (n : Nat) : List α × Manager α :=
  match m.pool? n with
  | none => ([], m)
  | some p =>
    let (conns, p) := p.closeIdle
    (conns, m.setPool n p)

def stats? (m : Manager α) (address : String) : Option Stats :=
  ((m.current.get? address).bind m.pool?).map AddressPool.stats

def stats (m : Manager α) : Table Stats :=
  m.current.filterMap fun (address, n) => (m.pool? n).map fun p => (address, p.stats)

end Manager
end CallFabric.Pool
