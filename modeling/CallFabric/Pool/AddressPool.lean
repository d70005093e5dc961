import CallFabric.Pool.Arena

namespace CallFabric.Pool

inductive Health
  | idle
  | connecting
  | ready
  | transientFailure
  | shutdown
  deriving DecidableEq, Repr

structure Limits where
  capacity : Nat
  ttl : Nat
  maxIdle : Nat
  maxStreams : Nat
  deriving DecidableEq, Repr

namespace Limits

def of (capacity ttl maxIdle maxStreams : Nat) : Limits :=
  ⟨capacity, ttl, maxIdle, max maxStreams 1⟩

def standard : Limits := of 100 (60 * 1000000000) 50 20

end Limits

structure Stats where
  available : Nat
  saturated : Nat
  tracked : Nat
  idle : Nat
  deriving DecidableEq, Repr

structure View (α : Type) where
  now : Nat
  health : α → Health

structure AddressPool (α : Type) where
  address : String
  limits : Limits
  arena : Arena α
  deriving Repr

-- A stream on a connection; `slot` is none where the pool does not track the connection.
structure Claim (α : Type) where
  conn : α
  id : Nat
  created : Nat
  slot : Option SlotRef
  deriving Repr

namespace AddressPool

variable {α : Type}

def new (address : String) (limits : Limits) : AddressPool α := ⟨address, limits, .empty⟩

def stats (p : AddressPool α) : Stats :=
  ⟨p.arena.lengths.available, p.arena.lengths.saturated, p.arena.size, p.arena.idle⟩

def isExpired (limits : Limits) (now created : Nat) : Bool :=
  limits.ttl < now - created

def dropIdle (a : Arena α) (index : Nat) : Option (Entry α) × Arena α :=
  let (entry, a) := a.remove index
  (entry, { a with idle := a.idle - 1 })

-- What a claim makes of the entry it looks at: retire it where it is idle, closing it or not, move
-- it to the saturated list, pass over it or take it.
inductive Verdict
  | retire (close : Bool)
  | saturate
  | skip
  | take
  deriving DecidableEq, Repr

def judge (limits : Limits) (view : View α) (e : Entry α) : Verdict :=
  let retireIfIdle (close : Bool) : Verdict := if e.streams = 0 then .retire close else .skip
  match view.health e.conn with
  | .connecting => .skip
  | .shutdown => retireIfIdle false
  | .transientFailure => retireIfIdle true
  | .idle | .ready =>
    if isExpired limits view.now e.created then retireIfIdle true
    else if limits.maxStreams ≤ e.streams then .saturate
    else .take

def take (limits : Limits) (a : Arena α) (index : Nat) (e : Entry α) : Claim α × Arena α :=
  let counted := if e.streams = 0 then { a with idle := a.idle - 1 } else a
  let busier := counted.modify index fun e => { e with streams := e.streams + 1 }
  let moved := if limits.maxStreams ≤ e.streams + 1 then busier.moveToFront index .saturated
    else busier
  (⟨e.conn, e.id, e.created, moved.slotRef? index⟩, moved)

def scan (limits : Limits) (view : View α) :
    Nat → Option Nat → List α → Arena α → Option (Claim α) × List α × Arena α
  | 0, _, retired, a => (none, retired, a)
  | _, none, retired, a => (none, retired, a)
  | fuel + 1, some index, retired, a =>
    match a.get? index with
    | none => (none, retired, a)
    | some e =>
      match judge limits view e with
      | .skip => scan limits view fuel e.after retired a
      | .retire close =>
        let (_, a) := dropIdle a index
        scan limits view fuel e.after (if close then retired ++ [e.conn] else retired) a
      | .saturate => scan limits view fuel e.after retired (a.moveToFront index .saturated)
      | .take =>
        let (claim, a) := take limits a index e
        (some claim, retired, a)

def tryClaim (p : AddressPool α) (view : View α) : Option (Claim α) × List α × AddressPool α :=
  let (claim, retired, arena) :=
    scan p.limits view p.arena.slots.length p.arena.heads.available [] p.arena
  (claim, retired, { p with arena })

def track (a : Arena α) (conn : α) (id created : Nat) : SlotRef × Arena α :=
  a.insert ⟨conn, id, created, 1, .available, none, none⟩

-- Takes in a connection that was just dialed, with one stream on it. Where the pool is full it is
-- not tracked.
def takeIn (p : AddressPool α) (conn : α) (id now : Nat) : Claim α × AddressPool α :=
  if p.arena.size < p.limits.capacity then
    let (slot, arena) := track p.arena conn id now
    (⟨conn, id, now, some slot⟩, { p with arena })
  else (⟨conn, id, now, none⟩, p)

-- One stream less on the entry at `index`, which goes in front of the available list where it was
-- not thought to have room.
def freeStream (limits : Limits) (a : Arena α) (index : Nat) (e : Entry α) : Arena α :=
  let front := if e.lane = .saturated ∨ limits.maxStreams ≤ e.streams then
      a.moveToFront index .available
    else a
  front.modify index fun x => { x with streams := e.streams - 1 }

def giveBack (limits : Limits) (now : Nat) (failed : Bool) (a : Arena α) (index : Nat) :
    Bool × Arena α :=
  match a.get? index with
  | none => (true, a)
  | some e =>
    let freed := freeStream limits a index e
    if 0 < e.streams - 1 then (false, freed)
    else if failed ∨ limits.maxIdle ≤ freed.idle ∨ isExpired limits now e.created then
      (true, (freed.remove index).2)
    else (false, { freed with idle := freed.idle + 1 })

-- Gives a claim back; tells whether its connection is to be closed. A connection that is not
-- tracked becomes tracked first if there is room.
def release (p : AddressPool α) (claim : Claim α) (now : Nat) (failed : Bool) :
    Bool × AddressPool α :=
  match claim.slot.bind p.arena.resolve? with
  | some index =>
    let (close, arena) := giveBack p.limits now failed p.arena index
    (close, { p with arena })
  | none =>
    if p.limits.capacity ≤ p.arena.size then (true, p)
    else
      let (slot, arena) := track p.arena claim.conn claim.id claim.created
      let (close, arena) := giveBack p.limits now failed arena slot.index
      (close, { p with arena })

def removeIdle : List Nat → Arena α → List α × Arena α
  | [], a => ([], a)
  | index :: rest, a =>
    match a.get? index with
    | some e =>
      if e.streams = 0 then
        let (conns, a) := removeIdle rest (a.remove index).2
        (e.conn :: conns, a)
      else removeIdle rest a
    | none => removeIdle rest a

def closeIdle (p : AddressPool α) : List α × AddressPool α :=
  let (first, a) := removeIdle (p.arena.indices .available) p.arena
  let (second, a) := removeIdle (a.indices .saturated) a
  (first ++ second, { p with arena := { a with idle := 0 } })

end AddressPool
end CallFabric.Pool
