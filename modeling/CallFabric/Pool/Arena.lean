namespace CallFabric.Pool

inductive Lane
  | available
  | saturated
  deriving DecidableEq, Repr

structure Entry (α : Type) where
  conn : α
  id : Nat
  created : Nat
  streams : Nat
  lane : Lane
  before : Option Nat
  after : Option Nat
  deriving Repr

structure Slot (α : Type) where
  generation : Nat
  entry : Option (Entry α)
  deriving Repr

-- A slot counts how often it was filled; a reference holds only for the filling it was made for.
structure SlotRef where
  index : Nat
  generation : Nat
  deriving DecidableEq, Repr

structure PerLane (β : Type) where
  available : β
  saturated : β
  deriving DecidableEq, Repr

namespace PerLane

variable {β : Type}

def get (p : PerLane β) : Lane → β
  | .available => p.available
  | .saturated => p.saturated

def set (p : PerLane β) (lane : Lane) (b : β) : PerLane β :=
  match lane with
  | .available => { p with available := b }
  | .saturated => { p with saturated := b }

@[simp] theorem get_set_self (p : PerLane β) (lane : Lane) (b : β) :
    (p.set lane b).get lane = b := by
  cases lane <;> rfl

theorem get_set (p : PerLane β) (lane other : Lane) (b : β) :
    (p.set lane b).get other = if lane = other then b else p.get other := by
  cases lane <;> cases other <;> rfl

end PerLane

structure Arena (α : Type) where
  slots : List (Slot α)
  -- Empty slots, the one to be filled next in front.
  free : List Nat
  heads : PerLane (Option Nat)
  lengths : PerLane Nat
  idle : Nat
  deriving Repr

namespace Arena

variable {α : Type}

def empty : Arena α := ⟨[], [], ⟨none, none⟩, ⟨0, 0⟩, 0⟩

def size (a : Arena α) : Nat := a.lengths.available + a.lengths.saturated

def get? (a : Arena α) (index : Nat) : Option (Entry α) :=
  (a.slots[index]?).bind (·.entry)

def modify (a : Arena α) (index : Nat) (f : Entry α → Entry α) : Arena α :=
  { a with slots := a.slots.modify index fun s => { s with entry := s.entry.map f } }

def slotRef? (a : Arena α) (index : Nat) : Option SlotRef :=
  (a.slots[index]?).bind fun s => s.entry.map fun _ => ⟨index, s.generation⟩

def resolve? (a : Arena α) (r : SlotRef) : Option Nat :=
  (a.slots[r.index]?).bind fun s =>
    if s.generation = r.generation ∧ s.entry.isSome then some r.index else none

def modifyAt (a : Arena α) (index : Option Nat) (f : Entry α → Entry α) : Arena α :=
  match index with
  | some i => a.modify i f
  | none => a

def pushFront (a : Arena α) (index : Nat) (lane : Lane) : Arena α :=
  match a.get? index with
  | none => a
  | some _ =>
    let head := a.heads.get lane
    let placed := a.modify index fun e => { e with lane, before := none, after := head }
    let linked := placed.modifyAt head fun e => { e with before := some index }
    { linked with
      heads := linked.heads.set lane (some index)
      lengths := linked.lengths.set lane (linked.lengths.get lane + 1) }

def unlink (a : Arena α) (index : Nat) : Arena α :=
  match a.get? index with
  | none => a
  | some entry =>
    let passed := match entry.before with
      | some b => a.modify b fun e => { e with after := entry.after }
      | none => { a with heads := a.heads.set entry.lane entry.after }
    let joined := passed.modifyAt entry.after fun e => { e with before := entry.before }
    let loose := joined.modify index fun e => { e with before := none, after := none }
    { loose with lengths := loose.lengths.set entry.lane (loose.lengths.get entry.lane - 1) }

def moveToFront (a : Arena α) (index : Nat) (lane : Lane) : Arena α :=
  (a.unlink index).pushFront index lane

def reserve (a : Arena α) : Nat × Arena α :=
  match a.free with
  | index :: free => (index, { a with free })
  | [] => (a.slots.length, { a with slots := a.slots ++ [⟨0, none⟩] })

def fill (a : Arena α) (index : Nat) (entry : Entry α) : Arena α :=
  { a with slots := a.slots.modify index fun s => ⟨s.generation + 1, some entry⟩ }

def insert (a : Arena α) (entry : Entry α) : SlotRef × Arena α :=
  let (index, reserved) := a.reserve
  let filled := reserved.fill index entry
  let generation := ((filled.slots[index]?).map (·.generation)).getD 0
  (⟨index, generation⟩, filled.pushFront index entry.lane)

def remove (a : Arena α) (index : Nat) : Option (Entry α) × Arena α :=
  match a.get? index with
  | none => (none, a)
  | some entry =>
    let loose := a.unlink index
    (some entry, { loose with
      slots := loose.slots.modify index fun s => { s with entry := none }
      free := index :: loose.free })

-- The indices from one on, along a list; the fuel bounds their number.
def walk (a : Arena α) : Nat → Option Nat → List Nat
  | 0, _ => []
  | _, none => []
  | fuel + 1, some index => index :: walk a fuel ((a.get? index).bind (·.after))

def indices (a : Arena α) (lane : Lane) : List Nat :=
  a.walk a.slots.length (a.heads.get lane)

end Arena
end CallFabric.Pool
