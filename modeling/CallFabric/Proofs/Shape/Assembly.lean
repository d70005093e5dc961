import CallFabric.Proofs.Shape.Fitting
import CallFabric.Shape.OfItem

namespace CallFabric.Shape

variable {α β γ : Type}

theorem mapM_map {f : β → Option γ} {g : α → β} {k : α → γ} {xs : List α}
    (h : ∀ x ∈ xs, f (g x) = some (k x)) : (xs.map g).mapM f = some (xs.map k) := by
  induction xs
  case nil => rfl
  case cons x xs hi =>
    obtain ⟨hx, hs⟩ := List.forall_mem_cons.mp h
    simp [hx, hi hs]

def partsBy (read : Shape → α → Option Datum) : List Shape → List α → Option (List Datum)
  | [], [] => some []
  | s :: parts, x :: xs => (read s x).bind fun d => (partsBy read parts xs).map (d :: ·)
  | _, _ => none

theorem partsOfJson?_eq (parts : List Shape) (items : List Json) :
    partsOfJson? parts items = partsBy ofJson? parts items := by
  induction parts generalizing items
  case nil => cases items <;> rfl
  case cons s parts hi =>
    cases items
    case nil          => rfl
    case cons v items => rw [partsOfJson?, partsBy, hi]; cases ofJson? s v <;> rfl

theorem partsOfWritten?_eq (parts : List Shape) (depth : Nat) (items : List Json.Written) :
    partsOfWritten? parts depth items = partsBy (ofWritten? · depth) parts items := by
  induction parts generalizing items
  case nil => cases items <;> rfl
  case cons s parts hi =>
    cases items
    case nil          => rfl
    case cons w items => rw [partsOfWritten?, partsBy, hi]; cases ofWritten? s depth w <;> rfl

theorem partsOfItems?_eq (parts : List Shape) (items : List MessagePack.Item) :
    partsOfItems? parts items = partsBy ofItem? parts items := by
  induction parts generalizing items
  case nil => cases items <;> rfl
  case cons s parts hi =>
    cases items
    case nil          => rfl
    case cons i items => rw [partsOfItems?, partsBy, hi]; cases ofItem? s i <;> rfl

variable {read : Shape → α → Option Datum} {f : Datum → α} {g : Datum → Datum}

theorem partsBy_map {parts : List Shape} {ds : List Datum} (hl : parts.length = ds.length)
    (h : ∀ p ∈ parts.zip ds, read p.1 (f p.2) = some (g p.2)) :
    partsBy read parts (ds.map f) = some (ds.map g) := by
  induction parts generalizing ds
  case nil =>
    obtain rfl := List.length_eq_zero_iff.mp hl.symm
    rfl
  case cons s parts hi =>
    cases ds
    case nil       => cases hl
    case cons d ds =>
      obtain ⟨hd, hs⟩ := List.forall_mem_cons.mp h
      simp [partsBy, show read s (f d) = _ from hd, hi (Nat.succ.inj hl) hs]

def fieldBy (read : Shape → α → Option Datum) (members : List (String × α)) (name : String)
    (s : Shape) : Option Datum :=
  (Table.get? name members).elim s.missing? (read s)

def fieldsBy (read : Shape → α → Option Datum) (members : List (String × α)) :
    List (String × Shape) → Option (List (String × Datum))
  | [] => some []
  | (name, s) :: fields =>
    (fieldBy read members name s).bind fun d => (fieldsBy read members fields).map ((name, d) :: ·)

theorem fieldsOfJson?_eq (fields : List (String × Shape)) (members : List (String × Json)) :
    fieldsOfJson? fields members = fieldsBy ofJson? members fields := by
  induction fields
  case nil => rfl
  case cons p fields hi =>
    obtain ⟨name, s⟩ := p
    rw [fieldsOfJson?, fieldsBy, hi, fieldBy]
    cases Table.get? name members
    case none   => cases s.missing? <;> rfl
    case some v => cases hm : ofJson? s v <;> simp [hm]

theorem fieldsOfWritten?_eq (fields : List (String × Shape)) (depth : Nat)
    (members : List (String × Json.Written)) :
    fieldsOfWritten? fields depth members = fieldsBy (ofWritten? · depth) members fields := by
  induction fields
  case nil => rfl
  case cons p fields hi =>
    obtain ⟨name, s⟩ := p
    rw [fieldsOfWritten?, fieldsBy, hi, fieldBy]
    cases Table.get? name members
    case none   => cases s.missing? <;> rfl
    case some w => cases hm : ofWritten? s depth w <;> simp [hm]

theorem fieldsOfItems?_eq (fields : List (String × Shape))
    (entries : List (String × MessagePack.Item)) :
    fieldsOfItems? fields entries = fieldsBy ofItem? entries fields := by
  induction fields
  case nil => rfl
  case cons p fields hi =>
    obtain ⟨name, s⟩ := p
    rw [fieldsOfItems?, fieldsBy, hi, fieldBy]
    cases Table.get? name entries
    case none   => cases s.missing? <;> rfl
    case some i => cases hm : ofItem? s i <;> simp [hm]

theorem fieldBy_of_get? {members : List (String × α)} {name : String} {x : α}
    (h : Table.get? name members = some x) (s : Shape) :
    fieldBy read members name s = read s x := by
  rw [fieldBy, h, Option.elim_some]

variable {fields : List (String × Shape)} {members : List (String × α)}
  {ds : List (String × Datum)}

theorem fieldsBy_map (hk : Table.keys ds = Table.keys fields)
    (h : ∀ k s d, (k, s) ∈ fields → (k, d) ∈ ds → fieldBy read members k s = some (g d)) :
    fieldsBy read members fields = some (ds.map fun e => (e.1, g e.2)) := by
  induction fields generalizing ds
  case nil =>
    obtain rfl := List.map_eq_nil_iff.mp hk
    rfl
  case cons p fields hi =>
    obtain ⟨k, s⟩ := p
    cases ds
    case nil       => cases hk
    case cons e ds =>
      obtain ⟨l, d⟩ := e
      obtain ⟨rfl : l = k, hks⟩ := List.cons.inj hk
      have hd := h l s d List.mem_cons_self List.mem_cons_self
      have hs := hi hks fun k s d hf hd => h k s d (.tail _ hf) (.tail _ hd)
      simp [fieldsBy, hd, hs]

theorem fieldsBy_cons {name : String} {s : Shape}
    (h : fieldsBy read members ((name, s) :: fields) = some ds) :
    ∃ d rest, fieldBy read members name s = some d ∧ fieldsBy read members fields = some rest ∧
      ds = (name, d) :: rest := by
  obtain ⟨d, hd, h⟩ := Option.bind_eq_some_iff.mp h
  obtain ⟨rest, hr, rfl⟩ := Option.map_eq_some_iff.mp h
  exact ⟨d, rest, hd, hr, rfl⟩

theorem keys_of_fieldsBy (h : fieldsBy read members fields = some ds) :
    Table.keys ds = Table.keys fields := by
  induction fields generalizing ds
  case nil => exact Option.some.inj h ▸ rfl
  case cons p fields hi =>
    obtain ⟨d, rest, hd, hr, rfl⟩ := fieldsBy_cons h
    exact congrArg (p.1 :: ·) (hi hr)

-- Every field of a record that was read was read by itself.
theorem fieldBy_of_fieldsBy (h : fieldsBy read members fields = some ds)
    (hn : (Table.keys fields).Nodup) {k : String} {s : Shape} {d : Datum}
    (hf : (k, s) ∈ fields) (hd : (k, d) ∈ ds) : fieldBy read members k s = some d := by
  induction fields generalizing ds
  case nil => cases hf
  case cons p fields hi =>
    obtain ⟨d₀, rest, hd₀, hr, rfl⟩ := fieldsBy_cons h
    obtain ⟨hp, hn⟩ := List.nodup_cons.mp hn
    have hne : ∀ {β : Type} {t : Table β} {x : β}, Table.keys t = Table.keys fields → (k, x) ∈ t →
        k ≠ p.1 := by
      rintro β t x ht hm rfl
      exact hp (ht.subst (Table.mem_keys_iff.mpr ⟨x, hm⟩))
    cases hf
    case head =>
      cases hd
      case head    => exact hd₀
      case tail hd => exact absurd rfl (hne (keys_of_fieldsBy hr) hd)
    case tail hf =>
      cases hd
      case head    => exact absurd rfl (hne rfl hf)
      case tail hd => exact hi hr hn hf hd

variable {cases : List (String × Shape)} {name : String} {s : Shape}

theorem bareCase?_eq (h : Table.get? name cases = some .unit) :
    bareCase? cases name = some (.tag name) := by
  induction cases
  case nil => cases h
  case cons p cases hi =>
    rw [Table.get?] at h
    rw [bareCase?]
    split at h
    case isTrue heq =>
      simp [heq, Option.some.inj h, isUnit]
    case isFalse hne => rw [if_neg hne, hi h]

theorem caseOfJson?_eq (h : Table.get? name cases = some s) (hu : s.isUnit = false) (v : Json) :
    caseOfJson? cases name v =
      if payloadForm s v then (ofJson? s v).map (.tagged name) else none := by
  induction cases
  case nil => cases h
  case cons p cases hi =>
    rw [Table.get?] at h
    rw [caseOfJson?]
    split at h
    case isTrue heq =>
      obtain rfl := Option.some.inj h
      simp [heq, hu]
    case isFalse hne => rw [if_neg hne, hi h]

theorem caseOfWritten?_eq (h : Table.get? name cases = some s) (hu : s.isUnit = false)
    (depth : Nat) (w : Json.Written) :
    caseOfWritten? cases name depth w = (ofWritten? s depth w).map (.tagged name) := by
  induction cases
  case nil => cases h
  case cons p cases hi =>
    rw [Table.get?] at h
    rw [caseOfWritten?]
    split at h
    case isTrue heq =>
      obtain rfl := Option.some.inj h
      simp [heq, hu]
    case isFalse hne => rw [if_neg hne, hi h]

theorem caseOfItem?_eq (h : Table.get? name cases = some s) (hu : s.isUnit = false)
    (i : MessagePack.Item) :
    caseOfItem? cases name i = (ofItem? s i).map (.tagged name) := by
  induction cases
  case nil => cases h
  case cons p cases hi =>
    rw [Table.get?] at h
    rw [caseOfItem?]
    split at h
    case isTrue heq =>
      obtain rfl := Option.some.inj h
      simp [heq, hu]
    case isFalse hne => rw [if_neg hne, hi h]

end CallFabric.Shape
