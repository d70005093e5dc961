import Mathlib.Data.List.Perm.Basic
import CallFabric.Pool.Arena

open scoped List

namespace CallFabric.Pool

variable {α : Type}

-- The value at an index among the others.
theorem filterMap_set_perm {β γ : Type} {l : List β} {k : Nat} {x y : β} (h : l[k]? = some x)
    (f : β → Option γ) : l.filterMap f ~ (f x).toList ++ (l.eraseIdx k).filterMap f ∧
    (l.set k y).filterMap f ~ (f y).toList ++ (l.eraseIdx k).filterMap f := by
  have ⟨hk, hx⟩ := List.getElem?_eq_some_iff.mp h
  have hc : ∀ z (m : List β), (z :: m).filterMap f = (f z).toList ++ m.filterMap f := by
    intro z m
    cases hz : f z <;> simp [hz]
  have hl : l ~ x :: l.eraseIdx k := hx ▸ (List.getElem_cons_eraseIdx_perm hk).symm
  have hs : l.set k y ~ y :: l.eraseIdx k := List.set_perm_cons_eraseIdx hk y
  exact ⟨hc .. ▸ hl.filterMap f, hc .. ▸ hs.filterMap f⟩

def Entry.bare (e : Entry α) : Entry α := { e with before := none, after := none }

def Slot.onEntry (f : Entry α → Entry α) (s : Slot α) : Slot α := { s with entry := s.entry.map f }

namespace Arena

variable {a : Arena α} {i j : Nat} {lane : Lane} {e : Entry α} {f g : Entry α → Entry α}

-- Slots without their links: linking and unlinking leave them as they are.
def cells (a : Arena α) : List (Slot α) := a.slots.map (Slot.onEntry Entry.bare)

-- The entry in a slot, with the generation of the slot.
def cell? (a : Arena α) (i : Nat) : Option (Nat × Entry α) :=
  (a.cells[i]?).bind fun s => s.entry.map (s.generation, ·)

def entries (a : Arena α) : List (Entry α) := a.cells.filterMap Slot.entry

def tracked (a : Arena α) : List (Entry α) := a.slots.filterMap Slot.entry

@[simp] theorem tracked_empty : (empty : Arena α).tracked = [] := rfl

theorem map_bare_tracked : a.tracked.map Entry.bare = a.entries := by
  simp only [tracked, entries, cells, List.map_filterMap, List.filterMap_map]
  rfl

@[simp] theorem length_cells : a.cells.length = a.slots.length := by
  simp [cells]

theorem cell?_congr {b : Arena α} (h : a.cells = b.cells) : a.cell? i = b.cell? i := by
  simp [cell?, h]

theorem entries_congr {b : Arena α} (h : a.cells = b.cells) : a.entries = b.entries := by
  simp [entries, h]

theorem map_snd_cell? : (a.cell? i).map Prod.snd = (a.get? i).map Entry.bare := by
  simp only [cell?, cells, get?, List.getElem?_map]
  cases a.slots[i]? <;> simp [Slot.onEntry, Function.comp_def]

theorem cell?_of_get? (h : a.get? i = some e) : ∃ g, a.cell? i = some (g, e.bare) := by
  have hm := map_snd_cell? (a := a) (i := i)
  rw [h, Option.map_some, Option.map_eq_some_iff] at hm
  obtain ⟨⟨g, _⟩, hc, rfl⟩ := hm
  exact ⟨g, hc⟩

theorem get?_of_cell? {g : Nat} (h : a.cell? i = some (g, e)) :
    ∃ e', a.get? i = some e' ∧ e'.bare = e := by
  have hm := map_snd_cell? (a := a) (i := i)
  rw [h, Option.map_some, eq_comm, Option.map_eq_some_iff] at hm
  exact hm

theorem get?_eq_none_iff : a.get? i = none ↔ a.cell? i = none := by
  have hm := map_snd_cell? (a := a) (i := i)
  cases hg : a.get? i <;> cases hc : a.cell? i <;> simp_all

theorem lt_of_cell? {c : Nat × Entry α} (h : a.cell? i = some c) : i < a.slots.length := by
  simp only [cell?, Option.bind_eq_some_iff] at h
  have ⟨_, hs, _⟩ := h
  exact length_cells ▸ (List.getElem?_eq_some_iff.mp hs).1

theorem mem_entries : e ∈ a.entries ↔ ∃ i n, a.cell? i = some (n, e) := by
  rw [entries, List.mem_filterMap]
  constructor
  case mp =>
    rintro ⟨s, hs, he⟩
    have ⟨i, hi⟩ := List.mem_iff_getElem?.mp hs
    exact ⟨i, s.generation, by simp [cell?, hi, he]⟩
  case mpr =>
    rintro ⟨i, n, h⟩
    have ⟨s, hs, h⟩ := Option.bind_eq_some_iff.mp h
    have ⟨x, hx, h⟩ := Option.map_eq_some_iff.mp h
    exact ⟨s, List.mem_of_getElem? hs, by simp_all⟩

theorem slotRef?_eq : a.slotRef? i = (a.cell? i).map fun c => ⟨i, c.1⟩ := by
  simp only [slotRef?, cell?, cells, List.getElem?_map]
  cases a.slots[i]? <;> simp [Slot.onEntry, Function.comp_def]

theorem resolve?_eq_some_iff {r : SlotRef} :
    a.resolve? r = some i ↔ r.index = i ∧ ∃ e, a.cell? i = some (r.generation, e) := by
  simp only [resolve?, cell?, cells, List.getElem?_map]
  constructor
  case mp =>
    intro h
    have ⟨s, hs, h⟩ := Option.bind_eq_some_iff.mp h
    split at h <;> simp at h
    case isTrue hr =>
      have ⟨e, he⟩ := Option.isSome_iff_exists.mp hr.2
      subst h
      exact ⟨rfl, e.bare, by simp [hs, Slot.onEntry, he, hr.1]⟩
  case mpr =>
    rintro ⟨rfl, e, h⟩
    cases hs : a.slots[r.index]?
    case none => simp [hs] at h
    case some s =>
      cases he : s.entry <;> simp [hs, he, Slot.onEntry] at h
      case some => simp [he, h.1]

theorem cells_modify (h : ∀ e, (f e).bare = g e.bare) :
    (a.modify i f).cells = a.cells.modify i (Slot.onEntry g) := by
  apply List.ext_getElem?
  intro j
  simp only [modify, cells, List.getElem?_map, List.getElem?_modify]
  cases a.slots[j]?
  case none => rfl
  case some s => by_cases hij : i = j <;> simp [hij, Slot.onEntry, Function.comp_def, h]

theorem cells_modify_of_bare (h : ∀ e, (f e).bare = e.bare) : (a.modify i f).cells = a.cells := by
  rw [cells_modify (g := id) h]
  have : Slot.onEntry (α := α) id = id := by funext s; simp [Slot.onEntry]
  simp [this]

theorem cells_modifyAt_of_bare {i : Option Nat} (h : ∀ e, (f e).bare = e.bare) :
    (a.modifyAt i f).cells = a.cells := by
  cases i
  case none => rfl
  case some => exact cells_modify_of_bare h

theorem modify_eq_self {l : List (Slot α)} {f : Slot α → Slot α}
    (h : ∀ s, l[i]? = some s → f s = s) : l.modify i f = l := by
  apply List.ext_getElem?
  intro j
  rw [List.getElem?_modify]
  split
  case isTrue hij => subst hij; cases hs : l[i]? <;> simp [h _, hs]
  case isFalse => simp

theorem cells_pushFront :
    (a.pushFront i lane).cells = a.cells.modify i (.onEntry fun e => { e with lane }) := by
  unfold pushFront
  split
  case h_1 hn =>
    refine (modify_eq_self fun s hs => ?_).symm
    have hc := get?_eq_none_iff.mp hn
    simp only [cell?, hs, Option.bind_some, Option.map_eq_none_iff] at hc
    cases s; simp_all [Slot.onEntry]
  case h_2 =>
    refine Eq.trans (cells_modifyAt_of_bare ?_) (cells_modify ?_)
    · intro; rfl
    · intro; rfl

@[simp] theorem cells_unlink : (a.unlink i).cells = a.cells := by
  unfold unlink
  split
  case h_1 => rfl
  case h_2 =>
    refine Eq.trans (cells_modify_of_bare ?_) (Eq.trans (cells_modifyAt_of_bare ?_) ?_)
    · intro; rfl
    · intro; rfl
    · split
      · exact cells_modify_of_bare fun _ => rfl
      · rfl

@[simp] theorem cells_moveToFront :
    (a.moveToFront i lane).cells = a.cells.modify i (.onEntry fun e => { e with lane }) := by
  simp [moveToFront, cells_pushFront]

theorem cells_remove :
    (a.remove i).2.cells = a.cells.modify i fun s => { s with entry := none } := by
  unfold remove
  split
  case h_1 hn =>
    refine (modify_eq_self fun s hs => ?_).symm
    have hc := get?_eq_none_iff.mp hn
    simp only [cell?, hs, Option.bind_some, Option.map_eq_none_iff] at hc
    cases s; simp_all
  case h_2 =>
    have hu : a.cells = (a.unlink i).slots.map (Slot.onEntry Entry.bare) := cells_unlink.symm
    rw [hu]
    apply List.ext_getElem?
    intro j
    simp only [cells, List.getElem?_map, List.getElem?_modify]
    cases (a.unlink i).slots[j]?
    case none => rfl
    case some s => by_cases hij : i = j <;> simp [hij, Slot.onEntry]

theorem cells_fill :
    (a.fill i e).cells = a.cells.modify i fun s => ⟨s.generation + 1, some e.bare⟩ := by
  apply List.ext_getElem?
  intro j
  simp only [fill, cells, List.getElem?_map, List.getElem?_modify]
  cases a.slots[j]?
  case none => rfl
  case some s => by_cases hij : i = j <;> simp [hij, Slot.onEntry]

section Modify

variable {b : Arena α} {F : Slot α → Slot α}

theorem cell?_modify_ne (h : b.cells = a.cells.modify i F) (hij : i ≠ j) :
    b.cell? j = a.cell? j := by
  simp [cell?, h, hij]

theorem cell?_onEntry (h : b.cells = a.cells.modify i (.onEntry g)) :
    b.cell? j = if i = j then (a.cell? j).map (Prod.map id g) else a.cell? j := by
  by_cases hij : i = j
  case pos =>
    simp only [cell?, h, hij, List.getElem?_modify_eq, ↓reduceIte]
    cases a.cells[j]? <;> simp [Slot.onEntry, Function.comp_def]
  case neg => simp [cell?_modify_ne h hij, hij]

-- A changed slot changes what is tracked by its own entry only.
theorem entries_modify {s : Slot α} (hs : a.cells[i]? = some s)
    (h : b.cells = a.cells.modify i F) :
    ∃ rest, a.entries ~ s.entry.toList ++ rest ∧ b.entries ~ (F s).entry.toList ++ rest := by
  have hb : b.cells = a.cells.set i (F s) := by simp [h, List.modify_eq_set_getElem?, hs]
  have ⟨ha, hr⟩ := filterMap_set_perm (y := F s) hs Slot.entry
  exact ⟨_, ha, by rw [entries, hb]; exact hr⟩

theorem entries_onEntry {n : Nat} (he : a.cell? i = some (n, e))
    (h : b.cells = a.cells.modify i (.onEntry g)) :
    ∃ rest, a.entries ~ e :: rest ∧ b.entries ~ g e :: rest := by
  have ⟨s, hs, he⟩ := Option.bind_eq_some_iff.mp he
  have ⟨rest, ha, hb⟩ := entries_modify hs h
  have hs : s.entry = some e := by cases hs : s.entry <;> simp_all
  exact ⟨rest, by simpa [hs] using ha, by simpa [hs, Slot.onEntry] using hb⟩

end Modify

theorem cells_reserve :
    a.reserve.2.cells = a.cells ∨ a.reserve.2.cells = a.cells ++ [⟨0, none⟩] := by
  unfold reserve
  split
  · exact .inl rfl
  · exact .inr (by simp [cells, Slot.onEntry])

theorem cell?_reserve : a.reserve.2.cell? j = a.cell? j := by
  cases cells_reserve (a := a)
  case inl h => exact cell?_congr h
  case inr h =>
    simp only [cell?, h, List.getElem?_append]
    split
    case isTrue => rfl
    case isFalse hj =>
      rw [List.getElem?_eq_none (Nat.le_of_not_lt hj)]
      cases j - a.cells.length <;> rfl

theorem entries_reserve : a.reserve.2.entries = a.entries := by
  cases cells_reserve (a := a)
  case inl h => exact entries_congr h
  case inr h => simp [entries, h]

theorem cells_insert : (a.insert e).2.cells =
    a.reserve.2.cells.modify a.reserve.1 fun s => ⟨s.generation + 1, some e.bare⟩ := by
  refine cells_pushFront.trans ?_
  rw [cells_fill, List.modify_modify_eq]
  rfl

theorem cell?_insert_ne (h : (a.insert e).1.index ≠ j) : (a.insert e).2.cell? j = a.cell? j :=
  (cell?_modify_ne cells_insert h).trans cell?_reserve

theorem cell?_remove : (a.remove i).2.cell? j = if i = j then none else a.cell? j := by
  by_cases hij : i = j
  case pos =>
    simp only [cell?, cells_remove, hij, List.getElem?_modify_eq, ↓reduceIte]
    cases a.cells[j]? <;> simp
  case neg => simp [cell?_modify_ne cells_remove hij, hij]

theorem entries_remove {n : Nat} (h : a.cell? i = some (n, e)) :
    a.entries ~ e :: (a.remove i).2.entries := by
  have ⟨s, hs, he⟩ := Option.bind_eq_some_iff.mp h
  have ⟨rest, ha, hb⟩ := entries_modify hs cells_remove
  have hs : s.entry = some e := by cases hs : s.entry <;> simp_all
  rw [hs] at ha
  exact ha.trans (hb.symm.cons e)

theorem idle_modifyAt {i : Option Nat} : (a.modifyAt i f).idle = a.idle := by
  cases i <;> rfl

@[simp] theorem idle_unlink : (a.unlink i).idle = a.idle := by
  unfold unlink
  split
  case h_1 => rfl
  case h_2 e _ =>
    simp only [modify, idle_modifyAt]
    cases e.before <;> rfl

@[simp] theorem idle_pushFront : (a.pushFront i lane).idle = a.idle := by
  unfold pushFront
  split
  case h_1 => rfl
  case h_2 => exact idle_modifyAt

@[simp] theorem idle_moveToFront : (a.moveToFront i lane).idle = a.idle := by
  simp [moveToFront]

@[simp] theorem idle_remove : (a.remove i).2.idle = a.idle := by
  unfold remove
  split
  case h_1 => rfl
  case h_2 => exact idle_unlink

@[simp] theorem idle_insert : (a.insert e).2.idle = a.idle := by
  have hr : a.reserve.2.idle = a.idle := by unfold reserve; split <;> rfl
  exact idle_pushFront.trans hr

end Arena
end CallFabric.Pool
