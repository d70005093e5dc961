import CallFabric.Proofs.Pool.Cells

open scoped List

namespace CallFabric.Pool

namespace PerLane

variable {q : PerLane (List Nat)} {lane other : Lane} {i j : Nat}

def without (q : PerLane (List Nat)) (lane : Lane) (i : Nat) : PerLane (List Nat) :=
  q.set lane ((q.get lane).erase i)

def inFront (q : PerLane (List Nat)) (lane : Lane) (i : Nat) : PerLane (List Nat) :=
  q.set lane (i :: q.get lane)

theorem mem_inFront :
    j ∈ (q.inFront lane i).get other ↔ (lane = other ∧ i = j) ∨ j ∈ q.get other := by
  rw [inFront, get_set]
  split
  case isTrue h => subst h; simp [eq_comm]
  case isFalse h => simp [h]

end PerLane

namespace Arena

variable {α : Type} {a b : Arena α} {i j : Nat} {lane other : Lane} {e : Entry α}
  {f : Entry α → Entry α} {q : PerLane (List Nat)}

theorem get?_modify : (a.modify i f).get? j = if i = j then (a.get? j).map f else a.get? j := by
  simp only [get?, modify, List.getElem?_modify]
  cases a.slots[j]? <;> by_cases h : i = j <;> simp [h]

theorem get?_modifyAt {i : Option Nat} :
    (a.modifyAt i f).get? j = if i = some j then (a.get? j).map f else a.get? j := by
  cases i
  case none => simp [modifyAt]
  case some => simp [modifyAt, get?_modify]

theorem get?_unlink (h : a.get? i = some e) :
    (a.unlink i).get? j = (a.get? j).map fun x => { x with
      before := if i = j then none else if e.after = some j then e.before else x.before
      after := if i = j then none else if e.before = some j then e.after else x.after } := by
  obtain ⟨passed, hu, hp⟩ : ∃ passed : Arena α,
      (a.unlink i).get? j = ((passed.modifyAt e.after fun x =>
        { x with before := e.before }).modify i fun x =>
          { x with before := none, after := none }).get? j ∧
      passed.get? j = if e.before = some j then (a.get? j).map fun x => { x with after := e.after }
        else a.get? j := by
    cases hb : e.before
    case none =>
      refine ⟨{ a with heads := a.heads.set e.lane e.after }, ?_, ?_⟩
      case refine_1 => simp only [unlink, h, hb]; rfl
      case refine_2 => simp only [reduceCtorEq, ↓reduceIte]; rfl
    case some b =>
      refine ⟨a.modify b fun x => { x with after := e.after }, ?_, ?_⟩
      case refine_1 => simp only [unlink, h, hb]; rfl
      case refine_2 => simp [get?_modify]
  rw [hu, get?_modify, get?_modifyAt, hp]
  cases a.get? j
  case none => simp
  case some =>
    by_cases i = j <;> by_cases e.before = some j <;> by_cases e.after = some j <;> simp [*]

theorem get?_pushFront (h : a.get? i = some e) :
    (a.pushFront i lane).get? j = (a.get? j).map fun x => { x with
      lane := if i = j then lane else x.lane
      before := if a.heads.get lane = some j then some i else if i = j then none else x.before
      after := if i = j then a.heads.get lane else x.after } := by
  have hp : (a.pushFront i lane).get? j = ((a.modify i fun x =>
      { x with lane, before := none, after := a.heads.get lane }).modifyAt (a.heads.get lane)
        fun x => { x with before := some i }).get? j := by
    simp only [pushFront, h]; rfl
  rw [hp, get?_modifyAt, get?_modify]
  cases a.get? j
  case none => simp
  case some => by_cases i = j <;> by_cases a.heads.get lane = some j <;> simp [*]

def place? (a : Arena α) (i : Nat) : Option (Lane × Option Nat × Option Nat) :=
  (a.get? i).map fun e => (e.lane, e.before, e.after)

-- The indices follow each other in both directions, from the one after `before` on to the one
-- before `stop`.
def Chain (a : Arena α) (lane : Lane) : Option Nat → List Nat → Option Nat → Prop
  | _, [], _ => True
  | before, i :: rest, stop =>
    a.place? i = some (lane, before, rest.head?.or stop) ∧ a.Chain lane (some i) rest stop

namespace Chain

variable {before stop : Option Nat} {xs ys : List Nat}

theorem append : a.Chain lane before (xs ++ ys) stop ↔
    a.Chain lane before xs (ys.head?.or stop) ∧ a.Chain lane (xs.getLast?.or before) ys stop := by
  induction xs generalizing before
  case nil => simp [Chain]
  case cons x xs hi =>
    have hl : (x :: xs).getLast?.or before = xs.getLast?.or (some x) := by
      cases h : xs.getLast? <;> simp [List.getLast?_cons, h]
    simp only [List.cons_append, Chain, hi, hl, List.head?_append, Option.or_assoc, and_assoc]

theorem place (h : a.Chain lane before xs stop) (hj : j ∈ xs) :
    ∃ n m, a.place? j = some (lane, n, m) := by
  induction xs generalizing before
  case nil => contradiction
  case cons x xs hi =>
    cases hj
    case head => exact ⟨_, _, h.1⟩
    case tail hj => exact hi h.2 hj

theorem congr (h : a.Chain lane before xs stop) (hp : ∀ j ∈ xs, b.place? j = a.place? j) :
    b.Chain lane before xs stop := by
  induction xs generalizing before
  case nil => trivial
  case cons x xs hi =>
    exact ⟨hp x (.head _) ▸ h.1, hi h.2 fun j hj => hp j (.tail _ hj)⟩

-- Only the last entry knows where a chain ends.
theorem relink_stop {stop' : Option Nat} (h : a.Chain lane before xs stop) (hn : xs.Nodup)
    (hp : ∀ j ∈ xs, b.place? j =
      (a.place? j).map fun p => (p.1, p.2.1, if xs.getLast? = some j then stop' else p.2.2)) :
    b.Chain lane before xs stop' := by
  obtain rfl | ⟨ws, w, rfl⟩ := xs.eq_nil_or_concat
  case inl => trivial
  case inr =>
    rw [List.concat_eq_append] at *
    rw [append] at h ⊢
    have hw : w ∉ ws := by
      have := List.nodup_append.mp hn
      exact fun hm => this.2.2 w hm w (.head _) rfl
    refine ⟨h.1.congr fun j hj => ?_, ?_, trivial⟩
    case refine_1 =>
      have hne : w ≠ j := fun he => hw (he ▸ hj)
      rw [hp j (by simp [hj])]
      simp [hne]
    case refine_2 =>
      rw [hp w (by simp), h.2.1]
      simp

-- Only the first entry knows what comes before a chain.
theorem relink_before {before' : Option Nat} (h : a.Chain lane before xs stop) (hn : xs.Nodup)
    (hp : ∀ j ∈ xs, b.place? j =
      (a.place? j).map fun p => (p.1, if xs.head? = some j then before' else p.2.1, p.2.2)) :
    b.Chain lane before' xs stop := by
  cases xs
  case nil => trivial
  case cons x xs =>
    refine ⟨?_, h.2.congr fun j hj => ?_⟩
    case refine_1 =>
      rw [hp x (.head _), h.1]
      simp
    case refine_2 =>
      have hne : x ≠ j := fun he => (List.nodup_cons.mp hn).1 (he ▸ hj)
      rw [hp j (.tail _ hj)]
      simp [hne]

theorem walk_eq (h : a.Chain lane before xs none) {fuel : Nat} (hf : xs.length ≤ fuel) :
    a.walk fuel xs.head? = xs := by
  induction xs generalizing before fuel
  case nil => cases fuel <;> rfl
  case cons x xs hi =>
    cases fuel
    case zero => simp at hf
    case succ fuel =>
      have ⟨e, he, hx⟩ := Option.map_eq_some_iff.mp h.1
      have ha : (a.get? x).bind (·.after) = xs.head? := by
        simp only [Prod.mk.injEq] at hx
        simp [he, hx.2.2]
      simp only [List.head?_cons, walk, ha]
      rw [hi h.2 (by simpa using hf)]

end Chain

theorem place?_unlink (h : a.get? i = some e) :
    (a.unlink i).place? j = (a.place? j).map fun p => (p.1,
      if i = j then none else if e.after = some j then e.before else p.2.1,
      if i = j then none else if e.before = some j then e.after else p.2.2) := by
  simp [place?, get?_unlink h, Function.comp_def]

theorem place?_pushFront (h : a.get? i = some e) :
    (a.pushFront i lane).place? j = (a.place? j).map fun p => (
      if i = j then lane else p.1,
      if a.heads.get lane = some j then some i else if i = j then none else p.2.1,
      if i = j then a.heads.get lane else p.2.2) := by
  simp [place?, get?_pushFront h, Function.comp_def]

theorem heads_modifyAt {i : Option Nat} : (a.modifyAt i f).heads = a.heads := by
  cases i <;> rfl

theorem lengths_modifyAt {i : Option Nat} : (a.modifyAt i f).lengths = a.lengths := by
  cases i <;> rfl

theorem heads_unlink (h : a.get? i = some e) : (a.unlink i).heads =
    if e.before = none then a.heads.set e.lane e.after else a.heads := by
  simp only [unlink, h, modify, heads_modifyAt]
  cases e.before <;> simp

theorem lengths_unlink (h : a.get? i = some e) : (a.unlink i).lengths =
    a.lengths.set e.lane (a.lengths.get e.lane - 1) := by
  simp only [unlink, h, modify, lengths_modifyAt]
  cases e.before <;> rfl

theorem heads_pushFront (h : a.get? i = some e) :
    (a.pushFront i lane).heads = a.heads.set lane (some i) := by
  simp only [pushFront, h, heads_modifyAt]
  rfl

theorem lengths_pushFront (h : a.get? i = some e) : (a.pushFront i lane).lengths =
    a.lengths.set lane (a.lengths.get lane + 1) := by
  simp only [pushFront, h, lengths_modifyAt]
  rfl

structure Linked (a : Arena α) (q : PerLane (List Nat)) : Prop where
  chain  : ∀ lane, a.Chain lane none (q.get lane) none
  head   : ∀ lane, a.heads.get lane = (q.get lane).head?
  length : ∀ lane, a.lengths.get lane = (q.get lane).length
  nodup  : ∀ lane, (q.get lane).Nodup

namespace Linked

theorem place (l : Linked a q) (h : i ∈ q.get lane) : ∃ n m, a.place? i = some (lane, n, m) :=
  (l.chain lane).place h

-- An entry names its list, so no index is on both.
theorem lane_unique (l : Linked a q) (h₁ : i ∈ q.get lane) (h₂ : i ∈ q.get other) :
    lane = other := by
  have ⟨_, _, h₁⟩ := l.place h₁
  have ⟨_, _, h₂⟩ := l.place h₂
  simp_all

theorem congr (l : Linked a q) (hp : ∀ lane, ∀ j ∈ q.get lane, b.place? j = a.place? j)
    (hh : b.heads = a.heads) (hl : b.lengths = a.lengths) : Linked b q where
  chain lane  := (l.chain lane).congr (hp lane)
  head lane   := hh ▸ l.head lane
  length lane := hl ▸ l.length lane
  nodup       := l.nodup

theorem mem_without (l : Linked a q) (h : i ∈ q.get lane) :
    j ∈ (q.without lane i).get other ↔ i ≠ j ∧ j ∈ q.get other := by
  rw [PerLane.without, PerLane.get_set]
  split
  case isTrue hl => subst hl; rw [(l.nodup lane).mem_erase_iff, ne_comm]
  case isFalse hl => exact ⟨fun hj => ⟨fun hij => hl (l.lane_unique h (hij ▸ hj)), hj⟩, And.right⟩

theorem unlink (l : Linked a q) (h : i ∈ q.get lane) : Linked (a.unlink i) (q.without lane i) := by
  obtain ⟨xs, ys, hq⟩ := List.append_of_mem h
  have hn := hq ▸ l.nodup lane
  have hi : i ∉ xs ∧ i ∉ ys := by
    simp only [List.nodup_append, List.nodup_cons, List.mem_cons] at hn
    exact ⟨fun hm => hn.2.2 i hm i (.inl rfl) rfl, hn.2.1.1⟩
  have hxy : ∀ j ∈ xs, j ∉ ys := by
    simp only [List.nodup_append, List.mem_cons] at hn
    exact fun j hx hy => hn.2.2 j hx j (.inr hy) rfl
  have he : (q.get lane).erase i = xs ++ ys := by
    rw [hq, List.erase_append_right _ hi.1, List.erase_cons_head]
  -- The chain falls apart into what is before the entry, the entry, and what comes after it.
  have hc := hq ▸ l.chain lane
  rw [Chain.append] at hc
  obtain ⟨hxs, hpi, hys⟩ := hc
  obtain ⟨e, hg, hpe⟩ := Option.map_eq_some_iff.mp hpi
  simp only [Prod.mk.injEq, Option.or_none] at hpe
  obtain ⟨hlane, hbefore, hafter⟩ := hpe
  have hne : ∀ {j} {zs : List Nat}, j ∈ zs → i ∉ zs → i ≠ j := fun hj hz hij => hz (hij ▸ hj)
  constructor
  case chain =>
    intro other
    rw [PerLane.without, PerLane.get_set]
    split
    case isTrue ho =>
      rw [← ho, he, Chain.append]
      refine ⟨hxs.relink_stop ?_ fun j hj => ?_, ?_⟩
      case refine_1 => exact (List.nodup_append.mp hn).1
      case refine_2 =>
        have hy : ys.head? ≠ some j := fun hy => hxy j hj (List.mem_of_mem_head? hy)
        rw [place?_unlink hg]
        simp [hne hj hi.1, hafter, hbefore, hy]
      case refine_3 =>
        rw [Option.or_none]
        refine hys.relink_before (List.nodup_cons.mp (List.nodup_append.mp hn).2.1).2 fun j hj => ?_
        have hx : xs.getLast? ≠ some j := fun hx => hxy j (List.mem_of_mem_getLast? hx) hj
        rw [place?_unlink hg]
        simp [hne hj hi.2, hafter, hbefore, hx]
    case isFalse ho =>
      refine (l.chain other).congr fun j hj => ?_
      have hj' : j ∉ q.get lane := fun hm => ho (l.lane_unique hm hj)
      rw [hq] at hj'
      simp only [List.mem_append, List.mem_cons, not_or] at hj'
      have hx : xs.getLast? ≠ some j := fun hx => hj'.1 (List.mem_of_mem_getLast? hx)
      have hy : ys.head? ≠ some j := fun hy => hj'.2.2 (List.mem_of_mem_head? hy)
      rw [place?_unlink hg]
      simp [hafter, hbefore, hx, hy, Ne.symm hj'.2.1]
  case head =>
    intro other
    rw [heads_unlink hg, PerLane.without, PerLane.get_set, he]
    by_cases ho : lane = other
    case pos =>
      subst ho
      obtain rfl | ⟨ws, w, rfl⟩ := xs.eq_nil_or_concat
      · simp [hbefore, hlane, hafter]
      · simp [hbefore, l.head lane, hq]
    case neg =>
      split <;> simp [PerLane.get_set, hlane, ho, l.head]
  case length =>
    intro other
    rw [lengths_unlink hg, PerLane.without, PerLane.get_set, PerLane.get_set, hlane, he,
      l.length lane, hq]
    split
    · simp
    · exact l.length other
  case nodup =>
    intro other
    rw [PerLane.without, PerLane.get_set]
    split
    · exact (l.nodup lane).erase i
    · exact l.nodup other

theorem pushFront (l : Linked a q) (he : a.get? i = some e) (hi : ∀ lane, i ∉ q.get lane) :
    Linked (a.pushFront i lane) (q.inFront lane i) := by
  have hne : ∀ {lane j}, j ∈ q.get lane → i ≠ j := fun hj hij => hi _ (hij ▸ hj)
  constructor
  case chain =>
    intro other
    rw [PerLane.inFront, PerLane.get_set]
    split
    case isTrue ho =>
      subst ho
      refine ⟨?_, (l.chain lane).relink_before (l.nodup lane) fun j hj => ?_⟩
      case refine_1 =>
        have hh : (q.get lane).head? ≠ some i := fun hh => hi lane (List.mem_of_mem_head? hh)
        rw [place?_pushFront he, l.head]
        simp [place?, he, hh]
      case refine_2 =>
        rw [place?_pushFront he, l.head]
        simp [hne hj]
    case isFalse ho =>
      refine (l.chain other).congr fun j hj => ?_
      have hh : (q.get lane).head? ≠ some j := fun hh =>
        ho (l.lane_unique (List.mem_of_mem_head? hh) hj)
      rw [place?_pushFront he, l.head]
      simp [hne hj, hh]
  case head =>
    intro other
    rw [heads_pushFront he, PerLane.inFront, PerLane.get_set, PerLane.get_set]
    split
    · rfl
    · exact l.head other
  case length =>
    intro other
    rw [lengths_pushFront he, PerLane.inFront, PerLane.get_set, PerLane.get_set, l.length lane]
    split
    · rfl
    · exact l.length other
  case nodup =>
    intro other
    rw [PerLane.inFront, PerLane.get_set]
    split
    · exact List.nodup_cons.mpr ⟨hi lane, l.nodup lane⟩
    · exact l.nodup other

-- What is done to the slot of an index that is on no list is nothing to the lists.
theorem congr_off (l : Linked a q) (hi : ∀ lane, i ∉ q.get lane)
    (hp : ∀ j, i ≠ j → b.place? j = a.place? j) (hh : b.heads = a.heads)
    (hl : b.lengths = a.lengths) : Linked b q :=
  l.congr (fun lane j hj => hp j fun hij => hi lane (hij ▸ hj)) hh hl

end Linked

-- The links of the arena spell out the lists, and everything that is tracked is on one of them.
structure Threaded (a : Arena α) (q : PerLane (List Nat)) : Prop extends Linked a q where
  complete   : ∀ i e, a.get? i = some e → i ∈ q.get e.lane
  free_nodup : a.free.Nodup
  mem_free   : ∀ i, i ∈ a.free ↔ i < a.slots.length ∧ a.get? i = none

theorem free_modifyAt {i : Option Nat} : (a.modifyAt i f).free = a.free := by
  cases i <;> rfl

@[simp] theorem free_unlink : (a.unlink i).free = a.free := by
  unfold unlink
  split
  case h_1 => rfl
  case h_2 e _ =>
    simp only [modify, free_modifyAt]
    cases e.before <;> rfl

@[simp] theorem free_pushFront : (a.pushFront i lane).free = a.free := by
  unfold pushFront
  split
  case h_1 => rfl
  case h_2 =>
    simp only [free_modifyAt]
    rfl

theorem remove_eq (h : a.get? i = some e) : a.remove i =
    (some e, { a.unlink i with
      slots := (a.unlink i).slots.modify i fun s => { s with entry := none }
      free := i :: a.free }) := by
  simp [remove, h]

theorem get?_remove (h : a.get? i = some e) :
    (a.remove i).2.get? j = if i = j then none else (a.unlink i).get? j := by
  rw [remove_eq h]
  simp only [get?, List.getElem?_modify]
  cases (a.unlink i).slots[j]? <;> by_cases hij : i = j <;> simp [hij]

theorem length_slots_congr (h : b.cells.length = a.cells.length) :
    b.slots.length = a.slots.length := by
  simpa using h

@[simp] theorem length_slots_unlink : (a.unlink i).slots.length = a.slots.length :=
  length_slots_congr (by simp)

@[simp] theorem length_slots_pushFront : (a.pushFront i lane).slots.length = a.slots.length :=
  length_slots_congr (by simp [cells_pushFront])

@[simp] theorem length_slots_remove : (a.remove i).2.slots.length = a.slots.length :=
  length_slots_congr (by simp [cells_remove])

theorem get?_reserve : a.reserve.2.get? j = a.get? j := by
  unfold reserve
  split
  case h_1 => rfl
  case h_2 =>
    simp only [get?, List.getElem?_append]
    split
    case isTrue => rfl
    case isFalse h =>
      rw [List.getElem?_eq_none (by omega : a.slots.length ≤ j)]
      cases j - a.slots.length <;> rfl

theorem get?_fill (h : i < a.slots.length) :
    (a.fill i e).get? j = if i = j then some e else a.get? j := by
  simp only [get?, fill, List.getElem?_modify]
  by_cases hij : i = j
  case pos => subst hij; simp [h]
  case neg => simp [hij]

theorem length_filterMap_eq_occupied {l : List (Slot α)} : (l.filterMap Slot.entry).length =
    ((List.range l.length).filter fun i => ((l[i]?).bind Slot.entry).isSome).length := by
  induction l
  case nil => rfl
  case cons s l hi =>
    rw [List.length_cons, List.range_succ_eq_map, List.filter_cons, List.filter_map]
    cases hs : s.entry <;> simp [hs, hi, Function.comp_def]

namespace Threaded

theorem mem_iff (t : Threaded a q) : i ∈ q.get lane ↔ ∃ e, a.get? i = some e ∧ e.lane = lane where
  mp h := by
    have ⟨_, _, hp⟩ := t.place h
    have ⟨e, he, hl⟩ := Option.map_eq_some_iff.mp hp
    exact ⟨e, he, congrArg Prod.fst hl⟩
  mpr := fun ⟨e, he, hl⟩ => hl ▸ t.complete i e he

theorem empty : Threaded (Arena.empty : Arena α) ⟨[], []⟩ where
  chain lane  := by cases lane <;> trivial
  head lane   := by cases lane <;> rfl
  length lane := by cases lane <;> rfl
  nodup lane  := by cases lane <;> exact List.nodup_nil
  complete    := by simp [Arena.empty, get?]
  free_nodup  := List.nodup_nil
  mem_free    := by simp [Arena.empty]

-- Threading is a matter of places, heads, lengths and free slots.
theorem congr (t : Threaded a q) (hp : ∀ j, b.place? j = a.place? j) (hh : b.heads = a.heads)
    (hl : b.lengths = a.lengths) (hf : b.free = a.free) (hs : b.slots.length = a.slots.length) :
    Threaded b q where
  toLinked := t.toLinked.congr (fun _ j _ => hp j) hh hl
  complete i e he := by
    have h : a.place? i = some (e.lane, e.before, e.after) := by rw [← hp, place?, he]; rfl
    have ⟨e', he', h⟩ := Option.map_eq_some_iff.mp h
    have hl : e'.lane = e.lane := congrArg Prod.fst h
    exact hl ▸ t.complete i e' he'
  free_nodup := hf ▸ t.free_nodup
  mem_free i := by
    have h := congrArg Option.isNone (hp i)
    simp only [place?, Option.isNone_map] at h
    rw [hf, hs, t.mem_free, ← Option.isNone_iff_eq_none, ← Option.isNone_iff_eq_none, h]

theorem modify (t : Threaded a q)
    (hf : ∀ e, (f e).lane = e.lane ∧ (f e).before = e.before ∧ (f e).after = e.after) :
    Threaded (a.modify i f) q := by
  refine t.congr (fun j => ?_) rfl rfl rfl (by simp [Arena.modify])
  simp only [place?, get?_modify]
  split
  · simp [Function.comp_def, hf]
  · rfl

theorem withIdle (t : Threaded a q) (n : Nat) : Threaded { a with idle := n } q :=
  t.congr (fun _ => rfl) rfl rfl rfl rfl

theorem moveToFront (t : Threaded a q) (h : a.get? i = some e) :
    Threaded (a.moveToFront i lane) ((q.without e.lane i).inFront lane i) := by
  have hu : Linked (a.unlink i) (q.without e.lane i) := t.unlink (t.complete i e h)
  have hg := get?_unlink h (j := i)
  rw [h, Option.map_some] at hg
  refine ⟨hu.pushFront hg fun _ hj => ((t.mem_without (t.complete i e h)).mp hj).1 rfl, ?_, ?_, ?_⟩
  case refine_1 =>
    intro j x hx
    rw [Arena.moveToFront, get?_pushFront hg, get?_unlink h, Option.map_map,
      Option.map_eq_some_iff] at hx
    obtain ⟨y, hy, rfl⟩ := hx
    rw [PerLane.mem_inFront, t.mem_without (t.complete i e h)]
    by_cases hij : i = j
    case pos => simp [hij]
    case neg => simp [hij, t.complete j y hy]
  case refine_2 => simpa [Arena.moveToFront] using t.free_nodup
  case refine_3 =>
    intro j
    simp only [Arena.moveToFront, free_pushFront, free_unlink, length_slots_pushFront,
      length_slots_unlink, get?_pushFront hg, get?_unlink h, Option.map_eq_none_iff]
    exact t.mem_free j

theorem remove (t : Threaded a q) (h : a.get? i = some e) :
    Threaded (a.remove i).2 (q.without e.lane i) := by
  have hu : Linked (a.unlink i) (q.without e.lane i) := t.unlink (t.complete i e h)
  have hi : ∀ lane, i ∉ (q.without e.lane i).get lane := fun _ hj =>
    ((t.mem_without (t.complete i e h)).mp hj).1 rfl
  refine ⟨hu.congr_off hi (fun j hij => ?_) ?_ ?_, ?_, ?_, ?_⟩
  case refine_1 => simp [place?, get?_remove h, hij]
  case refine_2 => rw [remove_eq h]
  case refine_3 => rw [remove_eq h]
  case refine_4 =>
    intro j x hx
    rw [get?_remove h] at hx
    split at hx
    case isTrue => contradiction
    case isFalse hij =>
      obtain ⟨y, hy, rfl⟩ := Option.map_eq_some_iff.mp (get?_unlink h ▸ hx)
      exact (t.mem_without (t.complete i e h)).mpr ⟨hij, t.complete j y hy⟩
  case refine_5 =>
    rw [remove_eq h, List.nodup_cons, t.mem_free]
    exact ⟨fun hm => by simp [h] at hm, t.free_nodup⟩
  case refine_6 =>
    intro j
    have ⟨_, hc⟩ := cell?_of_get? h
    rw [get?_remove h, length_slots_remove, remove_eq h, List.mem_cons, t.mem_free]
    by_cases hij : i = j
    case pos => subst hij; simp [lt_of_cell? hc]
    case neg => simp [hij, Ne.symm hij, get?_unlink h]

-- The reserved slot is empty, and the others that are stay free.
theorem reserve (t : Threaded a q) :
    a.reserve.1 < a.reserve.2.slots.length ∧ a.get? a.reserve.1 = none ∧
    (a.reserve.1 :: a.reserve.2.free).Nodup ∧
    ∀ j, j ∈ a.reserve.1 :: a.reserve.2.free ↔
      j < a.reserve.2.slots.length ∧ a.get? j = none := by
  cases hf : a.free
  case cons i free =>
    have hr : a.reserve = (i, { a with free }) := by simp [Arena.reserve, hf]
    rw [hr]
    have hi := (t.mem_free i).mp (hf ▸ .head _)
    exact ⟨hi.1, hi.2, hf ▸ t.free_nodup, fun j => hf ▸ t.mem_free j⟩
  case nil =>
    have hr : a.reserve = (a.slots.length, { a with slots := a.slots ++ [⟨0, none⟩] }) := by
      simp [Arena.reserve, hf]
    have hn : a.get? a.slots.length = none := by simp [get?]
    rw [hr]
    refine ⟨by simp, hn, by simp [hf], fun j => ?_⟩
    have hj := t.mem_free j
    simp only [hf, List.not_mem_nil, false_iff, not_and] at hj
    simp only [hf, List.mem_singleton, List.length_append, List.length_singleton]
    constructor
    case mp => rintro rfl; exact ⟨by omega, hn⟩
    case mpr =>
      rintro ⟨hlt, hg⟩
      by_contra hne
      exact hj (by omega) hg

theorem insert (t : Threaded a q) :
    Threaded (a.insert e).2 (q.inFront e.lane (a.insert e).1.index) := by
  have ⟨hlt, hn, hd, hm⟩ := t.reserve
  have hq : ∀ lane, a.reserve.1 ∉ q.get lane := by
    intro lane hj
    have ⟨_, hj, _⟩ := t.mem_iff.mp hj
    simp [hn] at hj
  have hr : a.reserve.2.heads = a.heads ∧ a.reserve.2.lengths = a.lengths := by
    unfold Arena.reserve; split <;> simp
  have hg : ∀ j, (a.reserve.2.fill a.reserve.1 e).get? j =
      if a.reserve.1 = j then some e else a.get? j := fun j => by rw [get?_fill hlt, get?_reserve]
  have hl : Linked (a.reserve.2.fill a.reserve.1 e) q :=
    t.congr_off hq (fun j hj => by simp [place?, hg, hj]) hr.1 hr.2
  have hi : (a.reserve.2.fill a.reserve.1 e).get? a.reserve.1 = some e := by simp [hg]
  refine ⟨hl.pushFront hi hq, ?_, ?_, ?_⟩
  case refine_1 =>
    intro j x hx
    obtain ⟨y, hy, rfl⟩ := Option.map_eq_some_iff.mp (get?_pushFront hi ▸ hx)
    rw [hg] at hy
    rw [PerLane.mem_inFront]
    by_cases hj : a.reserve.1 = j
    case pos => exact .inl ⟨by simp [hj], hj⟩
    case neg => simpa [hj] using .inr (t.complete j y (by simpa [hj] using hy))
  case refine_2 =>
    simp only [Arena.insert, free_pushFront, fill]
    exact (List.nodup_cons.mp hd).2
  case refine_3 =>
    intro j
    have hj := hm j
    rw [List.mem_cons] at hj
    simp only [Arena.insert, free_pushFront, length_slots_pushFront, get?_pushFront hi, hg,
      Option.map_eq_none_iff]
    have hs : (a.reserve.2.fill a.reserve.1 e).slots.length = a.reserve.2.slots.length := by
      simp [fill]
    rw [hs]
    change j ∈ a.reserve.2.free ↔ _
    by_cases hij : a.reserve.1 = j
    case pos => subst hij; simp [(List.nodup_cons.mp hd).1]
    case neg => simpa [hij, Ne.symm hij] using hj

-- Nothing was tracked where a new entry is put, ..
theorem cell?_insert_index (t : Threaded a q) : a.cell? (a.insert e).1.index = none :=
  get?_eq_none_iff.mp t.reserve.2.1

-- .. and the reference that is handed out is one to it.
theorem cell?_insert_self (t : Threaded a q) : (a.insert e).2.cell? (a.insert e).1.index =
    some ((a.insert e).1.generation, e.bare) := by
  have ⟨s, hs⟩ : ∃ s, a.reserve.2.slots[a.reserve.1]? = some s :=
    ⟨_, List.getElem?_eq_getElem t.reserve.1⟩
  have hi : (a.insert e).1 = ⟨a.reserve.1, s.generation + 1⟩ := by simp [Arena.insert, fill, hs]
  have hc : a.reserve.2.cells[a.reserve.1]? = some (s.onEntry Entry.bare) := by simp [cells, hs]
  rw [hi, cell?, cells_insert, List.getElem?_modify_eq, hc]
  rfl

theorem entries_insert (t : Threaded a q) : (a.insert e).2.entries ~ e.bare :: a.entries := by
  have ⟨hlt, hn, _⟩ := t.reserve
  have ⟨s, hs⟩ : ∃ s, a.reserve.2.cells[a.reserve.1]? = some s :=
    ⟨_, List.getElem?_eq_getElem (by simpa using hlt)⟩
  have ⟨rest, ha, hb⟩ := entries_modify hs (cells_insert (e := e))
  have he : s.entry = none := by
    have hc := cell?_reserve.trans (get?_eq_none_iff.mp hn)
    simpa [cell?, hs] using hc
  simp only [he, Option.toList_none, Option.toList_some, List.nil_append, entries_reserve] at ha hb
  exact hb.trans (ha.symm.cons e.bare)

theorem length_le (t : Threaded a q) : (q.get lane).length ≤ a.slots.length := by
  have hs : q.get lane ⊆ List.range a.slots.length := by
    intro j hj
    have ⟨_, hj, _⟩ := t.mem_iff.mp hj
    have ⟨_, hc⟩ := cell?_of_get? hj
    exact List.mem_range.mpr (lt_of_cell? hc)
  simpa using (List.subperm_of_subset (t.nodup lane) hs).length_le

theorem occupied_iff : ((a.cells[i]?).bind Slot.entry).isSome ↔ ∃ e, a.get? i = some e := by
  have hs := congrArg Option.isSome (map_snd_cell? (a := a) (i := i))
  rw [Option.isSome_map, Option.isSome_map] at hs
  rw [← Option.isSome_iff_exists, ← hs, cell?]
  cases a.cells[i]? <;> simp

theorem perm_occupied (t : Threaded a q) :
    q.available ++ q.saturated ~
      (List.range a.cells.length).filter fun i => ((a.cells[i]?).bind Slot.entry).isSome := by
  have hn : (q.available ++ q.saturated).Nodup := by
    refine List.nodup_append.mpr ⟨t.nodup .available, t.nodup .saturated, ?_⟩
    rintro i hi _ hj rfl
    have hl : Lane.available = .saturated := t.lane_unique hi hj
    contradiction
  refine (List.perm_ext_iff_of_nodup hn (List.nodup_range.filter _)).mpr fun i => ?_
  rw [List.mem_append, List.mem_filter, List.mem_range, occupied_iff, length_cells]
  constructor
  case mp =>
    intro h
    have ⟨e, he⟩ : ∃ e, a.get? i = some e := by
      cases h
      case inl h =>
        have ⟨e, he, _⟩ := t.mem_iff.mp (show i ∈ q.get .available from h)
        exact ⟨e, he⟩
      case inr h =>
        have ⟨e, he, _⟩ := t.mem_iff.mp (show i ∈ q.get .saturated from h)
        exact ⟨e, he⟩
    have ⟨_, hc⟩ := cell?_of_get? he
    exact ⟨lt_of_cell? hc, e, he⟩
  case mpr =>
    rintro ⟨_, e, he⟩
    have hm := t.complete i e he
    cases hl : e.lane <;> simp_all [PerLane.get]

theorem length_entries (t : Threaded a q) : a.entries.length = a.size := by
  calc
    a.entries.length
    _ = (q.available ++ q.saturated).length :=
      length_filterMap_eq_occupied.trans t.perm_occupied.length_eq.symm
    _ = q.available.length + q.saturated.length := List.length_append
    _ = a.size := congrArg₂ (· + ·) (t.length .available).symm (t.length .saturated).symm

theorem indices_eq (t : Threaded a q) : a.indices lane = q.get lane := by
  rw [indices, t.head]
  exact (t.chain lane).walk_eq t.length_le

end Threaded

-- Threaded in one way or another, which is all that a count of streams asks for.
def IsThreaded (a : Arena α) : Prop := ∃ q, a.Threaded q

namespace IsThreaded

theorem empty : (Arena.empty : Arena α).IsThreaded := ⟨_, .empty⟩

theorem length_entries : a.IsThreaded → a.entries.length = a.size
  | ⟨_, t⟩ => t.length_entries

theorem mem_indices (t : a.IsThreaded) :
    i ∈ a.indices lane ↔ ∃ n e, a.cell? i = some (n, e) ∧ e.lane = lane := by
  have ⟨_, t⟩ := t
  rw [t.indices_eq, t.mem_iff]
  constructor
  case mp =>
    rintro ⟨e, he, hl⟩
    have ⟨n, hc⟩ := cell?_of_get? he
    exact ⟨n, e.bare, hc, hl⟩
  case mpr =>
    rintro ⟨n, e, hc, hl⟩
    have ⟨x, hx, he⟩ := get?_of_cell? hc
    subst he
    exact ⟨x, hx, hl⟩

theorem insert : a.IsThreaded → (a.insert e).2.IsThreaded
  | ⟨_, t⟩ => ⟨_, t.insert⟩

theorem withIdle {n : Nat} : a.IsThreaded → ({ a with idle := n } : Arena α).IsThreaded
  | ⟨_, t⟩ => ⟨_, t.withIdle n⟩

theorem modify (hf : ∀ e, (f e).lane = e.lane ∧ (f e).before = e.before ∧ (f e).after = e.after) :
    a.IsThreaded → (a.modify i f).IsThreaded
  | ⟨_, t⟩ => ⟨_, t.modify hf⟩

theorem moveToFront (t : a.IsThreaded) : (a.moveToFront i lane).IsThreaded := by
  cases h : a.get? i
  case none => simpa [Arena.moveToFront, unlink, pushFront, h] using t
  case some => exact t.elim fun _ t => ⟨_, t.moveToFront h⟩

theorem remove (t : a.IsThreaded) : (a.remove i).2.IsThreaded := by
  cases h : a.get? i
  case none => simpa [Arena.remove, h] using t
  case some => exact t.elim fun _ t => ⟨_, t.remove h⟩

end IsThreaded

end Arena
end CallFabric.Pool
