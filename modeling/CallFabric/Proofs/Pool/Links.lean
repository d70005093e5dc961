import CallFabric.Proofs.Pool.Threading

open scoped List

namespace CallFabric.Pool.Arena

variable {α : Type} {a : Arena α} {i j : Nat} {lane : Lane} {e : Entry α}
  {q : PerLane (List Nat)} {xs ys : List Nat}

-- From an index on these are visited, one after the other, and after the last there is no other.
inductive Follows (a : Arena α) : Option Nat → List Nat → Prop
  | stop : a.Follows none []
  | next {i : Nat} {e : Entry α} {is : List Nat} (he : a.get? i = some e)
    (h : a.Follows e.after is) : a.Follows (some i) (i :: is)

structure Consistent (a : Arena α) : Prop where
  -- The fuel of `indices` cuts nothing off.
  follows    : ∀ lane, a.Follows (a.heads.get lane) (a.indices lane)
  nodup      : ∀ lane, (a.indices lane).Nodup
  visits     : ∀ lane i, i ∈ a.indices lane ↔ ∃ e, a.get? i = some e ∧ e.lane = lane
  inverse    : ∀ i j, (∃ e, a.get? i = some e ∧ e.after = some j) ↔
    ∃ e, a.get? j = some e ∧ e.before = some i
  first      : ∀ i e, a.get? i = some e → (e.before = none ↔ a.heads.get e.lane = some i)
  lengths    : ∀ lane, a.lengths.get lane = (a.indices lane).length
  free_nodup : a.free.Nodup
  free       : ∀ i, i ∈ a.free ↔ i < a.slots.length ∧ a.get? i = none

theorem Chain.follows {before : Option Nat} (h : a.Chain lane before xs none) :
    a.Follows xs.head? xs := by
  induction xs generalizing before
  case nil => exact .stop
  case cons x xs hi =>
    obtain ⟨e, he, hp⟩ := Option.map_eq_some_iff.mp h.1
    simp only [Prod.mk.injEq, Option.or_none] at hp
    exact .next he (hp.2.2 ▸ hi h.2)

-- What stands on a list knows what stands next to it.
theorem Linked.neighbours (l : Linked a q) (h : q.get lane = xs ++ i :: ys)
    (he : a.get? i = some e) : e.before = xs.getLast? ∧ e.after = ys.head? := by
  have hc := h ▸ l.chain lane
  obtain ⟨x, hx, hp⟩ := Option.map_eq_some_iff.mp (Chain.append.mp hc).2.1
  obtain rfl := Option.some.inj (he.symm.trans hx)
  simp only [Prod.mk.injEq, Option.or_none] at hp
  exact hp.2

namespace Threaded

theorem exists_of_listed (t : Threaded a q) (h : q.get lane = xs ++ i :: ys) :
    ∃ e, a.get? i = some e ∧ e.before = xs.getLast? ∧ e.after = ys.head? := by
  obtain ⟨e, he, -⟩ := t.mem_iff.mp (h ▸ List.mem_append_right xs (.head ys))
  exact ⟨e, he, t.neighbours h he⟩

theorem exists_listed (t : Threaded a q) (he : a.get? i = some e) :
    ∃ xs ys, q.get e.lane = xs ++ i :: ys :=
  List.append_of_mem (t.complete i e he)

theorem before_of_after (t : Threaded a q) (he : a.get? i = some e) (ha : e.after = some j) :
    ∃ x, a.get? j = some x ∧ x.before = some i := by
  obtain ⟨xs, ys, hq⟩ := t.exists_listed he
  obtain ⟨zs, rfl⟩ := List.head?_eq_some_iff.mp ((t.neighbours hq he).2.symm.trans ha)
  have hj : q.get e.lane = (xs ++ [i]) ++ j :: zs := by simpa using hq
  obtain ⟨x, hx, hb, -⟩ := t.exists_of_listed hj
  exact ⟨x, hx, by simpa using hb⟩

theorem after_of_before (t : Threaded a q) (he : a.get? j = some e) (hb : e.before = some i) :
    ∃ x, a.get? i = some x ∧ x.after = some j := by
  obtain ⟨xs, ys, hq⟩ := t.exists_listed he
  obtain ⟨zs, rfl⟩ := List.getLast?_eq_some_iff.mp ((t.neighbours hq he).1.symm.trans hb)
  have hi : q.get e.lane = zs ++ i :: j :: ys := by simpa using hq
  obtain ⟨x, hx, -, ha⟩ := t.exists_of_listed hi
  exact ⟨x, hx, by simpa using ha⟩

-- Nothing comes before an entry exactly if it is at the head.
theorem before_eq_none_iff (t : Threaded a q) (he : a.get? i = some e) :
    e.before = none ↔ a.heads.get e.lane = some i := by
  obtain ⟨xs, ys, hq⟩ := t.exists_listed he
  rw [(t.neighbours hq he).1, t.head, hq, List.getLast?_eq_none_iff]
  constructor
  case mp => rintro rfl; rfl
  case mpr =>
    intro hh
    cases xs
    case nil => rfl
    case cons x xs =>
      obtain rfl := Option.some.inj hh
      have hn : (x :: xs ++ x :: ys).Nodup := hq ▸ t.nodup e.lane
      exact absurd (List.mem_append_right xs (.head ys)) (List.nodup_cons.mp hn).1

theorem consistent (t : Threaded a q) : a.Consistent where
  follows lane  := by
    rw [t.indices_eq, t.head]
    exact (t.chain lane).follows
  nodup lane    := t.indices_eq ▸ t.nodup lane
  visits lane i := t.indices_eq ▸ t.mem_iff
  inverse i j   := ⟨fun ⟨_, he, ha⟩ => t.before_of_after he ha,
    fun ⟨_, he, hb⟩ => t.after_of_before he hb⟩
  first _ _     := t.before_eq_none_iff
  lengths lane  := t.indices_eq ▸ t.length lane
  free_nodup    := t.free_nodup
  free          := t.mem_free

-- Every slot is taken or free.
theorem length_slots (t : Threaded a q) : a.slots.length = a.tracked.length + a.free.length := by
  let taken (i : Nat) : Bool := ((a.slots[i]?).bind Slot.entry).isSome
  have hf : a.free ~ (List.range a.slots.length).filter fun i => !taken i := by
    refine (List.perm_ext_iff_of_nodup t.free_nodup (List.nodup_range.filter _)).mpr fun i => ?_
    rw [t.mem_free, List.mem_filter, List.mem_range]
    simp [get?, taken]
  calc
    a.slots.length
    _ = (List.range a.slots.length).length := List.length_range.symm
    _ = ((List.range a.slots.length).filter taken).length +
          ((List.range a.slots.length).filter fun i => !taken i).length :=
      List.length_eq_length_filter_add taken
    _ = a.tracked.length + a.free.length :=
      congrArg₂ (· + ·) length_filterMap_eq_occupied.symm hf.length_eq.symm

end Threaded
end CallFabric.Pool.Arena
