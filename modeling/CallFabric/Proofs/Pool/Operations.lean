import Mathlib.Data.List.Induction
import CallFabric.Proofs.Pool.Claiming
import CallFabric.Proofs.Pool.Links

open scoped List

namespace CallFabric.Pool

variable {α : Type}

namespace Slot

variable {s s' s'' : Slot α}

-- What may become of a slot: it is filled again only with its count of fillings going up.
structure Later (s s' : Slot α) : Prop where
  generation : s.generation ≤ s'.generation
  entry      : s'.generation = s.generation → s.entry = none → s'.entry = none

namespace Later

theorem refl : s.Later s := ⟨Nat.le_refl _, fun _ h => h⟩

theorem trans (h : s.Later s') (h' : s'.Later s'') : s.Later s'' where
  generation := Nat.le_trans h.generation h'.generation
  entry hg he := by
    have hs : s'.generation = s.generation :=
      Nat.le_antisymm (hg ▸ h'.generation) h.generation
    exact h'.entry (hg.trans hs.symm) (h.entry hs he)

theorem filled {e : Entry α} : s.Later ⟨s.generation + 1, some e⟩ :=
  ⟨Nat.le_succ _, fun h => absurd h (Nat.succ_ne_self _)⟩

end Later
end Slot

-- At an index where there is no entry an operation changes nothing.
inductive Operation (α : Type)
  | insert (e : Entry α)
  | remove (i : Nat)
  -- Taken off its list and put in front of one.
  | relink (i : Nat) (lane : Lane)
  | moveToFront (i : Nat) (lane : Lane)
  | setStreams (i : Nat) (f : Nat → Nat)
  | setIdle (n : Nat)

namespace Arena

variable {a b : Arena α} {i n : Nat} {e x : Entry α} {r : SlotRef} {op : Operation α}
  {ops before after : List (Operation α)}

def perform (a : Arena α) : Operation α → Arena α
  | .insert e           => (a.insert e).2
  | .remove i           => (a.remove i).2
  | .relink i lane      => (a.unlink i).pushFront i lane
  | .moveToFront i lane => a.moveToFront i lane
  | .setStreams i f     => a.modify i fun e => { e with streams := f e.streams }
  | .setIdle n          => { a with idle := n }

def run (a : Arena α) (ops : List (Operation α)) : Arena α := ops.foldl perform a

-- The most entries that are tracked at once, from the beginning to the end.
def peak (a : Arena α) : List (Operation α) → Nat
  | []        => a.tracked.length
  | op :: ops => max a.tracked.length ((a.perform op).peak ops)

@[simp] theorem run_append : a.run (before ++ after) = (a.run before).run after :=
  List.foldl_append

theorem run_concat : a.run (ops ++ [op]) = (a.run ops).perform op := run_append

theorem peak_concat :
    a.peak (ops ++ [op]) = max (a.peak ops) ((a.run ops).perform op).tracked.length := by
  induction ops generalizing a
  case nil => rfl
  case cons o ops hi => exact (congrArg _ hi).trans (Nat.max_assoc ..).symm

theorem IsThreaded.perform (op : Operation α) (t : a.IsThreaded) : (a.perform op).IsThreaded := by
  cases op
  case insert                 => exact t.insert
  case remove                 => exact t.remove
  case relink | moveToFront   => exact t.moveToFront
  case setStreams             => exact t.modify fun _ => ⟨rfl, rfl, rfl⟩
  case setIdle                => exact t.withIdle

theorem IsThreaded.run (ops : List (Operation α)) (t : a.IsThreaded) : (a.run ops).IsThreaded := by
  induction ops generalizing a
  case nil => exact t
  case cons op ops hi => exact hi (t.perform op)

theorem cell?_eq_some_iff : a.cell? i = some (n, x) ↔
    ∃ s, a.cells[i]? = some s ∧ s.generation = n ∧ s.entry = some x := by
  simp [cell?, Option.bind_eq_some_iff, Option.map_eq_some_iff, and_comm]

theorem cells_perform (h : ∀ e, op ≠ .insert e) : ∃ i F,
    (a.perform op).cells = a.cells.modify i F ∧
      ∀ s, (F s).generation = s.generation ∧ (s.entry = none → (F s).entry = none) := by
  have hf {g : Entry α → Entry α} (s : Slot α) : (s.onEntry g).generation = s.generation ∧
      (s.entry = none → (s.onEntry g).entry = none) :=
    ⟨rfl, fun hs => by simp [Slot.onEntry, hs]⟩
  cases op
  case insert e               => exact absurd rfl (h e)
  case remove i               => exact ⟨i, _, cells_remove, fun s => ⟨rfl, fun _ => rfl⟩⟩
  case relink i _             => exact ⟨i, _, cells_moveToFront, hf⟩
  case moveToFront i _        => exact ⟨i, _, cells_moveToFront, hf⟩
  case setStreams i f         => exact ⟨i, _, AddressPool.cells_modify_streams, hf⟩
  case setIdle                => exact ⟨0, id, (List.modify_id ..).symm, fun s => ⟨rfl, id⟩⟩

theorem later_modify {F : Slot α → Slot α} {s : Slot α} (hc : b.cells = a.cells.modify n F)
    (hF : ∀ s : Slot α, s.Later (F s)) (hs : a.cells[i]? = some s) :
    ∃ s', b.cells[i]? = some s' ∧ s.Later s' := by
  rw [hc, List.getElem?_modify, hs]
  split
  · exact ⟨F s, rfl, hF s⟩
  · exact ⟨s, rfl, .refl⟩

theorem later_perform {s : Slot α} (hs : a.cells[i]? = some s) :
    ∃ s', (a.perform op).cells[i]? = some s' ∧ s.Later s' := by
  by_cases h : ∃ e, op = .insert e
  case pos =>
    obtain ⟨e, rfl⟩ := h
    have hr : a.reserve.2.cells[i]? = some s := by
      cases cells_reserve (a := a)
      case inl h => rw [h, hs]
      case inr h => rw [h, List.getElem?_append_left (List.getElem?_eq_some_iff.mp hs).1, hs]
    exact later_modify cells_insert (fun _ => .filled) hr
  case neg =>
    obtain ⟨n, F, hc, hF⟩ := cells_perform (a := a) (not_exists.mp h)
    exact later_modify hc (fun s => ⟨Nat.le_of_eq (hF s).1.symm, fun _ => (hF s).2⟩) hs

theorem length_tracked : a.tracked.length = a.entries.length := by
  rw [← map_bare_tracked, List.length_map]

theorem tracked_perform_le (h : ∀ e, op ≠ .insert e) :
    (a.perform op).tracked.length ≤ a.tracked.length := by
  obtain ⟨i, F, hc, hF⟩ := cells_perform (a := a) h
  rw [length_tracked, length_tracked]
  cases hs : a.cells[i]?
  case none =>
    rw [entries, hc, List.modify_eq_set_getElem?, hs]
    exact Nat.le_refl _
  case some s =>
    obtain ⟨rest, ha, hb⟩ := entries_modify hs hc
    rw [ha.length_eq, hb.length_eq, List.length_append, List.length_append]
    refine Nat.add_le_add_right ?_ _
    cases he : s.entry
    case none => simp [(hF s).2 he]
    case some => cases (F s).entry <;> simp

theorem tracked_insert (t : a.IsThreaded) :
    (a.insert e).2.tracked.length = a.tracked.length + 1 := by
  obtain ⟨_, t⟩ := t
  rw [length_tracked, length_tracked, t.entries_insert.length_eq, List.length_cons]

-- A slot is made for an insertion only, and only if every other is taken.
theorem slots_insert_le (t : a.IsThreaded) : (a.insert e).2.slots.length ≤
    max a.slots.length (a.insert e).2.tracked.length := by
  have hl : (a.insert e).2.slots.length = a.reserve.2.slots.length := by
    rw [← length_cells, cells_insert, List.length_modify, length_cells]
  rw [hl, tracked_insert t]
  obtain ⟨_, t⟩ := t
  have hs := t.length_slots
  cases hf : a.free
  case nil => simp_all [reserve]
  case cons =>
    have hr : a.reserve.2.slots = a.slots := by simp [reserve, hf]
    rw [hr]
    exact Nat.le_max_left ..

theorem slots_perform_le (op : Operation α) (t : a.IsThreaded) : (a.perform op).slots.length ≤
    max a.slots.length (a.perform op).tracked.length := by
  by_cases h : ∃ e, op = .insert e
  case pos =>
    obtain ⟨e, rfl⟩ := h
    exact slots_insert_le t
  case neg =>
    obtain ⟨i, F, hc, -⟩ := cells_perform (a := a) (not_exists.mp h)
    have hl : (a.perform op).slots.length = a.slots.length :=
      length_slots_congr (by rw [hc, List.length_modify])
    exact hl ▸ Nat.le_max_left ..

theorem tracked_le_peak (a : Arena α) (ops : List (Operation α)) : a.tracked.length ≤ a.peak ops := by
  cases ops
  case nil  => exact Nat.le_refl _
  case cons => exact Nat.le_max_left ..

theorem slots_run_le (ops : List (Operation α)) (t : a.IsThreaded) :
    (a.run ops).slots.length ≤ max a.slots.length (a.peak ops) := by
  induction ops generalizing a
  case nil => exact Nat.le_max_left ..
  case cons op ops hi =>
    have hr := hi (t.perform op)
    have ho := slots_perform_le op t
    have hp := tracked_le_peak (a.perform op) ops
    change ((a.perform op).run ops).slots.length ≤ max _ (max _ ((a.perform op).peak ops))
    omega

-- What a reference was handed out for is there; since then it may have been moved and counted.
def Holds (a : Arena α) (r : SlotRef) (e : Entry α) : Prop :=
  ∃ x, a.cell? r.index = some (r.generation, x) ∧ x.conn = e.conn ∧ x.id = e.id ∧
    x.created = e.created

-- It is there no more, whether or not something else is.
def Gone (a : Arena α) (r : SlotRef) : Prop :=
  ∃ s, a.cells[r.index]? = some s ∧ (⟨r.generation, none⟩ : Slot α).Later s

namespace Holds

theorem insert (t : a.IsThreaded) : (a.insert e).2.Holds (a.insert e).1 e := by
  obtain ⟨_, t⟩ := t
  exact ⟨_, t.cell?_insert_self, rfl, rfl, rfl⟩

theorem resolve (h : a.Holds r e) : a.resolve? r = some r.index := by
  obtain ⟨x, hx, -⟩ := h
  exact resolve?_eq_some_iff.mpr ⟨rfl, x, hx⟩

theorem onEntry {g : Entry α → Entry α} (h : a.Holds r e)
    (hc : b.cells = a.cells.modify i (.onEntry g))
    (hg : ∀ e, (g e).conn = e.conn ∧ (g e).id = e.id ∧ (g e).created = e.created) :
    b.Holds r e := by
  obtain ⟨x, hx, hn, hi, ht⟩ := h
  rw [Holds, cell?_onEntry hc, hx]
  split
  case isTrue =>
    obtain ⟨hn', hi', ht'⟩ := hg x
    exact ⟨g x, rfl, hn'.trans hn, hi'.trans hi, ht'.trans ht⟩
  case isFalse => exact ⟨x, rfl, hn, hi, ht⟩

theorem perform (t : a.IsThreaded) (h : a.Holds r e) (ho : op ≠ .remove r.index) :
    (a.perform op).Holds r e := by
  cases op
  case insert y =>
    obtain ⟨x, hx, hs⟩ := h
    obtain ⟨_, t⟩ := t
    refine ⟨x, (cell?_insert_ne fun hi => ?_).trans hx, hs⟩
    rw [← hi, t.cell?_insert_index] at hx
    contradiction
  case remove i =>
    obtain ⟨x, hx, hs⟩ := h
    refine ⟨x, cell?_remove.trans ?_, hs⟩
    rw [if_neg (fun hi => ho (congrArg _ hi)), hx]
  case relink | moveToFront => exact h.onEntry cells_moveToFront fun _ => ⟨rfl, rfl, rfl⟩
  case setStreams => exact h.onEntry AddressPool.cells_modify_streams fun _ => ⟨rfl, rfl, rfl⟩
  case setIdle => exact h

theorem remove (h : a.Holds r e) : (a.remove r.index).2.Gone r := by
  obtain ⟨x, hx, -⟩ := h
  obtain ⟨s, hs, hg, -⟩ := cell?_eq_some_iff.mp hx
  refine ⟨{ s with entry := none }, ?_, ⟨Nat.le_of_eq hg.symm, fun _ _ => rfl⟩⟩
  rw [cells_remove, List.getElem?_modify_eq, hs]
  rfl

end Holds

namespace Gone

theorem resolve (h : a.Gone r) : a.resolve? r = none := by
  obtain ⟨s, hs, hl⟩ := h
  refine Option.eq_none_iff_forall_ne_some.mpr fun i hr => ?_
  obtain ⟨rfl, x, hx⟩ := resolve?_eq_some_iff.mp hr
  obtain ⟨s', hs', hg, he⟩ := cell?_eq_some_iff.mp hx
  obtain rfl := Option.some.inj (hs.symm.trans hs')
  rw [hl.entry hg rfl] at he
  contradiction

theorem perform (h : a.Gone r) : (a.perform op).Gone r := by
  obtain ⟨s, hs, hl⟩ := h
  obtain ⟨s', hs', hl'⟩ := later_perform hs
  exact ⟨s', hs', hl.trans hl'⟩

theorem run (h : a.Gone r) : (a.run ops).Gone r := by
  induction ops generalizing a
  case nil => exact h
  case cons op ops hi => exact hi h.perform

end Gone

theorem Holds.run (t : a.IsThreaded) (h : a.Holds r e) (ho : .remove r.index ∉ ops) :
    (a.run ops).Holds r e := by
  induction ops generalizing a
  case nil => exact h
  case cons op ops hi =>
    rw [List.mem_cons, not_or] at ho
    exact hi (t.perform op) (h.perform t (Ne.symm ho.1)) ho.2

theorem Holds.gone_run (t : a.IsThreaded) (h : a.Holds r e) (ho : .remove r.index ∈ ops) :
    (a.run ops).Gone r := by
  induction ops generalizing a
  case nil => contradiction
  case cons op ops hi =>
    by_cases hr : op = .remove r.index
    case pos =>
      subst hr
      exact h.remove.run
    case neg =>
      exact hi (t.perform op) (h.perform t hr) ((List.mem_cons.mp ho).resolve_left (Ne.symm hr))

-- What the insertion of an entry hands out when these operations came before it.
def handedOut (before : List (Operation α)) (e : Entry α) : SlotRef :=
  ((empty.run before).insert e).1

-- What is in a slot was put there by the operation or was there before.
theorem inserted_or_cell? (t : a.IsThreaded) (h : (a.perform op).cell? i = some (n, x)) :
    (∃ e, op = .insert e ∧ (a.insert e).1 = ⟨i, n⟩) ∨ ∃ y, a.cell? i = some (n, y) := by
  by_cases ho : ∃ e, op = .insert e
  case pos =>
    obtain ⟨e, rfl⟩ := ho
    obtain ⟨_, t⟩ := t
    change (a.insert e).2.cell? i = _ at h
    by_cases hi : (a.insert e).1.index = i
    case pos =>
      rw [← hi, t.cell?_insert_self] at h
      obtain ⟨rfl, -⟩ := Prod.mk.inj (Option.some.inj h)
      exact .inl ⟨e, rfl, hi ▸ rfl⟩
    case neg => exact .inr ⟨x, cell?_insert_ne hi ▸ h⟩
  case neg =>
    obtain ⟨k, F, hc, hF⟩ := cells_perform (a := a) (not_exists.mp ho)
    obtain ⟨s', hs', hg, he⟩ := cell?_eq_some_iff.mp h
    rw [hc, List.getElem?_modify] at hs'
    obtain ⟨s, hs, rfl⟩ := Option.map_eq_some_iff.mp hs'
    have hk : (if k = i then F s else s).generation = s.generation ∧
        (s.entry = none → (if k = i then F s else s).entry = none) := by
      split
      · exact hF s
      · exact ⟨rfl, id⟩
    cases hy : s.entry
    case none =>
      rw [hk.2 hy] at he
      contradiction
    case some y => exact .inr ⟨y, cell?_eq_some_iff.mpr ⟨s, hs, hk.1.symm.trans hg, hy⟩⟩

theorem exists_handedOut (h : (empty.run ops).cell? i = some (n, x)) :
    ∃ before e after, ops = before ++ .insert e :: after ∧ handedOut before e = ⟨i, n⟩ := by
  induction ops using List.reverseRecOn generalizing x
  case nil => simp [run, empty, cell?, cells] at h
  case append_singleton ops op hi =>
    have t : (empty.run ops : Arena α).IsThreaded := IsThreaded.empty.run ops
    rw [run_concat] at h
    cases inserted_or_cell? t h
    case inl hn =>
      obtain ⟨e, rfl, hr⟩ := hn
      exact ⟨ops, e, [], rfl, hr⟩
    case inr hc =>
      obtain ⟨y, hy⟩ := hc
      obtain ⟨before, e, after, rfl, hr⟩ := hi hy
      exact ⟨before, e, after ++ [op], by simp, hr⟩

theorem run_insertion : empty.run (before ++ .insert e :: after) =
    ((empty.run before).insert e).2.run after :=
  run_append

theorem handedOut_holds (hs : .remove (handedOut before e).index ∉ after) :
    (empty.run (before ++ .insert e :: after)).Holds (handedOut before e) e := by
  have t : (empty.run before : Arena α).IsThreaded := IsThreaded.empty.run before
  rw [run_insertion]
  exact (Holds.insert t).run t.insert hs

theorem handedOut_gone (hs : .remove (handedOut before e).index ∈ after) :
    (empty.run (before ++ .insert e :: after)).Gone (handedOut before e) := by
  have t : (empty.run before : Arena α).IsThreaded := IsThreaded.empty.run before
  rw [run_insertion]
  exact (Holds.insert t).gone_run t.insert hs

theorem handedOut_resolves_iff :
    (empty.run (before ++ .insert e :: after)).resolve? (handedOut before e) =
      some (handedOut before e).index ↔ .remove (handedOut before e).index ∉ after := by
  constructor
  case mp =>
    intro hr hs
    rw [(handedOut_gone hs).resolve] at hr
    contradiction
  case mpr => exact fun hs => (handedOut_holds hs).resolve

-- Before a slot is filled again it was emptied.
theorem removed_of_handedOut {y : Entry α}
    (h : (handedOut (before ++ .insert e :: ops) y).index = (handedOut before e).index) :
    .remove (handedOut before e).index ∈ ops := by
  by_contra hs
  obtain ⟨x, hx, -⟩ := handedOut_holds hs
  obtain ⟨_, t⟩ : (empty.run (before ++ .insert e :: ops)).IsThreaded := IsThreaded.empty.run _
  have hn := t.cell?_insert_index (e := y)
  change Arena.cell? _ (handedOut (before ++ .insert e :: ops) y).index = none at hn
  rw [h, hx] at hn
  contradiction

-- What is true of an empty arena to which these operations were done.
structure Orderly (ops : List (Operation α)) : Prop where
  consistent : (empty.run ops).Consistent
  slots      : (empty.run ops).slots.length ≤ empty.peak ops
  -- What resolves was handed out for an entry, ..
  origin     : ∀ r i, (empty.run ops).resolve? r = some i → ∃ before e after,
    ops = before ++ .insert e :: after ∧ handedOut before e = r
  -- .. which is then where it resolves to, ..
  target     : ∀ before e after, ops = before ++ .insert e :: after →
    ∀ i, (empty.run ops).resolve? (handedOut before e) = some i →
      i = (handedOut before e).index ∧ (empty.run ops).Holds (handedOut before e) e
  -- .. as it does until that entry is removed ..
  lasts      : ∀ before e after, ops = before ++ .insert e :: after →
    ((empty.run ops).resolve? (handedOut before e) = some (handedOut before e).index ↔
      .remove (handedOut before e).index ∉ after)
  -- .. and never again once there was another in its slot.
  outlived   : ∀ before e between y after,
    ops = before ++ .insert e :: (between ++ .insert y :: after) →
      (handedOut (before ++ .insert e :: between) y).index = (handedOut before e).index →
        (empty.run ops).resolve? (handedOut before e) = none

theorem orderly (ops : List (Operation α)) : Orderly ops where
  consistent :=
    have ⟨_, t⟩ : (empty.run ops : Arena α).IsThreaded := IsThreaded.empty.run ops
    t.consistent
  slots := by
    have h : (empty.run ops : Arena α).slots.length ≤ _ := slots_run_le ops IsThreaded.empty
    rwa [show (empty : Arena α).slots.length = 0 from rfl, Nat.zero_max] at h
  origin r i hr := by
    obtain ⟨rfl, x, hx⟩ := resolve?_eq_some_iff.mp hr
    exact exists_handedOut hx
  target before e after ho i hr := by
    subst ho
    obtain ⟨hi, x, hx⟩ := resolve?_eq_some_iff.mp hr
    refine ⟨hi.symm, handedOut_holds fun hs => ?_⟩
    rw [(handedOut_gone hs).resolve] at hr
    contradiction
  lasts before e after ho := ho ▸ handedOut_resolves_iff
  outlived before e between y after ho hi := by
    subst ho
    exact (handedOut_gone (List.mem_append_left _ (removed_of_handedOut hi))).resolve

-- What operations make of an empty arena, with at most so many entries tracked at any time.
def Arises (capacity : Nat) (a : Arena α) : Prop :=
  ∃ ops, a = empty.run ops ∧ empty.peak ops ≤ capacity

theorem tracked_run_le_peak : (a.run ops).tracked.length ≤ a.peak ops := by
  induction ops generalizing a
  case nil => exact Nat.le_refl _
  case cons op ops hi => exact Nat.le_trans hi (Nat.le_max_right ..)

namespace Arises

variable {capacity : Nat} {limits : Limits} {view : View α}

theorem empty : Arises capacity (Arena.empty : Arena α) := ⟨[], rfl, Nat.zero_le _⟩

theorem isThreaded (h : a.Arises capacity) : a.IsThreaded := by
  obtain ⟨ops, rfl, -⟩ := h
  exact IsThreaded.empty.run ops

theorem perform (op : Operation α) (h : a.Arises capacity)
    (hc : (a.perform op).tracked.length ≤ capacity) : (a.perform op).Arises capacity := by
  obtain ⟨ops, rfl, hp⟩ := h
  refine ⟨ops ++ [op], run_concat.symm, ?_⟩
  rw [peak_concat]
  exact Nat.max_le.mpr ⟨hp, hc⟩

theorem insert (h : a.Arises capacity) (hs : a.size < capacity) :
    (a.insert e).2.Arises capacity := by
  refine h.perform (.insert e) ?_
  change (a.insert e).2.tracked.length ≤ capacity
  rw [tracked_insert h.isThreaded, length_tracked, h.isThreaded.length_entries]
  exact hs

theorem other (h : a.Arises capacity) (op : Operation α) (ho : ∀ e, op ≠ .insert e) :
    (a.perform op).Arises capacity := by
  refine h.perform op (Nat.le_trans (tracked_perform_le ho) ?_)
  obtain ⟨ops, rfl, hp⟩ := h
  exact Nat.le_trans tracked_run_le_peak hp

theorem remove (h : a.Arises capacity) : (a.remove i).2.Arises capacity :=
  h.other (.remove i) (by simp)

theorem moveToFront (lane : Lane) (h : a.Arises capacity) :
    (a.moveToFront i lane).Arises capacity :=
  h.other (.moveToFront i lane) (by simp)

theorem setStreams (f : Nat → Nat) (h : a.Arises capacity) :
    (a.modify i fun e => { e with streams := f e.streams }).Arises capacity :=
  h.other (.setStreams i f) (by simp)

theorem withIdle (h : a.Arises capacity) : ({ a with idle := n } : Arena α).Arises capacity :=
  h.other (.setIdle n) (by simp)

theorem take (h : a.Arises capacity) : (AddressPool.take limits a i e).2.Arises capacity := by
  have hc : (AddressPool.counted a e).Arises capacity := by
    unfold AddressPool.counted
    split
    · exact h.withIdle
    · exact h
  have hs := hc.setStreams (i := i) (· + 1)
  change (if _ then Arena.moveToFront ((AddressPool.counted a e).modify i _) i .saturated
    else (AddressPool.counted a e).modify i _).Arises capacity
  split
  · exact hs.moveToFront .saturated
  · exact hs

theorem giveBack (now : Nat) (failed : Bool) (h : a.Arises capacity) :
    (AddressPool.giveBack limits now failed a i).2.Arises capacity := by
  unfold AddressPool.giveBack
  split
  case h_1 => exact h
  case h_2 e _ =>
    have hf : (AddressPool.freeStream limits a i e).Arises capacity := by
      unfold AddressPool.freeStream
      refine setStreams (fun _ => e.streams - 1) ?_
      split
      · exact h.moveToFront .available
      · exact h
    dsimp only
    split
    case isTrue => exact hf
    case isFalse =>
      split
      · exact hf.remove
      · exact hf.withIdle

theorem removeIdle {l : List Nat} (h : a.Arises capacity) :
    (AddressPool.removeIdle l a).2.Arises capacity :=
  AddressPool.removeIdle_induct (Arises capacity) h fun _ _ _ _ h _ _ => h.remove

theorem scan {fuel : Nat} {cursor : Option Nat} {retired : List α} (h : a.Arises capacity) :
    (AddressPool.scan limits view fuel cursor retired a).2.2.Arises capacity := by
  generalize hr : AddressPool.scan limits view fuel cursor retired a = r
  have hs := AddressPool.scan_induct (fun _ a => a.Arises capacity) hr h
    (fun _ _ _ _ _ _ h _ _ => h.remove.withIdle)
    (fun _ _ _ _ _ h _ _ => h.moveToFront .saturated)
  obtain ⟨_ | c, retired, b⟩ := r
  case none => exact hs
  case some =>
    obtain ⟨a, i, n, e, h, -, -, ht⟩ := hs
    have hb : (AddressPool.take limits a i e).2 = b := congrArg Prod.snd ht
    exact hb ▸ h.take

end Arises
end Arena

namespace System

theorem lasting_arises (limits : Limits) :
    Lasting limits fun p => p.limits = limits ∧ p.arena.Arises limits.capacity where
  new _             := ⟨rfl, .empty⟩
  tryClaim p view h := ⟨h.1, h.2.scan⟩
  takeIn p conn id now h := by
    refine ⟨AddressPool.limits_takeIn.trans h.1, ?_⟩
    unfold AddressPool.takeIn
    split
    case isTrue hs => exact h.2.insert (h.1 ▸ hs)
    case isFalse   => exact h.2
  release p c now failed h := by
    refine ⟨AddressPool.limits_release.trans h.1, ?_⟩
    unfold AddressPool.release
    split
    case h_1 => exact h.2.giveBack now failed
    case h_2 =>
      split
      case isTrue     => exact h.2
      case isFalse hs =>
        exact (h.2.insert (h.1 ▸ Nat.lt_of_not_le hs)).giveBack now failed
  closeIdle p h := ⟨h.1, h.2.removeIdle.removeIdle.withIdle⟩

-- Whatever is inserted into an arena, removed from it and moved about in it: its links lead along
-- either list, there and back, to each of its entries once; it has slots for as many entries as it
-- ever tracked at once and knows which of them are free; and a reference is good for the entry that
-- it was handed out for and for no other. That is how a pool treats its arena, never tracking more
-- than its capacity.
theorem arenas_orderly {α : Type} (ops : List (Operation α)) (limits : Limits)
    (events : List Event) : Arena.Orderly ops ∧
      ∀ n p, ((new limits).run events).manager.pool? n = some p → ∃ done,
        p.arena = Arena.empty.run done ∧ Arena.empty.peak done ≤ limits.capacity ∧
          p.arena.slots.length ≤ limits.capacity := by
  refine ⟨Arena.orderly ops, fun n p hp => ?_⟩
  obtain ⟨-, done, ha, hc⟩ := ((lasting_arises limits).run events).pools n p hp
  exact ⟨done, ha, hc, ha ▸ Nat.le_trans (Arena.orderly done).slots hc⟩

-- The slot of what is removed is filled again, and a pool with one slot dials over and over.
theorem arenas_orderly_refilled :
    let e (conn : Nat) : Entry Nat := ⟨conn, conn, 0, 1, .available, none, none⟩
    let ops := [.insert (e 0), .insert (e 1), .remove 0, .insert (e 2)]
    let s := (new (.of 1 60 5 2)).run [.acquire "a", .release 0 true, .acquire "a"]
    Arena.handedOut [] (e 0) = ⟨0, 1⟩ ∧ (Arena.empty.run ops).resolve? ⟨0, 1⟩ = none ∧
      (Arena.empty.run ops).resolve? ⟨0, 2⟩ = some 0 ∧ (Arena.empty.run ops).slots.length ≤ 2 ∧
      ∃ p, s.manager.pool? 0 = some p ∧ p.arena.slots.length ≤ 1 := by
  intro e ops s
  obtain ⟨h, hs⟩ := arenas_orderly ops (.of 1 60 5 2)
    [.acquire "a", .release 0 true, .acquire "a"]
  have hp : Arena.empty.peak ops = 2 := by decide
  refine ⟨by decide, ?_, ?_, hp ▸ h.slots, ?_⟩
  case refine_1 =>
    exact h.outlived [] (e 0) [.insert (e 1), .remove 0] (e 2) [] rfl (by decide)
  case refine_2 =>
    exact (h.lasts [.insert (e 0), .insert (e 1), .remove 0] (e 2) [] rfl).mpr List.not_mem_nil
  case refine_3 =>
    obtain ⟨_, _, _, hl⟩ := hs 0 _ rfl
    exact ⟨_, rfl, hl⟩

end System
end CallFabric.Pool
