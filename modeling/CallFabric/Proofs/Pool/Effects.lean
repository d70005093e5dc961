import CallFabric.Proofs.Pool.Threading
import CallFabric.Pool.AddressPool

open scoped List

namespace CallFabric.Pool.AddressPool

variable {α : Type} {limits : Limits} {view : View α} {a : Arena α} {i : Nat} {e : Entry α}

theorem judge_eq_retire {close : Bool} (h : judge limits view e = .retire close) :
    e.streams = 0 ∧ (close = false ↔ view.health e.conn = .shutdown) := by
  cases hh : view.health e.conn <;> simp only [judge, hh] at h <;> grind

theorem judge_eq_saturate (h : judge limits view e = .saturate) :
    limits.maxStreams ≤ e.streams := by
  cases hh : view.health e.conn <;> simp only [judge, hh] at h <;> grind

theorem judge_eq_take (h : judge limits view e = .take) : e.streams < limits.maxStreams := by
  cases hh : view.health e.conn <;> simp only [judge, hh] at h <;> grind

theorem cells_modify_streams {f : Nat → Nat} :
    (a.modify i fun x => { x with streams := f x.streams }).cells =
      a.cells.modify i (.onEntry fun x => { x with streams := f x.streams }) :=
  Arena.cells_modify fun _ => rfl

def counted (a : Arena α) (e : Entry α) : Arena α :=
  if e.streams = 0 then { a with idle := a.idle - 1 } else a

theorem cells_counted : (counted a e).cells = a.cells := by
  unfold counted
  split <;> rfl

theorem cells_take : (take limits a i e).2.cells = a.cells.modify i (.onEntry fun x => { x with
    streams := x.streams + 1
    lane := if limits.maxStreams ≤ e.streams + 1 then .saturated else x.lane }) := by
  change (if _ then Arena.moveToFront ((counted a e).modify i _) i .saturated
    else (counted a e).modify i _).cells = _
  split
  case isTrue =>
    rw [Arena.cells_moveToFront, cells_modify_streams (f := (· + 1)), cells_counted,
      List.modify_modify_eq]
    congr 1
    funext s
    simp [Slot.onEntry, Function.comp_def]
  case isFalse => rw [cells_modify_streams (f := (· + 1)), cells_counted]

theorem slot_take {n : Nat} {x : Entry α} (he : a.cell? i = some (n, x)) :
    (take limits a i e).1.slot = some ⟨i, n⟩ := by
  change (take limits a i e).2.slotRef? i = _
  rw [Arena.slotRef?_eq, Arena.cell?_onEntry cells_take, if_pos rfl, he]
  rfl

theorem isThreaded_take (t : a.IsThreaded) : (take limits a i e).2.IsThreaded := by
  have hc : (counted a e).IsThreaded := by
    unfold counted
    split
    · exact t.withIdle
    · exact t
  have hm : ((counted a e).modify i fun x => { x with streams := x.streams + 1 }).IsThreaded :=
    hc.modify fun _ => ⟨rfl, rfl, rfl⟩
  change (if _ then Arena.moveToFront ((counted a e).modify i _) i .saturated
    else (counted a e).modify i _).IsThreaded
  split
  · exact hm.moveToFront
  · exact hm

theorem idle_take : (take limits a i e).2.idle = if e.streams = 0 then a.idle - 1 else a.idle := by
  have hc : (counted a e).idle = if e.streams = 0 then a.idle - 1 else a.idle := by
    unfold counted
    split <;> rfl
  refine Eq.trans ?_ hc
  change (if _ then Arena.moveToFront ((counted a e).modify i _) i .saturated
    else (counted a e).modify i _).idle = _
  split
  · exact Arena.idle_moveToFront
  · rfl

theorem cells_freeStream : (freeStream limits a i e).cells =
    a.cells.modify i (.onEntry fun x => { x with
      streams := e.streams - 1
      lane := if e.lane = .saturated ∨ limits.maxStreams ≤ e.streams then .available
        else x.lane }) := by
  unfold freeStream
  dsimp only
  rw [cells_modify_streams (f := fun _ => e.streams - 1)]
  split
  case isTrue =>
    rw [Arena.cells_moveToFront, List.modify_modify_eq]
    congr 1
    funext s
    simp [Slot.onEntry, Function.comp_def]
  case isFalse => rfl

theorem isThreaded_freeStream (t : a.IsThreaded) : (freeStream limits a i e).IsThreaded := by
  unfold freeStream
  refine Arena.IsThreaded.modify (fun _ => ⟨rfl, rfl, rfl⟩) ?_
  split
  · exact t.moveToFront
  · exact t

theorem idle_freeStream : (freeStream limits a i e).idle = a.idle := by
  change Arena.idle (if _ then _ else _) = _
  split
  · exact Arena.idle_moveToFront
  · rfl

theorem limits_takeIn {p : AddressPool α} {conn : α} {id now : Nat} :
    (p.takeIn conn id now).2.limits = p.limits := by
  unfold takeIn
  split <;> rfl

theorem limits_release {p : AddressPool α} {c : Claim α} {now : Nat} {failed : Bool} :
    (p.release c now failed).2.limits = p.limits := by
  unfold release
  split
  · rfl
  · split <;> rfl

-- A scan retires and moves entries until there is one to be taken. What holds before it and is kept
-- by both holds at its end, or where the entry is taken.
theorem scan_induct (P : List α → Arena α → Prop) {fuel : Nat} {cursor : Option Nat}
    {retired : List α} {r : Option (Claim α) × List α × Arena α}
    (hr : scan limits view fuel cursor retired a = r) (h : P retired a)
    (hretire : ∀ retired a i n e close, P retired a → a.cell? i = some (n, e) →
      judge limits view e = .retire close →
      P (if close then retired ++ [e.conn] else retired) (dropIdle a i).2)
    (hsaturate : ∀ retired a i n e, P retired a → a.cell? i = some (n, e) →
      judge limits view e = .saturate → P retired (a.moveToFront i .saturated)) :
    match r.1 with
    | none => P r.2.1 r.2.2
    | some c => ∃ a i n e, P r.2.1 a ∧ a.cell? i = some (n, e) ∧
      judge limits view e = .take ∧ take limits a i e = (c, r.2.2) := by
  subst hr
  fun_induction scan limits view fuel cursor retired a
  case case1 => exact h
  case case2 => exact h
  case case3 => exact h
  case case4 fuel index retired a e he hj hi =>
    exact hi h
  case case5 fuel index retired a e he close hj x b hd hi =>
    have ⟨n, hc⟩ := Arena.cell?_of_get? he
    have hb : (dropIdle a index).2 = b := congrArg Prod.snd hd
    exact hi (hb ▸ hretire retired a index n e.bare close h hc hj)
  case case6 fuel index retired a e he hj hi =>
    have ⟨n, hc⟩ := Arena.cell?_of_get? he
    exact hi (hsaturate retired a index n e.bare h hc hj)
  case case7 fuel index retired a e he hj claim a' ht =>
    have ⟨n, hc⟩ := Arena.cell?_of_get? he
    exact ⟨a, index, n, e.bare, h, hc, hj, ht⟩

section RemoveIdle

variable {l : List Nat}

theorem removeIdle_cons_idle {n : Nat} (h : a.cell? i = some (n, e)) (hz : e.streams = 0) :
    removeIdle (i :: l) a =
      (e.conn :: (removeIdle l (a.remove i).2).1, (removeIdle l (a.remove i).2).2) := by
  have ⟨x, hx, he⟩ := Arena.get?_of_cell? h
  subst he
  have hz : x.streams = 0 := hz
  simp [removeIdle, hx, hz, Entry.bare]

theorem removeIdle_cons_busy (h : ∀ n e, a.cell? i = some (n, e) → e.streams ≠ 0) :
    removeIdle (i :: l) a = removeIdle l a := by
  cases hg : a.get? i
  case none => simp [removeIdle, hg]
  case some x =>
    have ⟨n, hc⟩ := Arena.cell?_of_get? hg
    have hz : x.streams ≠ 0 := h n x.bare hc
    simp [removeIdle, hg, hz]

-- Either the entry in front is removed or the front is passed over.
theorem removeIdle_induct (P : Arena α → Prop) (h : P a)
    (hr : ∀ a i n e, P a → a.cell? i = some (n, e) → e.streams = 0 → P (a.remove i).2) :
    P (removeIdle l a).2 := by
  induction l generalizing a
  case nil => exact h
  case cons i l hi =>
    by_cases hc : ∃ n e, a.cell? i = some (n, e) ∧ e.streams = 0
    case pos =>
      have ⟨n, e, hc, hz⟩ := hc
      rw [removeIdle_cons_idle hc hz]
      exact hi (hr a i n e h hc hz)
    case neg =>
      rw [removeIdle_cons_busy fun n e he hz => hc ⟨n, e, he, hz⟩]
      exact hi h

theorem removeIdle_perm : ∃ gone, (removeIdle l a).1 = gone.map (·.conn) ∧
    a.entries ~ gone ++ (removeIdle l a).2.entries ∧ ∀ e ∈ gone, e.streams = 0 := by
  induction l generalizing a
  case nil => exact ⟨[], rfl, .refl _, by simp⟩
  case cons i l hi =>
    by_cases hc : ∃ n e, a.cell? i = some (n, e) ∧ e.streams = 0
    case pos =>
      have ⟨n, e, hc, hz⟩ := hc
      rw [removeIdle_cons_idle hc hz]
      obtain ⟨gone, hg, hp, hs⟩ := hi (a := (a.remove i).2)
      refine ⟨e :: gone, by simp [hg], (Arena.entries_remove hc).trans (hp.cons e), ?_⟩
      simpa [hz] using hs
    case neg =>
      rw [removeIdle_cons_busy fun n e he hz => hc ⟨n, e, he, hz⟩]
      exact hi

theorem cell?_removeIdle {j n : Nat} (h : (removeIdle l a).2.cell? j = some (n, e)) :
    a.cell? j = some (n, e) ∧ (j ∈ l → e.streams ≠ 0) := by
  induction l generalizing a
  case nil => exact ⟨h, by simp⟩
  case cons i l hi =>
    by_cases hc : ∃ n e, a.cell? i = some (n, e) ∧ e.streams = 0
    case pos =>
      have ⟨m, x, hc, hz⟩ := hc
      rw [removeIdle_cons_idle hc hz] at h
      have ⟨hj, hl⟩ := hi h
      rw [Arena.cell?_remove] at hj
      split at hj
      case isTrue => contradiction
      case isFalse hij =>
        exact ⟨hj, fun hm => hl ((List.mem_cons.mp hm).resolve_left (Ne.symm hij))⟩
    case neg =>
      rw [removeIdle_cons_busy fun n e he hz => hc ⟨n, e, he, hz⟩] at h
      have ⟨hj, hl⟩ := hi h
      refine ⟨hj, fun hm => ?_⟩
      cases hm
      case head => exact fun hz => hc ⟨n, e, hj, hz⟩
      case tail hm => exact hl hm

end RemoveIdle

-- What an eviction leaves of a pool, in two rounds.
theorem closeIdle_spec {p : AddressPool α} (t : p.arena.IsThreaded) :
    ∃ gone, p.closeIdle.1 = gone.map (·.conn) ∧
      p.arena.entries ~ gone ++ p.closeIdle.2.arena.entries ∧ (∀ e ∈ gone, e.streams = 0) ∧
      ∀ e ∈ p.closeIdle.2.arena.entries, e.streams ≠ 0 := by
  let first := removeIdle (p.arena.indices .available) p.arena
  let second := removeIdle (first.2.indices .saturated) first.2
  have hf : first.2.IsThreaded := removeIdle_induct Arena.IsThreaded t fun _ _ _ _ t _ _ => t.remove
  have ⟨gone, hg, hp, hz⟩ := removeIdle_perm (l := p.arena.indices .available) (a := p.arena)
  have ⟨gone', hg', hp', hz'⟩ := removeIdle_perm (l := first.2.indices .saturated) (a := first.2)
  refine ⟨gone ++ gone', ?_, ?_, ?_, ?_⟩
  case refine_1 =>
    change first.1 ++ second.1 = _
    rw [List.map_append]
    exact congrArg₂ (· ++ ·) hg hg'
  case refine_2 =>
    change _ ~ _ ++ second.2.entries
    rw [List.append_assoc]
    exact hp.trans (hp'.append_left gone)
  case refine_3 => exact fun e he => (List.mem_append.mp he).elim (hz e) (hz' e)
  case refine_4 =>
    intro e he
    have he : e ∈ second.2.entries := he
    have ⟨i, n, hc⟩ := Arena.mem_entries.mp he
    have ⟨hc', hs⟩ := cell?_removeIdle hc
    have ⟨hc, ha⟩ := cell?_removeIdle hc'
    cases hl : e.lane
    case available => exact ha (t.mem_indices.mpr ⟨n, e, hc, hl⟩)
    case saturated => exact hs (hf.mem_indices.mpr ⟨n, e, hc', hl⟩)

end CallFabric.Pool.AddressPool
