import CallFabric.Proofs.Pool.Conservation

open scoped List

namespace CallFabric.Pool

variable {α : Type} {limits : Limits} {view : View α} {a b : Arena α} {i n : Nat} {e : Entry α}
  {c : Claim α} {claims : List (Claim α)}

namespace Arena

def conns (a : Arena α) : List α := a.tracked.map (·.conn)

theorem conns_eq : a.conns = a.entries.map (·.conn) := by
  rw [← map_bare_tracked, List.map_map]
  rfl

theorem conns_onEntry {g : Entry α → Entry α} (he : a.cell? i = some (n, e))
    (h : b.cells = a.cells.modify i (.onEntry g)) (hc : (g e).conn = e.conn) :
    b.conns ~ a.conns := by
  have ⟨rest, ha, hb⟩ := entries_onEntry he h
  have ha := ha.map (·.conn)
  have hb := hb.map (·.conn)
  rw [List.map_cons, hc] at hb
  rw [conns_eq, conns_eq]
  exact hb.trans ha.symm

theorem conns_remove (he : a.cell? i = some (n, e)) : a.conns ~ e.conn :: (a.remove i).2.conns := by
  rw [conns_eq, conns_eq]
  exact (entries_remove he).map (·.conn)

end Arena

-- A connection that is claimed where no pool tracks it.
def Claim.loose? (c : Claim α) : Option α := if c.slot = none then some c.conn else none

namespace AddressPool

variable {p : AddressPool α}

-- What may be thrown away without being closed.
def Spent (view : View α) (a : Arena α) (conn : α) : Prop :=
  view.health conn = .shutdown ∧ ∃ e ∈ a.tracked, e.conn = conn ∧ e.streams = 0

theorem conns_tryClaim (p : AddressPool α) (view : View α) : ∃ gone,
    p.arena.conns ~ (p.tryClaim view).2.2.arena.conns ++ (p.tryClaim view).2.1 ++ gone ∧
      ∀ conn ∈ gone, Spent view p.arena conn := by
  let P (retired : List α) (a : Arena α) : Prop :=
    (∃ gone, p.arena.conns ~ a.conns ++ retired ++ gone ∧ ∀ conn ∈ gone, Spent view p.arena conn) ∧
      ∀ e ∈ a.entries, ∃ x ∈ p.arena.entries, x.conn = e.conn ∧ x.streams = e.streams
  have hstart : P [] p.arena := ⟨⟨[], by simp, by simp⟩, fun e he => ⟨e, he, rfl, rfl⟩⟩
  have hretire : ∀ retired a i n e close, P retired a → a.cell? i = some (n, e) →
      judge p.limits view e = .retire close →
      P (if close then retired ++ [e.conn] else retired) (dropIdle a i).2 := by
    rintro retired a i n e close ⟨⟨gone, hp, hg⟩, ho⟩ he hj
    have ⟨hz, hclose⟩ := judge_eq_retire hj
    have hc : p.arena.conns ~ e.conn :: (a.remove i).2.conns ++ retired ++ gone :=
      hp.trans (((Arena.conns_remove he).append_right _).append_right _)
    refine ⟨?_, fun x hx => ho x ((Arena.entries_remove he).mem_iff.mpr (.tail _ hx))⟩
    cases close
    case true =>
      refine ⟨gone, hc.trans ?_, hg⟩
      change _ ~ (a.remove i).2.conns ++ (retired ++ [e.conn]) ++ gone
      rw [← List.append_assoc]
      exact (List.perm_append_singleton _ _).symm.append_right _
    case false =>
      refine ⟨e.conn :: gone, hc.trans List.perm_middle.symm, ?_⟩
      have ⟨x, hx, hconn, hs⟩ := ho e (Arena.mem_entries.mpr ⟨i, n, he⟩)
      have ⟨y, hy, hyx⟩ := List.mem_map.mp (Arena.map_bare_tracked ▸ hx)
      subst hyx
      exact List.forall_mem_cons.mpr ⟨⟨hclose.mp rfl, y, hy, hconn, hs.trans hz⟩, hg⟩
  have hsaturate : ∀ retired a i n e, P retired a → a.cell? i = some (n, e) →
      judge p.limits view e = .saturate → P retired (a.moveToFront i .saturated) := by
    rintro retired a i n e ⟨⟨gone, hp, hg⟩, ho⟩ he _
    have hcells : (a.moveToFront i .saturated).cells = _ := Arena.cells_moveToFront
    have ⟨rest, ha, hb⟩ := Arena.entries_onEntry he hcells
    have hc := Arena.conns_onEntry he hcells rfl
    refine ⟨⟨gone, hp.trans ((hc.symm.append_right _).append_right _), hg⟩, fun x hx => ?_⟩
    cases hb.mem_iff.mp hx
    case head => exact ho e (ha.mem_iff.mpr (.head _))
    case tail hx => exact ho x (ha.mem_iff.mpr (.tail _ hx))
  unfold tryClaim
  generalize hr : scan p.limits view _ _ [] p.arena = r
  have h := scan_induct P hr hstart hretire hsaturate
  obtain ⟨_ | c, retired, b⟩ := r
  case none => exact h.1
  case some =>
    have ⟨a, i, n, e, ⟨⟨gone, hp, hg⟩, _⟩, he, _, ht⟩ := h
    have hb : (take p.limits a i e).2 = b := congrArg Prod.snd ht
    have hcells : (take p.limits a i e).2.cells = _ := cells_take
    have hc := Arena.conns_onEntry he hcells rfl
    exact ⟨gone, hp.trans (((hb ▸ hc).symm.append_right _).append_right _), hg⟩

theorem slot_tryClaim (h : (p.tryClaim view).1 = some c) : c.loose? = none := by
  unfold tryClaim at h
  generalize hr : scan p.limits view _ _ [] p.arena = r at h
  have hs := scan_induct (fun _ _ => True) hr trivial (fun _ _ _ _ _ _ _ _ _ => trivial)
    fun _ _ _ _ _ _ _ _ => trivial
  obtain ⟨_ | x, retired, b⟩ := r <;> cases h
  have ⟨a, i, n, e, _, he, _, ht⟩ := hs
  have hslot : (take p.limits a i e).1.slot = some ⟨i, n⟩ := slot_take he
  have hc : (take p.limits a i e).1 = c := congrArg Prod.fst ht
  simp [Claim.loose?, ← hc, hslot]

theorem conns_track (conn : α) (id created : Nat) (t : a.IsThreaded) :
    (track a conn id created).2.conns ~ conn :: a.conns := by
  have ⟨_, t⟩ := t
  rw [Arena.conns_eq, Arena.conns_eq]
  exact t.entries_insert.map (·.conn)

theorem conns_takeIn (conn : α) (id now : Nat) (s : p.Sound claims) :
    (p.takeIn conn id now).2.arena.conns ++ (p.takeIn conn id now).1.loose?.toList ~
      conn :: p.arena.conns := by
  unfold takeIn
  split
  case isTrue =>
    simp only [Claim.loose?, reduceCtorEq, ↓reduceIte, Option.toList_none, List.append_nil]
    exact conns_track conn id now s.threaded
  case isFalse => exact List.perm_append_singleton _ _

theorem conns_giveBack (limits : Limits) (now : Nat) (failed : Bool)
    (he : a.cell? i = some (n, e)) :
    (giveBack limits now failed a i).2.conns ++
      (if (giveBack limits now failed a i).1 then [e.conn] else []) ~ a.conns := by
  have ⟨x, hx, hxe⟩ := Arena.get?_of_cell? he
  subst hxe
  have hcells : (freeStream limits a i x).cells = _ := cells_freeStream
  have hfreed : (freeStream limits a i x).conns ~ a.conns := Arena.conns_onEntry he hcells rfl
  simp only [giveBack, hx]
  split
  case isTrue => simpa using hfreed
  case isFalse =>
    split
    case isTrue =>
      have hr := Arena.conns_remove (cell?_onEntry_self he hcells)
      exact (List.perm_append_singleton _ _).trans (hr.symm.trans hfreed)
    case isFalse =>
      simp only [Bool.false_eq_true, ↓reduceIte, List.append_nil]
      exact hfreed

-- What is given back untracked is tracked from then on, or closed.
theorem conns_release (now : Nat) (failed : Bool) (s : p.Sound (c :: claims)) :
    (p.release c now failed).2.arena.conns ++
      (if (p.release c now failed).1 then [c.conn] else []) ~ p.arena.conns ++ c.loose?.toList := by
  cases hslot : c.slot
  case some r =>
    have ⟨e, he, hconn, _⟩ := s.resolves c (.head _) r hslot
    have hi := Arena.resolve?_eq_some_iff.mpr ⟨rfl, e, he⟩
    have hg := conns_giveBack p.limits now failed he
    simpa [release, hi, Claim.loose?, hslot, hconn] using hg
  case none =>
    have ht := conns_track c.conn c.id c.created s.threaded
    have hl : c.loose?.toList = [c.conn] := by simp [Claim.loose?, hslot]
    rw [hl]
    simp only [release, hslot, Option.bind_none]
    split
    case isTrue => exact .refl _
    case isFalse =>
      have ⟨_, t⟩ := s.threaded
      have hself := t.cell?_insert_self
        (e := ⟨c.conn, c.id, c.created, 1, .available, none, none⟩)
      have hg := conns_giveBack p.limits now failed hself
      exact hg.trans (ht.trans (List.perm_append_singleton _ _).symm)

theorem conns_closeIdle (s : p.Sound claims) :
    p.closeIdle.2.arena.conns ++ p.closeIdle.1 ~ p.arena.conns := by
  have ⟨gone, hg, hp, _⟩ := closeIdle_spec s.threaded
  rw [hg, Arena.conns_eq, Arena.conns_eq]
  have hm := hp.map (·.conn)
  rw [List.map_append] at hm
  exact List.perm_append_comm.trans hm.symm

end AddressPool
end CallFabric.Pool
