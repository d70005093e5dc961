import CallFabric.Proofs.Pool.Scan
import CallFabric.Proofs.Pool.Turns

namespace CallFabric.Pool

variable {α : Type} {limits : Limits} {view : View α} {a b : Arena α} {i n : Nat} {e : Entry α}

-- Threaded, and full where it is on the saturated list.
structure Filed (limits : Limits) (a : Arena α) : Prop where
  threaded : a.IsThreaded
  full     : ∀ i n e, a.cell? i = some (n, e) → e.lane = .saturated →
    limits.maxStreams ≤ e.streams

namespace Filed

theorem empty : Filed limits (Arena.empty : Arena α) where
  threaded := .empty
  full     := by simp [Arena.cell?, Arena.cells, Arena.empty]

theorem withIdle {m : Nat} (h : Filed limits a) : Filed limits { a with idle := m } :=
  ⟨h.threaded.withIdle, h.full⟩

theorem remove (h : Filed limits a) : Filed limits (a.remove i).2 := by
  refine ⟨h.threaded.remove, fun j n e he => h.full j n e ?_⟩
  rw [Arena.cell?_remove] at he
  split at he
  · contradiction
  · exact he

theorem onEntry {g : Entry α → Entry α} (h : Filed limits a) (ht : b.IsThreaded)
    (he : a.cell? i = some (n, e)) (hc : b.cells = a.cells.modify i (.onEntry g))
    (hg : (g e).lane = .saturated → limits.maxStreams ≤ (g e).streams) : Filed limits b := by
  refine ⟨ht, fun j m x hx hl => ?_⟩
  rw [Arena.cell?_onEntry hc] at hx
  split at hx
  case isTrue hij =>
    rw [← hij, he] at hx
    obtain ⟨-, rfl⟩ := Prod.mk.inj (Option.some.inj hx)
    exact hg hl
  case isFalse => exact h.full j m x hx hl

theorem track (conn : α) (id created : Nat) (h : Filed limits a) :
    Filed limits (AddressPool.track a conn id created).2 := by
  refine ⟨h.threaded.insert, fun j n e he hl => ?_⟩
  obtain ⟨_, t⟩ := h.threaded
  let x : Entry α := ⟨conn, id, created, 1, .available, none, none⟩
  change (a.insert x).2.cell? j = _ at he
  by_cases hj : (a.insert x).1.index = j
  case pos =>
    rw [← hj, t.cell?_insert_self] at he
    obtain ⟨-, rfl⟩ := Prod.mk.inj (Option.some.inj he)
    cases hl
  case neg =>
    rw [Arena.cell?_insert_ne hj] at he
    exact h.full j n e he hl

theorem saturate (h : Filed limits a) (he : a.cell? i = some (n, e))
    (hm : limits.maxStreams ≤ e.streams) : Filed limits (a.moveToFront i .saturated) :=
  h.onEntry h.threaded.moveToFront he Arena.cells_moveToFront fun _ => hm

theorem take (h : Filed limits a) (he : a.cell? i = some (n, e)) :
    Filed limits (AddressPool.take limits a i e).2 := by
  refine h.onEntry (AddressPool.isThreaded_take h.threaded) he AddressPool.cells_take fun hl => ?_
  by_cases hm : limits.maxStreams ≤ e.streams + 1
  case pos => exact hm
  case neg => exact Nat.le_succ_of_le (h.full i n e he (by simpa [hm] using hl))

theorem freeStream (h : Filed limits a) (he : a.get? i = some e) :
    Filed limits (AddressPool.freeStream limits a i e) := by
  obtain ⟨m, hc⟩ := Arena.cell?_of_get? he
  refine h.onEntry (AddressPool.isThreaded_freeStream h.threaded) hc AddressPool.cells_freeStream
    fun hl => ?_
  dsimp only at hl
  split at hl
  case isTrue     => cases hl
  case isFalse hn => exact absurd (.inl hl) hn

theorem giveBack (now : Nat) (failed : Bool) (i : Nat) (h : Filed limits a) :
    Filed limits (AddressPool.giveBack limits now failed a i).2 := by
  unfold AddressPool.giveBack
  split
  case h_1 => exact h
  case h_2 e he =>
    have hf := h.freeStream he
    split
    case isTrue => exact hf
    case isFalse =>
      dsimp only
      split
      · exact hf.remove
      · exact hf.withIdle

theorem removeIdle {l : List Nat} (h : Filed limits a) :
    Filed limits (AddressPool.removeIdle l a).2 :=
  AddressPool.removeIdle_induct (Filed limits) h fun _ _ _ _ h _ _ => h.remove

theorem scan {fuel : Nat} {cursor : Option Nat} {retired : List α} (h : Filed limits a) :
    Filed limits (AddressPool.scan limits view fuel cursor retired a).2.2 := by
  generalize hr : AddressPool.scan limits view fuel cursor retired a = r
  have hs := AddressPool.scan_induct (fun _ a => Filed limits a) hr h
    (fun _ _ _ _ _ _ h _ _ => h.remove.withIdle)
    (fun _ _ _ _ _ h he hj => h.saturate he (AddressPool.judge_eq_saturate hj))
  obtain ⟨_ | c, retired, b⟩ := r
  case none => exact hs
  case some =>
    obtain ⟨a, i, n, e, h, he, _, ht⟩ := hs
    have hb : (AddressPool.take limits a i e).2 = b := congrArg Prod.snd ht
    exact hb ▸ h.take he

end Filed

namespace AddressPool

variable {p : AddressPool α}

-- Something that is tracked can be used, on whichever list it is.
def Serves (p : AddressPool α) (view : View α) : Prop :=
  ∃ i e, p.arena.get? i = some e ∧ Usable p.limits view e

theorem not_serves_new (address : String) : ¬ (new address limits : AddressPool α).Serves view := by
  rintro ⟨i, e, he, -⟩
  simp [new, Arena.empty, Arena.get?] at he

-- A claim misses nothing.
theorem found_iff_serves (h : Filed p.limits p.arena) :
    (∃ c, (p.tryClaim view).1 = some c) ↔ p.Serves view := by
  obtain ⟨ahead, hc⟩ := claiming view h.threaded
  constructor
  case mp =>
    rintro ⟨c, hf⟩
    obtain ⟨i, _, e, -, he, hu, -⟩ := hc.taken c hf
    exact ⟨i, e, he, hu⟩
  case mpr =>
    rintro ⟨i, e, he, hu⟩
    refine Option.ne_none_iff_exists'.mp fun hf => ?_
    obtain ⟨n, hi⟩ := Arena.cell?_of_get? he
    cases hl : e.lane
    case available =>
      have hm := h.threaded.mem_indices.mpr ⟨n, e.bare, hi, hl⟩
      exact hc.unusable i (hc.missed hf ▸ hm) e he hu
    case saturated => exact Nat.not_lt.mpr (h.full i n e.bare hi hl) hu.roomy

end AddressPool

namespace System

variable {s : System} {p : AddressPool Nat} {address : String}

theorem lasting_filed (limits : Limits) :
    Lasting limits fun p => p.limits = limits ∧ Filed p.limits p.arena where
  new _             := ⟨rfl, .empty⟩
  tryClaim p view h := ⟨h.1, h.2.scan⟩
  takeIn p conn id now h := by
    refine ⟨AddressPool.limits_takeIn.trans h.1, ?_⟩
    unfold AddressPool.takeIn
    split
    · exact h.2.track conn id now
    · exact h.2
  release p c now failed h := by
    refine ⟨AddressPool.limits_release.trans h.1, ?_⟩
    unfold AddressPool.release
    split
    case h_1 i _ => exact h.2.giveBack now failed i
    case h_2 =>
      split
      · exact h.2
      · exact (h.2.track c.conn c.id c.created).giveBack now failed _
  closeIdle p h := ⟨h.1, h.2.removeIdle.removeIdle.withIdle⟩

-- A connection is dialed, whether or not one comes of it.
def Dials (s : System) (address : String) : Prop :=
  (∃ e, (s.acquire address).1 = .dialFailed e) ∨
    (s.acquire address).2.health.length = s.health.length + 1

theorem dials_of_dialing {t : System} {k n : Nat} (hk : t.acquisitions[k]? = some (.dialing n)) :
    let r := match t.dial k with
      | (.done _, t) => t.takeIn k
      | failed => failed
    (∃ e, r.1 = .dialFailed e) ∨ r.2.health.length = t.health.length + 1 := by
  cases hf : t.dialFailure
  case some reason =>
    simp only [dial, hk, hf]
    exact .inl ⟨_, rfl⟩
  case none =>
    simp only [dial, hk, hf]
    exact .inr (length_takeIn.trans List.length_append)

-- After a claim that found nothing there is a dial, and only then.
theorem dials_iff_missed
    (hp : (s.lookup address).2.manager.pool? (s.lookup address).1 = some p) :
    s.Dials address ↔ (p.tryClaim s.view).1 = none := by
  have hh : (s.lookup address).2.health = s.health := rfl
  have hv : (s.lookup address).2.view = s.view := rfl
  simp only [Dials, acquire, ← hh, ← hv]
  generalize s.lookup address = l at hp
  obtain ⟨n, l⟩ := l
  dsimp only at hp ⊢
  rw [← (turn_claim hp).1.dialed]
  simp only [System.claim, Manager.claim, hp, Option.map_some]
  obtain ⟨_ | c, retired, p'⟩ := p.tryClaim l.view
  case none => exact iff_of_true (dials_of_dialing List.getElem?_concat_length) rfl
  case some =>
    refine iff_of_false ?_ (Option.some_ne_none c)
    rintro (⟨e, he⟩ | hd)
    · cases he
    · exact Nat.succ_ne_self _ hd.symm

theorem dials_iff_unserved (h : Throughout limits (fun p => Filed p.limits p.arena) s) :
    s.Dials address ↔ ∀ n p, s.manager.current.get? address = some n →
      s.manager.pool? n = some p → ¬ p.Serves s.view := by
  have hmissed {p : AddressPool Nat} (hf : Filed p.limits p.arena) :
      (p.tryClaim s.view).1 = none ↔ ¬ p.Serves s.view := by
    rw [← AddressPool.found_iff_serves hf, not_exists, Option.eq_none_iff_forall_ne_some]
  cases hn : s.manager.current.get? address
  case none =>
    have hp : (s.lookup address).2.manager.pool? (s.lookup address).1 =
        some (.new address s.manager.limits) := by
      simp [lookup_eq_new hn, Manager.pool?]
    rw [dials_iff_missed hp, hmissed .empty]
    refine iff_of_true (AddressPool.not_serves_new address) ?_
    rintro _ _ ⟨⟩
  case some n =>
    obtain ⟨p, hp⟩ := h.located (address, n) (Table.mem_of_get? hn)
    rw [dials_iff_missed (by rw [lookup_eq_self hn]; exact hp), hmissed (h.pools n p hp)]
    constructor
    case mp =>
      rintro hs _ q ⟨⟩ hq
      rw [hp] at hq
      exact Option.some.inj hq ▸ hs
    case mpr => exact fun hs => hs n p rfl hp

-- What pools can give they give out, and they have a connection dialed only for want of it.
structure Frugal (limits : Limits) (s : System) : Prop where
  -- At any time, whatever the connections report.
  tries : ∀ n p, s.manager.pool? n = some p → ∀ view, p.limits = limits ∧
    ((∃ c, (p.tryClaim view).1 = some c) ↔ p.Serves view) ∧
    ∃ ahead, Claiming p view (p.tryClaim view).1 (p.tryClaim view).2.1
      (p.tryClaim view).2.2.arena ahead
  -- Also where other things happened since the pool was looked up.
  waits : ∀ n p, s.manager.pool? n = some p →
    (s.claim n).2.closings = s.closings ++ (p.tryClaim s.view).2.1 ∧
    ((s.claim n).2.acquisitions = s.acquisitions ++ [.dialing n] ↔ ¬ p.Serves s.view)
  dials : ∀ address, s.Dials address ↔ ∀ n p, s.manager.current.get? address = some n →
    s.manager.pool? n = some p → ¬ p.Serves s.view

theorem waits_iff (hp : s.manager.pool? n = some p) :
    (s.claim n).2.acquisitions = s.acquisitions ++ [.dialing n] ↔
      ¬ ∃ c, (p.tryClaim s.view).1 = some c := by
  rw [(turn_claim hp).2]
  cases (p.tryClaim s.view).1 <;> simp

-- A pool of any limits, at any time, gives out a stream if and only if something that it tracks is
-- healthy, young enough and has room; it is the first such connection of the available list that
-- gets it. On the way what is idle and of no more use is thrown out, and closed unless it is shut
-- down; all else keeps its streams. So an acquire dials exactly if nothing in the pool of its
-- address would do.
theorem frugal_run (limits : Limits) (events : List Event) :
    ((new limits).run events).Frugal limits := by
  have h := (lasting_filed limits).run events
  generalize (new limits).run events = s at h
  constructor
  case tries =>
    intro n p hp view
    obtain ⟨hl, hf⟩ := h.pools n p hp
    exact ⟨hl, AddressPool.found_iff_serves hf, AddressPool.claiming view hf.threaded⟩
  case waits =>
    intro n p hp
    obtain ⟨-, hf⟩ := h.pools n p hp
    refine ⟨(turn_claim hp).1.closed, ?_⟩
    rw [waits_iff hp, AddressPool.found_iff_serves hf]
  case dials =>
    have hf : Throughout limits (fun p => Filed p.limits p.arena) s :=
      ⟨h.limits_eq, fun n p hp => (h.pools n p hp).2, h.located⟩
    exact fun _ => dials_iff_unserved hf

-- An idle connection that fails is closed on the way to one that is in use and has room.
theorem serves_behind_failing :
    let s := (new (.of 3 60 5 2)).run [.acquire "a", .acquire "a", .acquire "a",
      .release 0 false, .release 1 false, .setHealth 0 .transientFailure]
    ∃ p, s.manager.pool? 0 = some p ∧ p.arena.indices .available = [0, 1] ∧
      (p.tryClaim s.view).2.1 = [0] ∧ ¬ s.Dials "a" := by
  refine ⟨_, rfl, rfl, rfl, fun hd => ?_⟩
  refine ((frugal_run (.of 3 60 5 2) _).dials "a").mp hd 0 _ rfl rfl ⟨1, _, rfl, ?_⟩
  exact ⟨.inr rfl, by decide, by decide⟩

end System
end CallFabric.Pool
