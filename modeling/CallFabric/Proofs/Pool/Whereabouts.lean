import Mathlib.Data.List.Induction
import CallFabric.Proofs.Pool.Custody

open scoped List

namespace CallFabric.Pool

variable {limits : Limits}

def Acquisition.loose? : Acquisition → Option Nat
  | .held h => h.claim.loose?
  | _       => none

def Acquisition.dialed? : Acquisition → Option Nat
  | .dialed _ conn => some conn
  | _              => none

-- Where a connection is that was handed in: with an entry of a pool, with a handle on what no pool
-- tracks, or closed.
inductive Place
  | tracked
  | loose
  | closed
  deriving DecidableEq

-- How often an acquire has a connection that no pool tracks.
def Acquisition.count (a : Acquisition) (conn : Nat) : Nat :=
  a.loose?.toList.count conn + a.dialed?.toList.count conn

namespace System

variable {s t : System} {n k conn : Nat} {p p' : AddressPool Nat} {closed gone : List Nat}
  {a b : Acquisition}

def conns (s : System) : Place → List Nat
  | .tracked => s.manager.pools.flatMap (·.arena.conns)
  | .loose   => s.acquisitions.filterMap Acquisition.loose?
  | .closed  => s.closings

-- What was dialed and is yet to be handed in, each by the acquire that dialed it.
def inHand (s : System) : List Nat := s.acquisitions.filterMap Acquisition.dialed?

def outside (s : System) (conn : Nat) : Nat := (s.conns .loose).count conn + s.inHand.count conn

def count (s : System) (conn : Nat) : Nat :=
  (s.conns .tracked).count conn + (s.conns .closed).count conn + s.outside conn

theorem outside_append (h : t.acquisitions = s.acquisitions ++ [a]) :
    t.outside conn = s.outside conn + a.count conn := by
  have hc : ∀ f : Acquisition → Option Nat, (t.acquisitions.filterMap f).count conn =
      (s.acquisitions.filterMap f).count conn + (f a).toList.count conn := by
    intro f
    cases hf : f a <;> simp [h, hf]
  simp only [outside, conns, inHand, hc, Acquisition.count]
  omega

theorem outside_set (conn : Nat) (hk : s.acquisitions[k]? = some a)
    (h : t.acquisitions = s.acquisitions.set k b) :
    t.outside conn + a.count conn = s.outside conn + b.count conn := by
  have hc : ∀ f : Acquisition → Option Nat,
      (t.acquisitions.filterMap f).count conn + (f a).toList.count conn =
        (s.acquisitions.filterMap f).count conn + (f b).toList.count conn := by
    intro f
    have ⟨hs, ht⟩ := filterMap_set_perm (y := b) hk f
    have hs := hs.count_eq conn
    have ht := ht.count_eq conn
    rw [List.count_append] at hs ht
    rw [h]
    omega
  have hl := hc Acquisition.loose?
  have hd := hc Acquisition.dialed?
  simp only [outside, conns, inHand, Acquisition.count]
  omega

-- The books before and after, with what has been thrown away in between.
structure Balanced (s t : System) (gone : List Nat) : Prop where
  dialed : t.health.length = s.health.length
  count  : ∀ conn, t.count conn + gone.count conn = s.count conn

theorem Balanced.refl : Balanced s s [] := ⟨rfl, fun _ => rfl⟩

-- Only what the pool and the acquire exchange need be looked at.
theorem Turn.balanced (ht : Turn s t n p p' closed)
    (h : ∀ conn, p'.arena.conns.count conn + closed.count conn + t.outside conn + gone.count conn =
      p.arena.conns.count conn + s.outside conn) : Balanced s t gone where
  dialed := ht.dialed
  count conn := by
    have ⟨hn, hp⟩ := List.getElem?_eq_some_iff.mp ht.pool
    have hs : s.manager.pools ~ p :: s.manager.pools.eraseIdx n :=
      hp ▸ (List.getElem_cons_eraseIdx_perm hn).symm
    have hs' : t.manager.pools ~ p' :: s.manager.pools.eraseIdx n :=
      ht.pools ▸ List.set_perm_cons_eraseIdx hn p'
    have hs := (hs.flatMap_right (·.arena.conns)).count_eq conn
    have hs' := (hs'.flatMap_right (·.arena.conns)).count_eq conn
    have h := h conn
    rw [List.flatMap_cons, List.count_append] at hs hs'
    simp only [System.count, conns, ht.closed, List.count_append]
    omega

theorem balanced_lookup {address : String} : Balanced s (s.lookup address).2 [] := by
  cases hn : s.manager.current.get? address
  case some n =>
    rw [lookup_eq_self hn]
    exact .refl
  case none =>
    have ht : (s.lookup address).2.conns .tracked = s.conns .tracked := by
      simp [lookup_eq_new hn, conns, AddressPool.new, Arena.conns]
    refine ⟨rfl, fun conn => ?_⟩
    rw [count, ht]
    rfl

theorem balanced_claim : ∃ gone, Balanced s (s.claim n).2 gone ∧
    ∀ conn ∈ gone, ∃ p, s.manager.pool? n = some p ∧ AddressPool.Spent s.view p.arena conn := by
  cases hp : s.manager.pool? n
  case none => exact ⟨[], by rw [claim_eq_self hp]; exact .refl, by simp⟩
  case some p =>
    have ⟨ht, ha⟩ := turn_claim hp
    have ⟨gone, hc, hg⟩ := AddressPool.conns_tryClaim p s.view
    refine ⟨gone, ht.balanced fun conn => ?_, fun conn hconn => ⟨p, rfl, hg conn hconn⟩⟩
    have hc := hc.count_eq conn
    have ho : (s.claim n).2.outside conn = s.outside conn := by
      rw [outside_append ha]
      cases hc : (p.tryClaim s.view).1
      case none => rfl
      case some c => simp [Acquisition.count, Acquisition.loose?, Acquisition.dialed?,
        AddressPool.slot_tryClaim hc]
    rw [List.count_append, List.count_append] at hc
    omega

theorem balanced_takeIn (hs : s.Sound limits) : Balanced s (s.takeIn k).2 [] := by
  obtain h | ⟨n, p, c, hk, ht, ha⟩ := s.turn_takeIn (k := k)
  case inl =>
    rw [h]
    exact .refl
  case inr =>
    refine ht.balanced fun conn => ?_
    have ⟨_, hps⟩ := hs.pools n p ht.pool
    have hc := (AddressPool.conns_takeIn c s.manager.nextId s.now hps).count_eq conn
    have ho := outside_set conn hk ha
    rw [List.count_append, List.count_cons] at hc
    simp only [Acquisition.count, Acquisition.loose?, Acquisition.dialed?, Option.toList_none,
      Option.toList_some, List.count_nil, List.count_singleton] at ho ⊢
    omega

theorem balanced_release {failed : Bool} (hs : s.Sound limits) :
    Balanced s (s.release k failed).2 [] := by
  by_cases hh : ∃ h, s.acquisitions[k]? = some (.held h)
  case pos =>
    have ⟨h, hk⟩ := hh
    have ⟨p, hp⟩ := hs.pool_of_held hk
    have ⟨ht, ha⟩ := turn_release failed hk hp
    refine ht.balanced fun conn => ?_
    have ⟨_, hps⟩ := hs.pools h.pool p hp
    have hc := (AddressPool.conns_release s.now failed
      (hps.perm (claimsOn_over hk ha))).count_eq conn
    have ho := outside_set conn hk ha
    rw [List.count_append, List.count_append] at hc
    simp only [Acquisition.count, Acquisition.loose?, Acquisition.dialed?, Option.toList_none,
      List.count_nil] at ho ⊢
    omega
  case neg =>
    rw [release_eq_self fun h hk => hh ⟨h, hk⟩]
    exact .refl

theorem balanced_abandon : Balanced s (s.abandon k).2 [] := by
  obtain h | ⟨n, hk, h⟩ := s.abandon_cases (k := k)
  case inl =>
    rw [h]
    exact .refl
  case inr =>
    refine ⟨by rw [h]; rfl, fun conn => ?_⟩
    have ho : (s.abandon k).2.outside conn = s.outside conn :=
      outside_set conn hk (congrArg acquisitions h)
    rw [count, ho, h]
    rfl

theorem balanced_closeIdle (hs : s.Sound limits) : Balanced s (s.closeIdle n) [] := by
  cases hp : s.manager.pool? n
  case none =>
    rw [closeIdle_eq_self hp]
    exact .refl
  case some p =>
    have ⟨ht, ha⟩ := turn_closeIdle hp
    refine ht.balanced fun conn => ?_
    have ⟨_, hps⟩ := hs.pools n p hp
    have hc := (AddressPool.conns_closeIdle hps).count_eq conn
    have ho : (s.closeIdle n).outside conn = s.outside conn := by
      simp only [outside, conns, inHand, ha]
    rw [List.count_append] at hc
    simp only [List.count_nil]
    omega

-- The books are right if every connection that was dialed occurs in them once. A connection that
-- was not dialed occurs nowhere.
def Accounts (s : System) (gone : List Nat) : Prop :=
  ∀ conn, s.count conn + gone.count conn = if conn < s.health.length then 1 else 0

theorem Accounts.lost {more : List Nat} (h : s.Accounts gone) (hb : Balanced s t more) :
    t.Accounts (gone ++ more) := by
  intro conn
  have h := h conn
  have hc := hb.count conn
  rw [hb.dialed, List.count_append]
  omega

theorem Accounts.kept (h : s.Accounts gone) (hb : Balanced s t []) : t.Accounts gone :=
  List.append_nil gone ▸ h.lost hb

theorem Accounts.dial (h : s.Accounts gone) : (s.dial k).2.Accounts gone := by
  obtain hd | ⟨n, hk, hm, hc, hd⟩ := s.dial_cases (k := k)
  case inl => rwa [hd]
  case inr =>
    intro conn
    have h := h conn
    obtain ⟨hh, ha⟩ | ⟨hh, ha⟩ := hd
    case inl =>
      have ho : (s.dial k).2.outside conn = s.outside conn := outside_set conn hk ha
      simp only [count, conns, hm, hc, hh, ho] at h ⊢
      exact h
    case inr =>
      have ho : (s.dial k).2.outside conn = _ := outside_set conn hk ha
      have hone : (Acquisition.dialed n s.health.length).count conn =
          if s.health.length = conn then 1 else 0 := by
        simp [Acquisition.count, Acquisition.loose?, Acquisition.dialed?, List.count_singleton]
      rw [hh, List.length_append, List.length_singleton]
      simp only [count, conns, hm, hc, ho, hone] at h ⊢
      split at h <;> split <;> split <;> omega

-- A claim comes upon an idle connection that is shut down.
structure Discards (s : System) (e : Event) (conn : Nat) : Prop where
  claims : (∃ n, e = .claim n) ∨ ∃ address, e = .acquire address
  shut   : s.view.health conn = .shutdown
  idle   : ∃ p ∈ s.manager.pools, ∃ x ∈ p.arena.tracked, x.conn = conn ∧ x.streams = 0

theorem mem_pools_lookup {address : String} (h : p ∈ (s.lookup address).2.manager.pools) :
    p ∈ s.manager.pools ∨ p.arena = .empty := by
  cases hn : s.manager.current.get? address
  case some n =>
    rw [lookup_eq_self hn] at h
    exact .inl h
  case none =>
    simp only [lookup_eq_new hn, List.mem_append, List.mem_singleton] at h
    exact h.imp_right fun hp => congrArg AddressPool.arena hp

theorem Accounts.step (h : s.Accounts gone) (hs : s.Sound limits) (e : Event) :
    ∃ more, (s.step e).2.Accounts (gone ++ more) ∧ ∀ conn ∈ more, s.Discards e conn := by
  have hnone : ∀ t : System, t.Accounts gone →
      ∃ more, t.Accounts (gone ++ more) ∧ ∀ conn ∈ more, s.Discards e conn :=
    fun t ht => ⟨[], by rwa [List.append_nil], by simp⟩
  cases e
  case acquire address =>
    change ∃ more, (s.acquire address).2.Accounts _ ∧ _
    rw [acquire_eq]
    have hb := h.kept balanced_lookup (t := (s.lookup address).2)
    have ⟨more, hc, hm⟩ := (s.lookup address).2.balanced_claim (n := (s.lookup address).1)
    have hd := (hb.lost hc).dial (k := s.acquisitions.length)
    refine ⟨more, hd.kept (balanced_takeIn hs.lookup.claim.dial), fun conn hconn => ?_⟩
    have ⟨p, hp, hshut, x, hx, hidle⟩ := hm conn hconn
    refine ⟨.inr ⟨address, rfl⟩, hshut, ?_⟩
    cases mem_pools_lookup (List.mem_of_getElem? hp)
    case inl hp => exact ⟨p, hp, x, hx, hidle⟩
    case inr hp => simp [hp] at hx
  case release => exact hnone _ (h.kept (balanced_release hs))
  case drop => exact hnone _ (h.kept (balanced_release hs))
  case setHealth => exact hnone _ (h.kept ⟨List.length_set, fun _ => rfl⟩)
  case advance => exact hnone _ h
  case setDialFailure => exact hnone _ h
  case evict address =>
    change ∃ more, (s.evict address).2.Accounts _ ∧ _
    obtain he | ⟨n, _, he⟩ := s.evict_cases address
    case inl =>
      rw [he]
      exact hnone s h
    case inr =>
      have hc : ((s.forget address).closeIdle n).Accounts gone :=
        Accounts.kept (s := s.forget address) h (balanced_closeIdle hs.forget)
      rw [he]
      exact hnone _ hc
  case lookup => exact hnone _ (h.kept balanced_lookup)
  case claim n =>
    have ⟨more, hc, hm⟩ := s.balanced_claim (n := n)
    refine ⟨more, h.lost hc, fun conn hconn => ?_⟩
    have ⟨p, hp, hshut, hidle⟩ := hm conn hconn
    exact ⟨.inl ⟨n, rfl⟩, hshut, p, List.mem_of_getElem? hp, hidle⟩
  case dial => exact hnone _ h.dial
  case takeIn => exact hnone _ (h.kept (balanced_takeIn hs))
  case abandon => exact hnone _ (h.kept balanced_abandon)
  case forget => exact hnone _ h
  case closeIdle => exact hnone _ (h.kept (balanced_closeIdle hs))

theorem run_append {events : List Event} {e : Event} :
    s.run (events ++ [e]) = ((s.run events).step e).2 := by
  simp [run]

-- It was thrown away in the course of the events, and was nowhere right afterwards.
def Discarded (s : System) (events : List Event) (conn : Nat) : Prop :=
  ∃ before e after, events = before ++ e :: after ∧ (s.run before).Discards e conn ∧
    ∀ place, conn ∉ ((s.run before).step e).2.conns place

theorem Discarded.append {events : List Event} {e : Event} (h : s.Discarded events conn) :
    s.Discarded (events ++ [e]) conn := by
  have ⟨before, e', after, he, hd⟩ := h
  exact ⟨before, e', after ++ [e], by simp [he], hd⟩

theorem count_eq_zero : s.count conn = 0 ↔ (∀ place, conn ∉ s.conns place) ∧ conn ∉ s.inHand := by
  simp only [count, outside, Nat.add_eq_zero_iff, List.count_eq_zero]
  constructor
  case mp =>
    rintro ⟨⟨ht, hc⟩, hl, hh⟩
    refine ⟨fun place => ?_, hh⟩
    cases place
    case tracked => exact ht
    case loose => exact hl
    case closed => exact hc
  case mpr => exact fun ⟨hp, hh⟩ => ⟨⟨hp .tracked, hp .closed⟩, hp .loose, hh⟩

-- What occurs once in the books is in one place.
theorem conns_unique {place : Place} (h : s.count conn ≤ 1) (hp : conn ∈ s.conns place) :
    (s.conns place).count conn = 1 ∧ (∀ other, other ≠ place → conn ∉ s.conns other) ∧
      conn ∉ s.inHand := by
  have hpos := List.count_pos_iff.mpr hp
  have hsum : s.count conn = (s.conns .tracked).count conn + (s.conns .closed).count conn +
      ((s.conns .loose).count conn + s.inHand.count conn) := rfl
  simp only [← List.count_eq_zero]
  cases place <;> refine ⟨by omega, fun other ho => ?_, by omega⟩ <;> cases other <;>
    first | contradiction | omega

theorem Accounts.run (h : s.Accounts []) (hs : s.Sound limits) (events : List Event) :
    ∃ gone, (s.run events).Accounts gone ∧ ∀ conn ∈ gone, s.Discarded events conn := by
  induction events using List.reverseRecOn
  case nil => exact ⟨[], h, by simp⟩
  case append_singleton events e hi =>
    have ⟨gone, hg, hd⟩ := hi
    have ⟨more, hm, hn⟩ := hg.step (hs.run events) e
    rw [run_append]
    refine ⟨gone ++ more, hm, fun conn hconn => ?_⟩
    cases List.mem_append.mp hconn
    case inl hconn => exact (hd conn hconn).append
    case inr hconn =>
      have hpos : 0 < (gone ++ more).count conn :=
        List.count_pos_iff.mpr (List.mem_append_right _ hconn)
      have hzero : ((s.run events).step e).2.count conn = 0 := by
        have hc := hm conn
        split at hc <;> omega
      exact ⟨events, e, [], rfl, hn conn hconn, (count_eq_zero.mp hzero).1⟩

-- A connection that is held is tracked by the pool it is held on, or no pool's.
theorem mem_conns_of_held {h : Handle Nat} (hs : s.Sound limits) (hh : .held h ∈ s.acquisitions) :
    h.claim.conn ∈ s.conns .tracked ∨ h.claim.conn ∈ s.conns .loose := by
  have ⟨k, hk⟩ := List.mem_iff_getElem?.mp hh
  have ⟨p, hp⟩ := hs.pool_of_held hk
  have ⟨_, hps⟩ := hs.pools h.pool p hp
  cases hslot : h.claim.slot
  case some r =>
    have ⟨e, he, hconn, _⟩ := hps.resolves h.claim (mem_claimsOn hh) r hslot
    have hm : e.conn ∈ p.arena.conns := by
      rw [Arena.conns_eq]
      exact List.mem_map_of_mem (Arena.mem_entries.mpr ⟨_, _, he⟩)
    exact .inl (List.mem_flatMap.mpr ⟨p, List.mem_of_getElem? hp, hconn ▸ hm⟩)
  case none =>
    have hl : Acquisition.loose? (.held h) = some h.claim.conn := by
      simp [Acquisition.loose?, Claim.loose?, hslot]
    exact .inr (List.mem_filterMap.mpr ⟨_, hh, hl⟩)

theorem Accounts.count_le_one (h : s.Accounts gone) (conn : Nat) : s.count conn ≤ 1 := by
  have hc := h conn
  split at hc <;> omega

theorem Accounts.not_closed {h : Handle Nat} (ha : s.Accounts gone) (hs : s.Sound limits)
    (hh : .held h ∈ s.acquisitions) : h.claim.conn ∉ s.closings := by
  have hle := ha.count_le_one h.claim.conn
  cases mem_conns_of_held hs hh
  case inl hp => exact (conns_unique hle hp).2.1 .closed nofun
  case inr hp => exact (conns_unique hle hp).2.1 .closed nofun

-- Of every connection it is known where it is, or how it came to be nowhere.
structure Kept (s : System) (events : List Event) : Prop where
  handedIn : ∀ conn < (s.run events).health.length, conn ∉ (s.run events).inHand →
    (∃ place, ((s.run events).conns place).count conn = 1 ∧
      ∀ other, other ≠ place → conn ∉ (s.run events).conns other) ∨
    (∀ place, conn ∉ (s.run events).conns place) ∧ s.Discarded events conn
  inHand   : ∀ conn ∈ (s.run events).inHand,
    (s.run events).inHand.count conn = 1 ∧ ∀ place, conn ∉ (s.run events).conns place
  held     : ∀ h, .held h ∈ (s.run events).acquisitions → h.claim.conn ∉ (s.run events).closings
  once     : (s.run events).closings.Nodup

end System
end CallFabric.Pool
