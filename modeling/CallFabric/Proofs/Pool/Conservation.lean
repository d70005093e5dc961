import CallFabric.Proofs.Pool.Streams
import CallFabric.Proofs.Pool.Turns

open scoped List

namespace CallFabric.Pool

def Acquisition.claimOn? (n : Nat) : Acquisition → Option (Claim Nat)
  | .held h => if h.pool = n then some h.claim else none
  | _       => none

namespace System

variable {s t : System} {n k : Nat} {p p' : AddressPool Nat} {closed : List Nat} {a : Acquisition}
  {limits : Limits}

-- The claims that are out on a pool.
def claimsOn (s : System) (n : Nat) : List (Claim Nat) := s.acquisitions.filterMap (·.claimOn? n)

theorem mem_claimsOn {h : Handle Nat} (hh : .held h ∈ s.acquisitions) :
    h.claim ∈ s.claimsOn h.pool :=
  List.mem_filterMap.mpr ⟨_, hh, by simp [Acquisition.claimOn?]⟩

theorem claimsOn_append (h : t.acquisitions = s.acquisitions ++ [a]) :
    t.claimsOn n = s.claimsOn n ++ (a.claimOn? n).toList := by
  cases ha : a.claimOn? n <;> simp [claimsOn, h, ha]

theorem claimsOn_set {b : Acquisition} (hk : s.acquisitions[k]? = some a)
    (h : t.acquisitions = s.acquisitions.set k b) :
    ∃ rest, s.claimsOn n ~ (a.claimOn? n).toList ++ rest ∧
      t.claimsOn n ~ (b.claimOn? n).toList ++ rest := by
  have ⟨hs, ht⟩ := filterMap_set_perm (y := b) hk (·.claimOn? n)
  exact ⟨_, hs, by rwa [claimsOn, h]⟩

-- One claim less where what is held comes to an end.
theorem claimsOn_over {h : Handle Nat} (hk : s.acquisitions[k]? = some (.held h))
    (ha : t.acquisitions = s.acquisitions.set k .over) :
    s.claimsOn h.pool ~ h.claim :: t.claimsOn h.pool := by
  have ⟨rest, hs, ht⟩ := claimsOn_set (n := h.pool) hk ha
  have hs : s.claimsOn h.pool ~ h.claim :: rest := by simpa [Acquisition.claimOn?] using hs
  exact hs.trans (ht.symm.cons _)

structure Sound (limits : Limits) (s : System) : Prop where
  streams   : 1 ≤ limits.maxStreams
  limits_eq : s.manager.limits = limits
  pools     : ∀ n p, s.manager.pool? n = some p → p.limits = limits ∧ p.Sound (s.claimsOn n)
  placed    : ∀ n, s.manager.pool? n = none → s.claimsOn n = []
  current   : ∀ a ∈ s.manager.current, ∃ p, s.manager.pool? a.2 = some p

namespace Sound

theorem new (h : 1 ≤ limits.maxStreams) : (new limits).Sound limits where
  streams      := h
  limits_eq    := rfl
  pools n p hp := by simp [System.new, Manager.new, Manager.pool?] at hp
  placed _ _   := rfl
  current      := by simp [System.new, Manager.new]

theorem congr (hs : s.Sound limits) (hp : t.manager.pools = s.manager.pools)
    (hl : t.manager.limits = s.manager.limits) (hcur : t.manager.current ⊆ s.manager.current)
    (hc : ∀ n, t.claimsOn n ~ s.claimsOn n) : t.Sound limits where
  streams   := hs.streams
  limits_eq := hl.trans hs.limits_eq
  pools n p h := by
    have ⟨hpl, hps⟩ := hs.pools n p (by rwa [Manager.pool?, ← hp])
    exact ⟨hpl, hps.perm (hc n).symm⟩
  placed n h := by
    have hn := hs.placed n (by rwa [Manager.pool?, ← hp])
    exact (hn ▸ hc n).eq_nil
  current a ha := by
    rw [Manager.pool?, hp]
    exact hs.current a (hcur ha)

theorem turn (hs : s.Sound limits) (ht : Turn s t n p p' closed) (hl : p'.limits = p.limits)
    (hp : p'.Sound (t.claimsOn n)) (hc : ∀ m, n ≠ m → t.claimsOn m ~ s.claimsOn m) :
    t.Sound limits where
  streams   := hs.streams
  limits_eq := ht.limits.trans hs.limits_eq
  pools m q h := by
    obtain ⟨rfl, rfl⟩ | ⟨hnm, hq⟩ := ht.pool?_cases h
    case inl => exact ⟨hl.trans (hs.pools n p ht.pool).1, hp⟩
    case inr =>
      obtain ⟨hql, hqs⟩ := hs.pools m q hq
      exact ⟨hql, hqs.perm (hc m hnm).symm⟩
  placed m h := by
    rw [Manager.pool?, ht.pools, List.getElem?_eq_none_iff, List.length_set] at h
    have hm : s.manager.pool? m = none := List.getElem?_eq_none h
    have hnm : n ≠ m := by
      rintro rfl
      rw [ht.pool] at hm
      contradiction
    exact (hs.placed m hm ▸ hc m hnm).eq_nil
  current := Located.turn hs.current ht

theorem lookup {address : String} (hs : s.Sound limits) : (s.lookup address).2.Sound limits where
  streams   := hs.streams
  limits_eq := limits_lookup.trans hs.limits_eq
  pools n p h := by
    obtain hp | ⟨hn, rfl⟩ := pool?_lookup_cases h
    case inl => exact hs.pools n p hp
    case inr =>
      have hc : s.claimsOn n = [] := hs.placed n hn
      exact ⟨hs.limits_eq, show AddressPool.Sound _ (s.claimsOn n) from hc ▸ AddressPool.sound_new⟩
  placed n h := by
    refine hs.placed n ?_
    cases hn : s.manager.current.get? address
    case some => rwa [lookup_eq_self hn] at h
    case none =>
      rw [lookup_eq_new hn, Manager.pool?, List.getElem?_eq_none_iff, List.length_append] at h
      exact List.getElem?_eq_none (by omega)
  current := Located.lookup hs.current address

theorem claim (hs : s.Sound limits) : (s.claim n).2.Sound limits := by
  cases hp : s.manager.pool? n
  case none => rwa [claim_eq_self hp]
  case some p =>
    have ⟨ht, ha⟩ := turn_claim hp
    have ⟨_, hps⟩ := hs.pools n p hp
    have hsound := AddressPool.sound_tryClaim s.view hps
    refine hs.turn ht rfl ?_ fun m hm => ?_
    case refine_1 =>
      refine hsound.perm ?_
      rw [claimsOn_append ha]
      refine List.perm_append_comm.trans (.of_eq ?_)
      cases (p.tryClaim s.view).1 <;> simp [Acquisition.claimOn?]
    case refine_2 =>
      rw [claimsOn_append ha]
      cases (p.tryClaim s.view).1 <;> simp [Acquisition.claimOn?, hm]

theorem dial (hs : s.Sound limits) : (s.dial k).2.Sound limits := by
  obtain h | ⟨n, hk, hm, _, ⟨_, ha⟩ | ⟨_, ha⟩⟩ := s.dial_cases (k := k)
  case inl => rwa [h]
  all_goals
    refine hs.congr (by rw [hm]) (by rw [hm]) (by rw [hm]; exact .refl _) fun m => ?_
    have ⟨rest, hrest, ht⟩ := claimsOn_set (n := m) hk ha
    exact ht.trans hrest.symm

theorem takeIn (hs : s.Sound limits) : (s.takeIn k).2.Sound limits := by
  obtain h | ⟨n, p, conn, hk, ht, ha⟩ := s.turn_takeIn (k := k)
  case inl => rwa [h]
  case inr =>
    have ⟨hl, hps⟩ := hs.pools n p ht.pool
    have hsound := AddressPool.sound_takeIn conn s.manager.nextId s.now hps (hl ▸ hs.streams)
    refine hs.turn ht AddressPool.limits_takeIn ?_ fun m hm => ?_
    case refine_1 =>
      have ⟨rest, hrest, ht⟩ := claimsOn_set (n := n) hk ha
      refine hsound.perm ?_
      simp only [Acquisition.claimOn?, ↓reduceIte, Option.toList_some, Option.toList_none,
        List.nil_append, List.singleton_append] at hrest ht
      exact (hrest.cons _).trans ht.symm
    case refine_2 =>
      have ⟨rest, hrest, ht⟩ := claimsOn_set (n := m) hk ha
      exact ht.trans (by simpa [Acquisition.claimOn?, hm] using hrest.symm)

theorem abandon (hs : s.Sound limits) : (s.abandon k).2.Sound limits := by
  obtain h | ⟨n, hk, h⟩ := s.abandon_cases (k := k)
  case inl => rwa [h]
  case inr =>
    refine hs.congr (by rw [h]; rfl) (by rw [h]; rfl) (by rw [h]; exact .refl _) fun m => ?_
    have ⟨rest, hrest, ht⟩ := claimsOn_set (n := m) (b := .over) hk (congrArg acquisitions h)
    exact ht.trans hrest.symm

theorem pool_of_held {h : Handle Nat} (hs : s.Sound limits)
    (hk : s.acquisitions[k]? = some (.held h)) :
    ∃ p, s.manager.pool? h.pool = some p := by
  refine Option.ne_none_iff_exists'.mp fun hn => ?_
  have hm : h.claim ∈ s.claimsOn h.pool := mem_claimsOn (List.mem_of_getElem? hk)
  rw [hs.placed h.pool hn] at hm
  contradiction

theorem release {failed : Bool} (hs : s.Sound limits) : (s.release k failed).2.Sound limits := by
  by_cases hh : ∃ h, s.acquisitions[k]? = some (.held h)
  case pos =>
    have ⟨h, hk⟩ := hh
    have ⟨p, hp⟩ := hs.pool_of_held hk
    have ⟨ht, ha⟩ := turn_release failed hk hp
    have ⟨hl, hps⟩ := hs.pools h.pool p hp
    refine hs.turn ht AddressPool.limits_release ?_ fun m hm => ?_
    case refine_1 =>
      exact AddressPool.sound_release (hps.perm (claimsOn_over hk ha)) (hl ▸ hs.streams)
    case refine_2 =>
      have ⟨rest, hrest, ht⟩ := claimsOn_set (n := m) hk ha
      have hrest : s.claimsOn m ~ rest := by simpa [Acquisition.claimOn?, hm] using hrest
      exact ht.trans hrest.symm
  case neg => rwa [release_eq_self fun h hk => hh ⟨h, hk⟩]

theorem forget {address : String} (hs : s.Sound limits) : (s.forget address).Sound limits :=
  hs.congr rfl rfl (Table.erase_subset _ _) fun _ => .refl _

theorem closeIdle (hs : s.Sound limits) : (s.closeIdle n).Sound limits := by
  cases hp : s.manager.pool? n
  case none => rwa [closeIdle_eq_self hp]
  case some p =>
    have ⟨ht, ha⟩ := turn_closeIdle hp
    have ⟨_, hps⟩ := hs.pools n p hp
    have hc : ∀ m, (s.closeIdle n).claimsOn m = s.claimsOn m := fun m => by rw [claimsOn, ha]; rfl
    exact hs.turn ht rfl (hc n ▸ AddressPool.sound_closeIdle hps) fun m _ => .of_eq (hc m)

theorem step (hs : s.Sound limits) (e : Event) : (s.step e).2.Sound limits := by
  cases e
  case acquire address =>
    change (s.acquire address).2.Sound limits
    rw [acquire_eq]
    exact hs.lookup.claim.dial.takeIn
  case release      => exact hs.release
  case drop         => exact hs.release
  case setHealth    => exact hs.congr rfl rfl (.refl _) fun _ => .refl _
  case advance      => exact hs.congr rfl rfl (.refl _) fun _ => .refl _
  case setDialFailure => exact hs.congr rfl rfl (.refl _) fun _ => .refl _
  case evict address =>
    change (s.evict address).2.Sound limits
    obtain h | ⟨n, _, h⟩ := s.evict_cases address
    case inl => rwa [h]
    case inr =>
      have hf : (s.forget address).Sound limits := hs.forget
      have hc : ((s.forget address).closeIdle n).Sound limits := hf.closeIdle
      exact h ▸ hc.congr rfl rfl (.refl _) fun _ => .refl _
  case lookup       => exact hs.lookup
  case claim        => exact hs.claim
  case dial         => exact hs.dial
  case takeIn       => exact hs.takeIn
  case abandon      => exact hs.abandon
  case forget       => exact hs.forget
  case closeIdle    => exact hs.closeIdle

theorem run (hs : s.Sound limits) (events : List Event) : (s.run events).Sound limits := by
  induction events generalizing s
  case nil => exact hs
  case cons e events hi => exact hi (hs.step e)

end Sound

-- Where dialing succeeds there is a connection, old or new.
theorem Sound.acquires (hs : s.Sound limits) (hd : s.dialFailure = none) (address : String) :
    ∃ number named h, (s.acquire address).1 = .acquired number named h := by
  obtain ⟨p, hp⟩ := Located.pool_lookup hs.current address
  have hd : (s.lookup address).2.dialFailure = none := hd
  simp only [acquire]
  generalize s.lookup address = l at hp hd
  obtain ⟨n, l⟩ := l
  dsimp only at hp hd
  simp only [System.claim, Manager.claim, hp, Option.map_some]
  generalize p.tryClaim l.view = found
  obtain ⟨claimed, retired, p'⟩ := found
  cases claimed
  case some => exact ⟨_, _, _, rfl⟩
  case none =>
    -- The new connection is taken into the pool that the claim was made on.
    have hlt : n < l.manager.pools.length := (List.getElem?_eq_some_iff.mp hp).1
    simp [System.dial, begin, close, hd, proceed, measure, System.takeIn, Manager.takeIn,
      Manager.setPool, Manager.pool?, hlt]

theorem sound_run (capacity ttl maxIdle maxStreams : Nat) (events : List Event) :
    ((System.new (.of capacity ttl maxIdle maxStreams)).run events).Sound
      (.of capacity ttl maxIdle maxStreams) :=
  (Sound.new (Nat.le_max_right _ _)).run events

end System

namespace AddressPool

-- Every stream that is counted is held by somebody, and what is held is counted.
structure Conserves (limits : Limits) (claims : List (Claim Nat)) (p : AddressPool Nat) : Prop where
  limits_eq : p.limits = limits
  streams   : ∀ i e, p.arena.get? i = some e →
    e.streams = claims.countP fun c => c.slot.bind p.arena.resolve? = some i
  capped    : ∀ i e, p.arena.get? i = some e → e.streams ≤ limits.maxStreams
  saturated : ∀ i ∈ p.arena.indices .saturated,
    ∃ e, p.arena.get? i = some e ∧ e.streams = limits.maxStreams
  idle      : p.arena.idle = p.arena.tracked.countP (·.streams = 0)
  idle_le   : p.arena.idle ≤ limits.maxIdle
  size      : p.arena.size = p.arena.tracked.length
  size_le   : p.arena.size ≤ limits.capacity
  resolves  : ∀ c ∈ claims, ∀ r, c.slot = some r →
    ∃ i e, p.arena.resolve? r = some i ∧ p.arena.get? i = some e ∧ e.conn = c.conn

variable {p : AddressPool Nat} {claims : List (Claim Nat)} {i : Nat} {e : Entry Nat}

-- Who resolves to an entry has the reference that was made for it.
theorem bind_resolve?_iff {a : Arena Nat} {n : Nat} {c : Claim Nat} (h : a.cell? i = some (n, e)) :
    c.slot.bind a.resolve? = some i ↔ c.On ⟨i, n⟩ := by
  rw [Option.bind_eq_some_iff]
  constructor
  case mp =>
    rintro ⟨r, hr, hi⟩
    have ⟨rfl, x, hx⟩ := Arena.resolve?_eq_some_iff.mp hi
    rw [h] at hx
    simp only [Option.some.injEq, Prod.mk.injEq] at hx
    rw [Claim.On, hr, hx.1]
  case mpr => exact fun hc => ⟨_, hc, Arena.resolve?_eq_some_iff.mpr ⟨rfl, e, h⟩⟩

theorem Sound.conserves (s : p.Sound claims) : p.Conserves p.limits claims where
  limits_eq := rfl
  streams i e he := by
    have ⟨n, hc⟩ := Arena.cell?_of_get? he
    calc
      e.streams
      _ = load claims ⟨i, n⟩ := s.streams i n e.bare hc
      _ = _ := List.countP_congr fun c _ => by simp [bind_resolve?_iff hc]
  capped i e he := by
    have ⟨n, hc⟩ := Arena.cell?_of_get? he
    exact s.capped i n e.bare hc
  saturated i hi := by
    have ⟨n, e, hc, hl⟩ := s.threaded.mem_indices.mp hi
    have ⟨x, hx, he⟩ := Arena.get?_of_cell? hc
    subst he
    exact ⟨x, hx, s.saturated i n x.bare hc hl⟩
  idle := by
    rw [s.idle, Arena.idlers, ← Arena.map_bare_tracked, List.countP_map]
    rfl
  idle_le := s.idle_le
  size := by rw [← s.threaded.length_entries, ← Arena.map_bare_tracked, List.length_map]
  size_le := s.threaded.length_entries ▸ s.within
  resolves c hc r hr := by
    obtain ⟨e, he, hconn, _⟩ := s.resolves c hc r hr
    obtain ⟨x, hx, hxe⟩ := Arena.get?_of_cell? he
    subst hxe
    exact ⟨r.index, x, Arena.resolve?_eq_some_iff.mpr ⟨rfl, _, he⟩, hx, hconn⟩

end AddressPool

theorem System.streams_conserved (capacity ttl maxIdle maxStreams : Nat) (events : List Event)
    {n : Nat} {p : AddressPool Nat}
    (hp : ((new (.of capacity ttl maxIdle maxStreams)).run events).manager.pool? n = some p) :
    p.Conserves (.of capacity ttl maxIdle maxStreams)
      (((new (.of capacity ttl maxIdle maxStreams)).run events).claimsOn n) := by
  have ⟨hl, hs⟩ := (sound_run capacity ttl maxIdle maxStreams events).pools n p hp
  exact hl ▸ hs.conserves

-- Two acquires share a connection of a pool that is forgotten before one of them ends.
theorem System.streams_conserved_after_eviction :
    let s := (new (.of 2 60 1 2)).run [.acquire "a", .acquire "a", .evict "a", .release 0 false]
    ∃ p, s.manager.pool? 0 = some p ∧ p.Conserves (.of 2 60 1 2) (s.claimsOn 0) :=
  ⟨_, rfl, streams_conserved 2 60 1 2 _ rfl⟩

end CallFabric.Pool
