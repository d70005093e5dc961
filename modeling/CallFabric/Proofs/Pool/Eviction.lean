import CallFabric.Proofs.Pool.Whereabouts

open scoped List

namespace CallFabric.Pool

variable {α : Type} {limits : Limits} {a : Arena α} {i n : Nat} {e : Entry α} {c : Claim α}
  {claims : List (Claim α)}

namespace AddressPool

variable {p : AddressPool α}

theorem closeIdle_perm (s : p.Sound claims) :
    p.closeIdle.1 ~ (p.arena.tracked.filter (·.streams = 0)).map (·.conn) := by
  have ⟨gone, hg, hp, hz, hb⟩ := closeIdle_spec s.threaded
  have hf := hp.filter (·.streams = 0)
  have hgone : gone.filter (·.streams = 0) = gone :=
    List.filter_eq_self.mpr fun e he => by simpa using hz e he
  have hbusy : p.closeIdle.2.arena.entries.filter (·.streams = 0) = [] :=
    List.filter_eq_nil_iff.mpr fun e he => by simpa using hb e he
  rw [List.filter_append, hgone, hbusy, List.append_nil, ← Arena.map_bare_tracked,
    List.filter_map] at hf
  have hm := hf.symm.map (·.conn)
  rw [List.map_map] at hm
  rw [hg]
  exact hm

-- The last stream of an entry.
theorem giveBack_closes_iff (limits : Limits) (now : Nat) (failed : Bool)
    (he : a.cell? i = some (n, e)) (hone : e.streams = 1) :
    (giveBack limits now failed a i).1 = true ↔
      failed = true ∨ limits.maxIdle ≤ a.idle ∨ isExpired limits now e.created = true := by
  have ⟨x, hx, hxe⟩ := Arena.get?_of_cell? he
  subst hxe
  have hone : x.streams = 1 := hone
  change _ ↔ failed = true ∨ limits.maxIdle ≤ a.idle ∨ isExpired limits now x.created = true
  have hidle : (freeStream limits a i x).idle = a.idle := idle_freeStream
  simp only [giveBack, hx, hone, hidle, Nat.sub_self, Nat.lt_irrefl, ↓reduceIte]
  split
  case isTrue h => simpa using h
  case isFalse h => simpa using h

-- The last claim on a connection.
theorem release_closes_iff (now : Nat) (failed : Bool) (s : p.Sound (c :: claims))
    (hlast : ∀ c' ∈ claims, c'.conn ≠ c.conn) :
    (p.release c now failed).1 = true ↔ failed = true ∨ p.limits.maxIdle ≤ p.arena.idle ∨
      isExpired p.limits now c.created = true ∨
        c.slot = none ∧ p.limits.capacity ≤ p.arena.size := by
  cases hslot : c.slot
  case some r =>
    have ⟨e, he, hconn, hcreated⟩ := s.resolves c (.head _) r hslot
    have hi := Arena.resolve?_eq_some_iff.mpr ⟨rfl, e, he⟩
    have hload : load claims ⟨r.index, r.generation⟩ = 0 := by
      refine List.countP_eq_zero.mpr fun c' hc' => ?_
      rw [decide_eq_true_eq]
      intro hr
      have ⟨e', he', hconn', _⟩ := s.resolves c' (.tail _ hc') r hr
      rw [he] at he'
      cases he'
      exact hlast c' hc' (hconn'.symm.trans hconn)
    have hone : e.streams = 1 := by
      have hs := s.streams r.index r.generation e he
      have hon : c.On ⟨r.index, r.generation⟩ := hslot
      rw [load_cons, if_pos hon] at hs
      omega
    have hg := giveBack_closes_iff p.limits now failed he hone
    simpa [release, hslot, hi, hcreated] using hg
  case none =>
    simp only [release, hslot, Option.bind_none, true_and]
    split
    case isTrue hfull => simp [hfull]
    case isFalse hroom =>
      obtain ⟨_, t⟩ := s.threaded
      have hself := t.cell?_insert_self
        (e := ⟨c.conn, c.id, c.created, 1, .available, none, none⟩)
      have hg := giveBack_closes_iff p.limits now failed hself rfl
      have hidle : (track p.arena c.conn c.id c.created).2.idle = p.arena.idle := Arena.idle_insert
      refine hg.trans ?_
      change failed = true ∨ p.limits.maxIdle ≤ (track p.arena c.conn c.id c.created).2.idle ∨
        isExpired p.limits now c.created = true ↔ _
      simp [hidle, hroom]

end AddressPool

namespace System

variable {s t : System} {k : Nat} {gone : List Nat}

-- Nobody holds the connection.
def Free (s : System) (conn : Nat) : Prop := ∀ h, .held h ∈ s.acquisitions → h.claim.conn ≠ conn

theorem mem_closings_release_iff {h : Handle Nat} {p : AddressPool Nat} (failed : Bool)
    (hs : s.Sound limits) (ha : s.Accounts gone) (hk : s.acquisitions[k]? = some (.held h))
    (hp : s.manager.pool? h.pool = some p) (hfree : (s.release k failed).2.Free h.claim.conn) :
    h.claim.conn ∈ (s.release k failed).2.closings ↔ failed = true ∨
      p.limits.maxIdle ≤ p.arena.idle ∨
        AddressPool.isExpired p.limits s.now h.claim.created = true ∨
          h.claim.slot = none ∧ p.limits.capacity ≤ p.arena.size := by
  have ⟨ht, hacq⟩ := turn_release failed hk hp
  have ⟨_, hps⟩ := hs.pools h.pool p hp
  have hlast : ∀ c ∈ (s.release k failed).2.claimsOn h.pool, c.conn ≠ h.claim.conn := by
    intro c hc
    have ⟨a, ha, hac⟩ := List.mem_filterMap.mp hc
    cases a <;> simp only [Acquisition.claimOn?, Option.ite_none_right_eq_some, Option.some.injEq,
      reduceCtorEq] at hac
    case held g => exact hac.2 ▸ hfree g ha
  rw [← AddressPool.release_closes_iff s.now failed (hps.perm (claimsOn_over hk hacq)) hlast,
    ht.closed, List.mem_append]
  have hopen := ha.not_closed hs (List.mem_of_getElem? hk)
  simp [hopen]

structure Extends (s t : System) : Prop where
  closings : s.closings ⊆ t.closings
  held     : ∀ h, .held h ∈ s.acquisitions → .held h ∈ t.acquisitions

theorem Extends.of_eq (hc : t.closings = s.closings) (ha : t.acquisitions = s.acquisitions) :
    s.Extends t :=
  ⟨hc ▸ .refl _, fun _ hh => ha ▸ hh⟩

theorem Extends.trans {u : System} (h₁ : s.Extends t) (h₂ : t.Extends u) : s.Extends u :=
  ⟨List.Subset.trans h₁.closings h₂.closings, fun h hh => h₂.held h (h₁.held h hh)⟩

theorem mem_set_of_ne {β : Type} {l : List β} {x y z : β} (hk : l[k]? = some y) (hx : x ∈ l)
    (hne : x ≠ y) : x ∈ l.set k z := by
  have ⟨j, hj⟩ := List.mem_iff_getElem?.mp hx
  have hkj : k ≠ j := by
    rintro rfl
    rw [hk] at hj
    exact hne (Option.some.inj hj).symm
  exact List.mem_of_getElem? ((List.getElem?_set_ne hkj).trans hj)

theorem extends_claim : s.Extends (s.claim n).2 := by
  cases hp : s.manager.pool? n
  case none =>
    rw [claim_eq_self hp]
    exact .of_eq rfl rfl
  case some p =>
    have ⟨ht, ha⟩ := turn_claim hp
    exact ⟨ht.closed ▸ List.subset_append_left _ _, fun h hh => ha ▸ List.mem_append_left _ hh⟩

theorem extends_dial : s.Extends (s.dial k).2 := by
  obtain h | ⟨n, hk, _, hc, ⟨_, ha⟩ | ⟨_, ha⟩⟩ := s.dial_cases (k := k)
  case inl =>
    rw [h]
    exact .of_eq rfl rfl
  all_goals exact ⟨hc ▸ .refl _, fun h hh => ha ▸ mem_set_of_ne hk hh nofun⟩

theorem extends_takeIn : s.Extends (s.takeIn k).2 := by
  obtain h | ⟨n, p, conn, hk, ht, ha⟩ := s.turn_takeIn (k := k)
  case inl =>
    rw [h]
    exact .of_eq rfl rfl
  case inr =>
    exact ⟨ht.closed ▸ List.subset_append_left _ _, fun h hh => ha ▸ mem_set_of_ne hk hh nofun⟩

theorem extends_abandon : s.Extends (s.abandon k).2 := by
  obtain h | ⟨n, hk, h⟩ := s.abandon_cases (k := k)
  case inl =>
    rw [h]
    exact .of_eq rfl rfl
  case inr =>
    rw [h]
    exact ⟨.refl _, fun h hh => mem_set_of_ne hk hh nofun⟩

theorem extends_closeIdle : s.Extends (s.closeIdle n) := by
  cases hp : s.manager.pool? n
  case none =>
    rw [closeIdle_eq_self hp]
    exact .of_eq rfl rfl
  case some p =>
    have ⟨ht, ha⟩ := turn_closeIdle hp
    exact ⟨ht.closed ▸ List.subset_append_left _ _, fun h hh => ha ▸ hh⟩

theorem extends_step (s : System) (e : Event) :
    s.Extends (s.step e).2 ∨ ∃ k failed, (s.step e).2 = (s.release k failed).2 := by
  cases e
  case acquire address =>
    refine .inl ?_
    change s.Extends (s.acquire address).2
    rw [acquire_eq]
    exact .trans (t := (s.lookup address).2) (.of_eq rfl rfl)
      (extends_claim.trans (extends_dial.trans extends_takeIn))
  case release k failed => exact .inr ⟨k, failed, rfl⟩
  case drop k => exact .inr ⟨k, true, rfl⟩
  case setHealth => exact .inl (.of_eq rfl rfl)
  case advance => exact .inl (.of_eq rfl rfl)
  case setDialFailure => exact .inl (.of_eq rfl rfl)
  case evict address =>
    refine .inl ?_
    change s.Extends (s.evict address).2
    obtain h | ⟨n, _, h⟩ := s.evict_cases address
    case inl =>
      rw [h]
      exact .of_eq rfl rfl
    case inr =>
      rw [h]
      have hc : (s.forget address).Extends ((s.forget address).closeIdle n) := extends_closeIdle
      exact ⟨hc.closings, hc.held⟩
  case lookup => exact .inl (.of_eq rfl rfl)
  case claim => exact .inl extends_claim
  case dial => exact .inl extends_dial
  case takeIn => exact .inl extends_takeIn
  case abandon => exact .inl extends_abandon
  case forget => exact .inl (.of_eq rfl rfl)
  case closeIdle => exact .inl extends_closeIdle

-- Where no idle connection is kept, and where none is tracked, a connection is closed with its last
-- handle.
theorem closed_or_held_step {conn : Nat} (hs : s.Sound limits) (ha : s.Accounts gone)
    (hlim : limits.capacity = 0 ∨ limits.maxIdle = 0) (e : Event)
    (h : ¬s.Free conn ∨ conn ∈ s.closings) :
    ¬(s.step e).2.Free conn ∨ conn ∈ (s.step e).2.closings := by
  simp only [Free, not_forall, not_not] at h
  obtain hx | ⟨k, failed, he⟩ := s.extends_step e
  case inl =>
    refine h.imp (fun h hf => ?_) (hx.closings ·)
    have ⟨g, hg, hconn⟩ := h
    exact hf g (hx.held g hg) hconn
  case inr =>
    rw [he]
    by_cases hh : ∃ g, s.acquisitions[k]? = some (.held g)
    case neg =>
      rw [release_eq_self fun g hk => hh ⟨g, hk⟩]
      exact h.imp_left fun ⟨g, hg, hconn⟩ hf => hf g hg hconn
    case pos =>
      have ⟨g, hk⟩ := hh
      have ⟨p, hp⟩ := hs.pool_of_held hk
      have ⟨ht, hacq⟩ := turn_release failed hk hp
      cases h
      case inr h => exact .inr (ht.closed ▸ List.mem_append_left _ h)
      case inl h =>
        refine Classical.or_iff_not_imp_left.mpr fun hf => ?_
        have hf := not_not.mp hf
        have ⟨g', hg', hconn⟩ := h
        -- The handle that is given back is the one there was.
        have hgg : g' = g := by
          by_contra hne
          have hm : .held g' ∈ (s.release k failed).2.acquisitions :=
            hacq ▸ mem_set_of_ne hk hg' fun hgg => hne (Acquisition.held.inj hgg)
          exact hf g' hm hconn
        subst hgg
        subst hconn
        refine (mem_closings_release_iff failed hs ha hk hp hf).mpr ?_
        have ⟨hl, hps⟩ := hs.pools g'.pool p hp
        cases hlim
        case inr hi => exact .inr (.inl (by rw [hl, hi]; exact Nat.zero_le _))
        case inl hc =>
          have hz : p.arena.entries = [] := by
            have hw := hps.within
            rw [hl, hc] at hw
            exact List.length_eq_zero_iff.mp (Nat.le_zero.mp hw)
          refine .inr (.inr (.inr ⟨?_, by rw [hl, hc]; exact Nat.zero_le _⟩))
          by_contra hslot
          have ⟨r, hr⟩ := Option.ne_none_iff_exists'.mp hslot
          have ⟨e, he, _⟩ := hps.resolves _ (mem_claimsOn hg') r hr
          have hmem := Arena.mem_entries.mpr ⟨_, _, he⟩
          simp [hz] at hmem

theorem closed_or_held_run {conn : Nat} (hs : s.Sound limits) (ha : s.Accounts gone)
    (hlim : limits.capacity = 0 ∨ limits.maxIdle = 0) (events : List Event)
    (h : ¬s.Free conn ∨ conn ∈ s.closings) :
    ¬(s.run events).Free conn ∨ conn ∈ (s.run events).closings := by
  induction events generalizing s gone
  case nil => exact h
  case cons e events hi =>
    have ⟨more, hm, _⟩ := ha.step hs e
    exact hi (hs.step e) hm (closed_or_held_step hs ha hlim e h)

theorem accounts_run (capacity ttl maxIdle maxStreams : Nat) (events : List Event) :
    ∃ gone, ((new (.of capacity ttl maxIdle maxStreams)).run events).Accounts gone := by
  have hnew : (new (.of capacity ttl maxIdle maxStreams)).Accounts [] := fun _ => rfl
  have ⟨gone, ha, _⟩ := hnew.run (Sound.new (Nat.le_max_right _ _)) events
  exact ⟨gone, ha⟩

-- An eviction closes at once what is idle, and what is held when nobody holds it any more.
def RetiresEvicted (s₀ : System) : Prop :=
  ∀ before address n p, (s₀.run before).manager.current.get? address = some n →
    (s₀.run before).manager.pool? n = some p →
    let s := ((s₀.run before).step (.evict address)).2
    (∀ e ∈ p.arena.tracked, e.streams = 0 → e.conn ∈ s.closings) ∧
    ∀ h, .held h ∈ s.acquisitions → h.pool = n → ∀ after,
      (s.run after).Free h.claim.conn → h.claim.conn ∈ (s.run after).closings

theorem closings_evict {address : String} (hs : s.Sound limits)
    (hn : s.manager.current.get? address = some n) : ∃ p, s.manager.pool? n = some p ∧
      ∃ closed, (s.evict address).2.closings = s.closings ++ closed ∧
        closed ~ (p.arena.tracked.filter (·.streams = 0)).map (·.conn) := by
  have ⟨p, hp⟩ := hs.current (address, n) (Table.mem_of_get? hn)
  have ⟨_, hps⟩ := hs.pools n p hp
  have ⟨ht, _⟩ := turn_closeIdle (s := s.forget address) hp
  refine ⟨p, hp, p.closeIdle.1, ?_, AddressPool.closeIdle_perm hps⟩
  rw [evict, hn]
  exact ht.closed

-- A connection whose last handle is given back in good order.
theorem idle_after_eviction (capacity ttl maxIdle maxStreams : Nat) :
    ¬(new (.of (capacity + 1) ttl (maxIdle + 1) maxStreams)).RetiresEvicted := by
  intro h
  have hs := sound_run (capacity + 1) ttl (maxIdle + 1) maxStreams [.acquire "a", .evict "a"]
  have ⟨_, ha⟩ := accounts_run (capacity + 1) ttl (maxIdle + 1) maxStreams
    [.acquire "a", .evict "a"]
  have ⟨_, hr⟩ := h [.acquire "a"] "a" 0 _ rfl rfl
  have hfree : (((new (.of (capacity + 1) ttl (maxIdle + 1) maxStreams)).run
      [.acquire "a", .evict "a"]).release 0 false).2.Free 0 := by
    intro g hg
    have ⟨_, hacq⟩ := turn_release (s := (new (.of (capacity + 1) ttl (maxIdle + 1) maxStreams)).run
      [.acquire "a", .evict "a"]) (k := 0) false rfl rfl
    rw [hacq] at hg
    have hg : .held g ∈ [Acquisition.over] := hg
    simp at hg
  have hc := hr _ (.head _) rfl [.release 0 false] hfree
  have hx := (mem_closings_release_iff false hs ha rfl rfl hfree).mp hc
  obtain hx | hx | hx | hx := hx
  · exact Bool.false_ne_true hx
  · exact Nat.not_succ_le_zero _ hx
  · exact Nat.not_lt_zero _ (of_decide_eq_true hx)
  · exact absurd hx.1 nofun

theorem retires_evicted_iff (capacity ttl maxIdle maxStreams : Nat) :
    ((new (.of capacity ttl maxIdle maxStreams)).RetiresEvicted ↔ capacity = 0 ∨ maxIdle = 0) ∧
    (∀ events address n,
      let s := (new (.of capacity ttl maxIdle maxStreams)).run events
      s.manager.current.get? address = some n →
        (s.step (.evict address)).1 = .done true ∧ ∃ p, s.manager.pool? n = some p ∧
          ∃ closed, (s.step (.evict address)).2.closings = s.closings ++ closed ∧
            closed ~ (p.arena.tracked.filter (·.streams = 0)).map (·.conn)) ∧
    ∀ events k h failed,
      let s := (new (.of capacity ttl maxIdle maxStreams)).run events
      s.acquisitions[k]? = some (.held h) →
        (s.step (.release k failed)).2.Free h.claim.conn →
          h.claim.conn ∉ s.closings ∧ ∃ p, s.manager.pool? h.pool = some p ∧
            (h.claim.conn ∈ (s.step (.release k failed)).2.closings ↔
              failed = true ∨ maxIdle ≤ p.arena.idle ∨ ttl < s.now - h.claim.created ∨
                h.claim.slot = none ∧ capacity ≤ p.arena.size) := by
  have hsound := sound_run capacity ttl maxIdle maxStreams
  have haccounts := accounts_run capacity ttl maxIdle maxStreams
  refine ⟨⟨fun h => ?_, fun hlim before address n p hn hp => ?_⟩, fun events address n hn => ?_,
    fun events k h failed hk hfree => ?_⟩
  case refine_1 =>
    by_contra hne
    simp only [not_or] at hne
    have ⟨c, hc⟩ := Nat.exists_eq_succ_of_ne_zero hne.1
    have ⟨m, hm⟩ := Nat.exists_eq_succ_of_ne_zero hne.2
    subst hc hm
    exact idle_after_eviction c ttl m maxStreams h
  case refine_2 =>
    have ⟨q, hq, closed, hclosed, hperm⟩ := closings_evict (hsound before) hn
    rw [hp] at hq
    cases hq
    refine ⟨fun e he hz => ?_, fun h hh _ after hfree => ?_⟩
    case refine_1 =>
      have hm : e.conn ∈ closed :=
        hperm.mem_iff.mpr (List.mem_map_of_mem (List.mem_filter.mpr ⟨he, by simpa using hz⟩))
      exact hclosed ▸ List.mem_append_right _ hm
    case refine_2 =>
      have hs := hsound (before ++ [.evict address])
      have ⟨_, ha⟩ := haccounts (before ++ [.evict address])
      rw [run_append] at hs ha
      have hr := closed_or_held_run hs ha hlim after (.inl fun hf => hf h hh rfl)
      exact hr.resolve_left (not_not.mpr hfree)
  case refine_3 =>
    refine ⟨?_, closings_evict (hsound events) hn⟩
    change (evict _ address).1 = _
    rw [evict, hn]
  case refine_4 =>
    have hs := hsound events
    have ⟨_, ha⟩ := haccounts events
    have ⟨p, hp⟩ := hs.pool_of_held hk
    have ⟨hl, _⟩ := hs.pools h.pool p hp
    refine ⟨ha.not_closed hs (List.mem_of_getElem? hk), p, hp, ?_⟩
    have hiff := mem_closings_release_iff failed hs ha hk hp hfree
    rwa [hl, AddressPool.isExpired, decide_eq_true_eq] at hiff

-- A call that fails after its pool was evicted takes its connection with it.
theorem closed_after_eviction :
    let s := (new (.of 1 60 1 1)).run [.acquire "a"]
    let t := s.run [.evict "a"]
    s.manager.current.get? "a" = some 0 ∧ (s.step (.evict "a")).1 = .done true ∧
      ∃ h, t.acquisitions[0]? = some (.held h) ∧ (t.step (.release 0 true)).2.Free h.claim.conn ∧
        h.claim.conn ∈ (t.step (.release 0 true)).2.closings := by
  have ⟨hdone, _⟩ := (retires_evicted_iff 1 60 1 1).2.1 [.acquire "a"] "a" 0 rfl
  have hfree : ((((new (.of 1 60 1 1)).run [.acquire "a"]).run [.evict "a"]).step
      (.release 0 true)).2.Free 0 := by
    intro g hg
    have hg : .held g ∈ [Acquisition.over] := hg
    simp at hg
  have ⟨_, _, _, hiff⟩ :=
    (retires_evicted_iff 1 60 1 1).2.2 [.acquire "a", .evict "a"] 0 _ true rfl hfree
  exact ⟨rfl, hdone, _, rfl, hfree, hiff.mpr (.inl rfl)⟩

-- The same connection, where the call does not fail.
theorem open_after_eviction :
    let s := (new (.of 4 60000000000 2 3)).run [.acquire "a"]
    let t := s.run [.evict "a", .release 0 false]
    (s.step (.evict "a")).1 = .done true ∧ s.health.length = 1 ∧ t.Free 0 ∧ t.closings = [] ∧
      ¬(new (.of 4 60000000000 2 3)).RetiresEvicted := by
  refine ⟨rfl, rfl, fun g hg => ?_, rfl, idle_after_eviction 3 60000000000 1 3⟩
  have hg : .held g ∈ [Acquisition.over] := hg
  simp at hg

end System
end CallFabric.Pool
