import CallFabric.Pool.System
import CallFabric.Proofs.Pool.Cells

namespace CallFabric.Pool

-- Whether an acquire came to its end: it has got a connection, or it is over.
def Acquisition.isSettled : Acquisition → Bool
  | .held _ | .over          => true
  | .dialing _ | .dialed _ _ => false

namespace System

variable {s t : System} {n k : Nat} {p p' : AddressPool Nat} {closed : List Nat}

-- Whatever else an operation does to clock, health and metrics, it is one pool's turn.
structure Turn (s t : System) (n : Nat) (p p' : AddressPool Nat) (closed : List Nat) : Prop where
  pool    : s.manager.pool? n = some p
  pools   : t.manager.pools = s.manager.pools.set n p'
  limits  : t.manager.limits = s.manager.limits
  current : t.manager.current = s.manager.current
  closed  : t.closings = s.closings ++ closed
  dialed  : t.health.length = s.health.length

theorem length_close {conns : List Nat} : (s.close conns).health.length = s.health.length := by
  change (conns.foldl _ s.health).length = _
  generalize s.health = health
  induction conns generalizing health
  case nil => rfl
  case cons c conns hi => exact (hi _).trans List.length_set

theorem lookup_eq_self {address : String} (h : s.manager.current.get? address = some n) :
    s.lookup address = (n, s) := by
  simp [lookup, Manager.poolOf, h]

theorem lookup_eq_new {address : String} (h : s.manager.current.get? address = none) :
    s.lookup address = (s.manager.pools.length, { s with manager := { s.manager with
      pools   := s.manager.pools ++ [.new address s.manager.limits]
      current := s.manager.current.insert address s.manager.pools.length } }) := by
  simp [lookup, Manager.poolOf, h]

theorem limits_lookup {address : String} :
    (s.lookup address).2.manager.limits = s.manager.limits := by
  cases hn : s.manager.current.get? address
  case some => rw [lookup_eq_self hn]
  case none => rw [lookup_eq_new hn]

-- A pool that is found by its number was there, or was made for the address.
theorem pool?_lookup_cases {address : String} {q : AddressPool Nat}
    (h : (s.lookup address).2.manager.pool? n = some q) : s.manager.pool? n = some q ∨
      s.manager.pool? n = none ∧ q = .new address s.manager.limits := by
  cases hn : s.manager.current.get? address
  case some =>
    rw [lookup_eq_self hn] at h
    exact .inl h
  case none =>
    rw [lookup_eq_new hn, Manager.pool?, List.getElem?_append] at h
    split at h
    case isTrue => exact .inl h
    case isFalse hl =>
      rw [List.getElem?_singleton] at h
      split at h <;> simp at h
      exact .inr ⟨List.getElem?_eq_none (Nat.le_of_not_lt hl), h.symm⟩

theorem Turn.pool?_cases {m : Nat} {q : AddressPool Nat} (ht : Turn s t n p p' closed)
    (h : t.manager.pool? m = some q) : n = m ∧ q = p' ∨ n ≠ m ∧ s.manager.pool? m = some q := by
  rw [Manager.pool?, ht.pools, List.getElem?_set] at h
  split at h
  case isTrue hm =>
    simp only [Option.ite_none_right_eq_some, Option.some.injEq] at h
    exact .inl ⟨hm, h.2.symm⟩
  case isFalse hm => exact .inr ⟨hm, h⟩

-- An address stands for a pool that was made.
def Located (s : System) : Prop := ∀ a ∈ s.manager.current, ∃ p, s.manager.pool? a.2 = some p

theorem Located.turn (h : s.Located) (ht : Turn s t n p p' closed) : t.Located := by
  intro a ha
  obtain ⟨q, hq⟩ := h a (ht.current ▸ ha)
  have hlt := (List.getElem?_eq_some_iff.mp hq).1
  rw [← List.length_set (i := n) (a := p'), ← ht.pools] at hlt
  exact ⟨_, List.getElem?_eq_getElem hlt⟩

theorem Located.lookup (h : s.Located) (address : String) : (s.lookup address).2.Located := by
  cases hn : s.manager.current.get? address
  case some n => rwa [lookup_eq_self hn]
  case none =>
    intro a ha
    rw [lookup_eq_new hn] at ha ⊢
    rw [Manager.pool?]
    cases Table.eq_or_mem_of_mem_insert ha
    case inl ha => exact ⟨.new address s.manager.limits, by simp [ha]⟩
    case inr ha =>
      obtain ⟨q, hq⟩ := h a ha
      exact ⟨q, (List.getElem?_append_left (List.getElem?_eq_some_iff.mp hq).1).trans hq⟩

theorem Located.pool_lookup (h : s.Located) (address : String) :
    ∃ p, (s.lookup address).2.manager.pool? (s.lookup address).1 = some p := by
  cases hn : s.manager.current.get? address
  case some n =>
    rw [lookup_eq_self hn]
    exact h (address, n) (Table.mem_of_get? hn)
  case none =>
    rw [lookup_eq_new hn]
    exact ⟨.new address s.manager.limits, by simp [Manager.pool?]⟩

theorem claim_eq_self (h : s.manager.pool? n = none) : s.claim n = (.done false, s) := by
  simp [claim, Manager.claim, h]

theorem turn_claim (h : s.manager.pool? n = some p) :
    Turn s (s.claim n).2 n p (p.tryClaim s.view).2.2 (p.tryClaim s.view).2.1 ∧
      (s.claim n).2.acquisitions =
        s.acquisitions ++
          [((p.tryClaim s.view).1.map fun c => .held ⟨n, c⟩).getD (.dialing n)] := by
  simp only [claim, Manager.claim, h, Option.map_some]
  obtain ⟨c, retired, p'⟩ := p.tryClaim s.view
  cases c
  case none => exact ⟨⟨h, rfl, rfl, rfl, rfl, length_close⟩, rfl⟩
  case some c => exact ⟨⟨h, rfl, rfl, rfl, rfl, length_close⟩, rfl⟩

theorem dial_cases : (s.dial k).2 = s ∨ ∃ n, s.acquisitions[k]? = some (.dialing n) ∧
    (s.dial k).2.manager = s.manager ∧ (s.dial k).2.closings = s.closings ∧
      ((s.dial k).2.health = s.health ∧ (s.dial k).2.acquisitions = s.acquisitions.set k .over ∨
        (s.dial k).2.health = s.health ++ [.ready] ∧
          (s.dial k).2.acquisitions = s.acquisitions.set k (.dialed n s.health.length)) := by
  unfold dial
  split
  case h_1 n h =>
    refine .inr ⟨n, h, ?_⟩
    split
    · exact ⟨rfl, rfl, .inl ⟨rfl, rfl⟩⟩
    · exact ⟨rfl, rfl, .inr ⟨rfl, rfl⟩⟩
  case h_2 => exact .inl rfl

theorem turn_takeIn : (s.takeIn k).2 = s ∨ ∃ n p conn, s.acquisitions[k]? = some (.dialed n conn) ∧
    Turn s (s.takeIn k).2 n p (p.takeIn conn s.manager.nextId s.now).2 [] ∧
      (s.takeIn k).2.acquisitions =
        s.acquisitions.set k (.held ⟨n, (p.takeIn conn s.manager.nextId s.now).1⟩) := by
  unfold takeIn
  split
  case h_1 n conn hk =>
    cases hp : s.manager.pool? n
    case none => simp [Manager.takeIn, hp]
    case some p =>
      refine .inr ⟨n, p, conn, hk, ?_⟩
      simp only [Manager.takeIn, hp, Option.map_some]
      exact ⟨⟨hp, rfl, rfl, rfl, (List.append_nil _).symm, rfl⟩, rfl⟩
  case h_2 => exact .inl rfl

theorem length_takeIn : (s.takeIn k).2.health.length = s.health.length := by
  obtain h | ⟨_, _, _, _, ht, _⟩ := s.turn_takeIn (k := k)
  case inl => rw [h]
  case inr => exact ht.dialed

theorem abandon_cases : (s.abandon k).2 = s ∨ ∃ n, s.acquisitions[k]? = some (.dialing n) ∧
    (s.abandon k).2 = s.proceed k .over := by
  unfold abandon
  split
  case h_1 n h => exact .inr ⟨n, h, rfl⟩
  case h_2 => exact .inl rfl

theorem turn_release {h : Handle Nat} (failed : Bool) (hk : s.acquisitions[k]? = some (.held h))
    (hp : s.manager.pool? h.pool = some p) :
    Turn s (s.release k failed).2 h.pool p (p.release h.claim s.now failed).2
        (if (p.release h.claim s.now failed).1 then [h.claim.conn] else []) ∧
      (s.release k failed).2.acquisitions = s.acquisitions.set k .over := by
  simp only [release, hk, Manager.release, hp]
  obtain ⟨close, p'⟩ := p.release h.claim s.now failed
  cases close
  case false => exact ⟨⟨hp, rfl, rfl, rfl, (List.append_nil _).symm, rfl⟩, rfl⟩
  case true => exact ⟨⟨hp, rfl, rfl, rfl, rfl, length_close⟩, rfl⟩

theorem release_eq_self {failed : Bool} (hk : ∀ h, s.acquisitions[k]? ≠ some (.held h)) :
    (s.release k failed).2 = s := by
  unfold release
  split
  case h_1 h he => exact absurd he (hk h)
  case h_2 => rfl

theorem turn_closeIdle (hp : s.manager.pool? n = some p) :
    Turn s (s.closeIdle n) n p p.closeIdle.2 p.closeIdle.1 ∧
      (s.closeIdle n).acquisitions = s.acquisitions := by
  simp only [closeIdle, Manager.closeIdle, hp]
  exact ⟨⟨hp, rfl, rfl, rfl, rfl, length_close⟩, rfl⟩

theorem closeIdle_eq_self (hp : s.manager.pool? n = none) : s.closeIdle n = s := by
  simp [closeIdle, Manager.closeIdle, hp, close]

theorem dial_eq_self (h : ∀ n, s.acquisitions[k]? ≠ some (.dialing n)) :
    s.dial k = (.done false, s) := by
  unfold dial
  split
  case h_1 n hn => exact absurd hn (h n)
  case h_2 => rfl

theorem takeIn_eq_self (h : ∀ n conn, s.acquisitions[k]? ≠ some (.dialed n conn)) :
    s.takeIn k = (.done false, s) := by
  unfold takeIn
  split
  case h_1 n conn hn => exact absurd hn (h n conn)
  case h_2 => rfl

-- After a failed dial there is nothing to be taken in.
theorem dial_takeIn : (match s.dial k with
    | (.done _, s) => s.takeIn k
    | failed => failed).2 = ((s.dial k).2.takeIn k).2 := by
  by_cases h : ∃ n, s.acquisitions[k]? = some (.dialing n)
  case pos =>
    have ⟨n, hk⟩ := h
    cases hf : s.dialFailure
    case none => simp only [dial, hk, hf]
    case some reason =>
      simp only [dial, hk, hf]
      refine (congrArg Prod.snd (takeIn_eq_self fun n conn => ?_)).symm
      have ⟨hk, _⟩ := List.getElem?_eq_some_iff.mp hk
      simp [measure, hk]
  case neg =>
    rw [dial_eq_self fun n hk => h ⟨n, hk⟩]

theorem acquire_eq {address : String} : (s.acquire address).2 =
    ((((s.lookup address).2.claim (s.lookup address).1).2.dial s.acquisitions.length).2.takeIn
      s.acquisitions.length).2 := by
  have hl : (s.lookup address).2.acquisitions = s.acquisitions := rfl
  simp only [acquire]
  generalize s.lookup address = l at hl
  obtain ⟨n, l⟩ := l
  dsimp only at hl ⊢
  rw [← hl]
  unfold claim
  cases l.manager.claim l.view n
  case none => exact dial_takeIn
  case some r =>
    obtain ⟨claimed, retired, manager⟩ := r
    cases claimed
    case none => exact dial_takeIn
    case some h =>
      have hd : ∀ s : System, s.acquisitions = l.acquisitions ++ [.held h] →
          ((s.dial l.acquisitions.length).2.takeIn l.acquisitions.length).2 = s := by
        intro s ha
        rw [dial_eq_self (by simp [ha]), takeIn_eq_self (by simp [ha])]
      exact (hd _ rfl).symm

theorem evict_cases (address : String) : (s.evict address).2 = s ∨
    ∃ n, s.manager.current.get? address = some n ∧
      (s.evict address).2 = ((s.forget address).closeIdle n).measure (.eviction address) := by
  unfold evict
  split
  case h_1 => exact .inl rfl
  case h_2 n h => exact .inr ⟨n, h, rfl⟩

section Settled

variable {a b : Acquisition}

theorem settled_set (hk : s.acquisitions[k]? = some a) (ha : a.isSettled)
    {j : Nat} (hj : s.acquisitions[j]? = some b) (hb : b.isSettled = false) (c : Acquisition) :
    (s.acquisitions.set j c)[k]? = some a := by
  have hne : j ≠ k := by
    rintro rfl
    obtain rfl : a = b := Option.some.inj (hk.symm.trans hj)
    simp [ha] at hb
  rwa [List.getElem?_set_ne hne]

theorem settled_claim (hk : s.acquisitions[k]? = some a) :
    (s.claim n).2.acquisitions[k]? = some a := by
  cases hp : s.manager.pool? n
  case none   => rwa [claim_eq_self hp]
  case some p =>
    rw [(turn_claim hp).2, List.getElem?_append_left (List.getElem?_eq_some_iff.mp hk).1, hk]

theorem settled_dial (hk : s.acquisitions[k]? = some a) (ha : a.isSettled) (j : Nat) :
    (s.dial j).2.acquisitions[k]? = some a := by
  obtain h | ⟨n, hj, _, _, ⟨_, hs⟩ | ⟨_, hs⟩⟩ := s.dial_cases (k := j)
  case inl => rwa [h]
  all_goals exact hs ▸ settled_set hk ha hj rfl _

theorem settled_takeIn (hk : s.acquisitions[k]? = some a) (ha : a.isSettled) (j : Nat) :
    (s.takeIn j).2.acquisitions[k]? = some a := by
  obtain h | ⟨n, p, conn, hj, _, hs⟩ := s.turn_takeIn (k := j)
  case inl => rwa [h]
  case inr => exact hs ▸ settled_set hk ha hj rfl _

theorem settled_abandon (hk : s.acquisitions[k]? = some a) (ha : a.isSettled) (j : Nat) :
    (s.abandon j).2.acquisitions[k]? = some a := by
  obtain h | ⟨n, hj, h⟩ := s.abandon_cases (k := j)
  case inl => rwa [h]
  case inr => exact h ▸ settled_set hk ha hj rfl _

theorem acquisitions_release {h : Handle Nat} (hk : s.acquisitions[k]? = some (.held h))
    (failed : Bool) : (s.release k failed).2.acquisitions = s.acquisitions.set k .over := by
  simp only [release, hk]
  split <;> rfl

theorem settled_release (hk : s.acquisitions[k]? = some a) {j : Nat} (hj : j ≠ k)
    (failed : Bool) : (s.release j failed).2.acquisitions[k]? = some a := by
  rcases Classical.em (∃ h, s.acquisitions[j]? = some (.held h)) with ⟨h, hh⟩ | hh
  · rwa [acquisitions_release hh, List.getElem?_set_ne hj]
  · rwa [release_eq_self fun h hh' => hh ⟨h, hh'⟩]

theorem settled_evict (hk : s.acquisitions[k]? = some a) (address : String) :
    (s.evict address).2.acquisitions[k]? = some a := by
  obtain h | ⟨n, _, h⟩ := s.evict_cases address
  case inl => rwa [h]
  case inr => rwa [h]

theorem settled_step (hk : s.acquisitions[k]? = some a) (ha : a.isSettled) (e : Event)
    (hr : ∀ failed, e ≠ .release k failed) (hd : e ≠ .drop k) :
    (s.step e).2.acquisitions[k]? = some a := by
  cases e
  case acquire address =>
    have hl : (s.lookup address).2.acquisitions[k]? = some a := hk
    have hc := settled_claim (n := (s.lookup address).1) hl
    have ht := settled_takeIn (settled_dial hc ha s.acquisitions.length) ha s.acquisitions.length
    rw [step, acquire_eq]
    exact ht
  case release j failed =>
    exact settled_release hk (fun hj => hr failed (hj ▸ rfl)) failed
  case drop j        => exact settled_release hk (fun hj => hd (hj ▸ rfl)) true
  case evict address => exact settled_evict hk address
  case claim         => exact settled_claim hk
  case dial j        => exact settled_dial hk ha j
  case takeIn j      => exact settled_takeIn hk ha j
  case abandon j     => exact settled_abandon hk ha j
  case setHealth | advance | setDialFailure | lookup | forget | closeIdle => exact hk

end Settled

-- New pools have the property, and nothing that is done to a pool takes it away.
structure Lasting (limits : Limits) (P : AddressPool Nat → Prop) : Prop where
  new       : ∀ address, P (.new address limits)
  tryClaim  : ∀ p view, P p → P (p.tryClaim view).2.2
  takeIn    : ∀ p conn id now, P p → P (p.takeIn conn id now).2
  release   : ∀ p c now failed, P p → P (p.release c now failed).2
  closeIdle : ∀ p, P p → P p.closeIdle.2

-- It has it in every pool that was made, for the limits with which the next is made.
structure Throughout (limits : Limits) (P : AddressPool Nat → Prop) (s : System) : Prop where
  limits_eq : s.manager.limits = limits
  pools     : ∀ n p, s.manager.pool? n = some p → P p
  located   : s.Located

namespace Throughout

variable {limits : Limits} {P : AddressPool Nat → Prop}

theorem new : Throughout limits P (System.new limits) where
  limits_eq := rfl
  pools n p hp := by simp [System.new, Manager.new, Manager.pool?] at hp
  located := by simp [Located, System.new, Manager.new]

theorem congr (h : Throughout limits P s) (hm : t.manager.pools = s.manager.pools)
    (hl : t.manager.limits = s.manager.limits) (hc : t.manager.current ⊆ s.manager.current) :
    Throughout limits P t where
  limits_eq    := hl.trans h.limits_eq
  pools n p hp := h.pools n p (by rwa [Manager.pool?, ← hm])
  located a ha := by
    rw [Manager.pool?, hm]
    exact h.located a (hc ha)

theorem turn (h : Throughout limits P s) (ht : Turn s t n p p' closed) (hp : P p → P p') :
    Throughout limits P t where
  limits_eq := ht.limits.trans h.limits_eq
  located   := h.located.turn ht
  pools m q hq := by
    obtain ⟨-, rfl⟩ | ⟨-, hq⟩ := ht.pool?_cases hq
    case inl => exact hp (h.pools n p ht.pool)
    case inr => exact h.pools m q hq

theorem lookup (hP : Lasting limits P) (h : Throughout limits P s) (address : String) :
    Throughout limits P (s.lookup address).2 where
  limits_eq := limits_lookup.trans h.limits_eq
  located   := h.located.lookup address
  pools m q hq := by
    obtain hq | ⟨-, rfl⟩ := pool?_lookup_cases hq
    case inl => exact h.pools m q hq
    case inr => exact h.limits_eq ▸ hP.new address

theorem claim (hP : Lasting limits P) (h : Throughout limits P s) (n : Nat) :
    Throughout limits P (s.claim n).2 := by
  cases hp : s.manager.pool? n
  case none   => rwa [claim_eq_self hp]
  case some p => exact h.turn (turn_claim hp).1 (hP.tryClaim p s.view)

theorem dial (h : Throughout limits P s) (k : Nat) : Throughout limits P (s.dial k).2 := by
  obtain hs | ⟨_, _, hm, _⟩ := s.dial_cases (k := k)
  case inl => rwa [hs]
  case inr => exact h.congr (by rw [hm]) (by rw [hm]) (by rw [hm]; exact .refl _)

theorem takeIn (hP : Lasting limits P) (h : Throughout limits P s) (k : Nat) :
    Throughout limits P (s.takeIn k).2 := by
  obtain hs | ⟨_, p, conn, _, ht, _⟩ := s.turn_takeIn (k := k)
  case inl => rwa [hs]
  case inr => exact h.turn ht (hP.takeIn p conn s.manager.nextId s.now)

theorem abandon (h : Throughout limits P s) (k : Nat) : Throughout limits P (s.abandon k).2 := by
  obtain hs | ⟨_, _, hs⟩ := s.abandon_cases (k := k)
  case inl => rwa [hs]
  case inr => exact hs ▸ h.congr rfl rfl (.refl _)

theorem release (hP : Lasting limits P) (h : Throughout limits P s) (k : Nat) (failed : Bool) :
    Throughout limits P (s.release k failed).2 := by
  by_cases hh : ∃ h, s.acquisitions[k]? = some (.held h)
  case neg => rwa [release_eq_self fun h hk => hh ⟨h, hk⟩]
  case pos =>
    obtain ⟨held, hk⟩ := hh
    cases hp : s.manager.pool? held.pool
    case none =>
      simp only [System.release, hk, Manager.release, hp]
      exact h.congr rfl rfl (.refl _)
    case some p => exact h.turn (turn_release failed hk hp).1 (hP.release p held.claim s.now failed)

theorem forget (h : Throughout limits P s) (address : String) :
    Throughout limits P (s.forget address) :=
  h.congr rfl rfl (Table.erase_subset _ _)

theorem closeIdle (hP : Lasting limits P) (h : Throughout limits P s) (n : Nat) :
    Throughout limits P (s.closeIdle n) := by
  cases hp : s.manager.pool? n
  case none   => rwa [closeIdle_eq_self hp]
  case some p => exact h.turn (turn_closeIdle hp).1 (hP.closeIdle p)

theorem step (hP : Lasting limits P) (h : Throughout limits P s) (e : Event) :
    Throughout limits P (s.step e).2 := by
  cases e
  case acquire address =>
    rw [System.step, acquire_eq]
    exact (((h.lookup hP address).claim hP _).dial _).takeIn hP _
  case release k failed => exact h.release hP k failed
  case drop k           => exact h.release hP k true
  case evict address =>
    obtain hs | ⟨n, _, hs⟩ := s.evict_cases address
    case inl => rwa [System.step, hs]
    case inr =>
      exact hs ▸ ((h.forget address).closeIdle hP n).congr rfl rfl (.refl _)
  case lookup address => exact h.lookup hP address
  case claim n        => exact h.claim hP n
  case dial k         => exact h.dial k
  case takeIn k       => exact h.takeIn hP k
  case abandon k      => exact h.abandon k
  case forget address => exact h.forget address
  case closeIdle n    => exact h.closeIdle hP n
  case setHealth | advance | setDialFailure => exact h.congr rfl rfl (.refl _)

theorem run (hP : Lasting limits P) (h : Throughout limits P s) (events : List Event) :
    Throughout limits P (s.run events) := by
  induction events generalizing s
  case nil            => exact h
  case cons e events hi => exact hi (h.step hP e)

end Throughout

theorem Lasting.run {limits : Limits} {P : AddressPool Nat → Prop} (hP : Lasting limits P)
    (events : List Event) : Throughout limits P ((System.new limits).run events) :=
  Throughout.new.run hP events

end System
end CallFabric.Pool
