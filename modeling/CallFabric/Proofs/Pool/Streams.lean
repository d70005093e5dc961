import CallFabric.Proofs.Pool.Effects

open scoped List

namespace CallFabric.Pool

variable {α : Type} {limits : Limits} {claims : List (Claim α)} {a b : Arena α} {i n : Nat}
  {e : Entry α} {c : Claim α} {view : View α}

def Claim.On (c : Claim α) (r : SlotRef) : Prop := c.slot = some r

instance (c : Claim α) (r : SlotRef) : Decidable (c.On r) := inferInstanceAs (Decidable (_ = _))

def load (claims : List (Claim α)) (r : SlotRef) : Nat := claims.countP (·.On r)

-- What is said of every entry, and of every claim. An available entry has room unless its first
-- stream is all that it may have. Of idle entries nothing is said here, as they are counted after
-- the fact.
structure Carries (limits : Limits) (claims : List (Claim α)) (a : Arena α) : Prop where
  threaded  : a.IsThreaded
  streams   : ∀ i n e, a.cell? i = some (n, e) → e.streams = load claims ⟨i, n⟩
  capped    : ∀ i n e, a.cell? i = some (n, e) → e.streams ≤ limits.maxStreams
  saturated : ∀ i n e, a.cell? i = some (n, e) → e.lane = .saturated → e.streams = limits.maxStreams
  roomy     : ∀ i n e, a.cell? i = some (n, e) → e.lane = .available →
    e.streams = limits.maxStreams → limits.maxStreams = 1
  within    : a.entries.length ≤ limits.capacity
  resolves  : ∀ c ∈ claims, ∀ r, c.On r → ∃ e, a.cell? r.index = some (r.generation, e) ∧
    e.conn = c.conn ∧ e.created = c.created

def Arena.idlers (a : Arena α) : Nat := a.entries.countP (·.streams = 0)

structure Sound (limits : Limits) (claims : List (Claim α)) (a : Arena α) : Prop
    extends Carries limits claims a where
  idle    : a.idle = a.idlers
  idle_le : a.idle ≤ limits.maxIdle

theorem load_perm {claims' : List (Claim α)} (h : claims ~ claims') (r : SlotRef) :
    load claims r = load claims' r :=
  h.countP_eq _

theorem load_cons (r : SlotRef) :
    load (c :: claims) r = load claims r + if c.On r then 1 else 0 := by
  simp [load, List.countP_cons]

theorem load_pos {r : SlotRef} (hc : c ∈ claims) (hr : c.On r) : 0 < load claims r :=
  List.countP_pos_iff.mpr ⟨c, hc, by simpa using hr⟩

namespace Carries

theorem perm {claims' : List (Claim α)} (s : Carries limits claims a) (h : claims ~ claims') :
    Carries limits claims' a where
  threaded  := s.threaded
  streams i n e he := load_perm h _ ▸ s.streams i n e he
  capped    := s.capped
  saturated := s.saturated
  roomy     := s.roomy
  within    := s.within
  resolves c hc := s.resolves c (h.mem_iff.mpr hc)

-- A claim on what is not tracked counts for no entry.
theorem cons_untracked (hc : c.slot = none) :
    Carries limits (c :: claims) a ↔ Carries limits claims a := by
  have hl : ∀ r, load (c :: claims) r = load claims r := by
    intro r
    have hr : ¬c.On r := by simp [Claim.On, hc]
    simp [load_cons, hr]
  constructor
  case mp =>
    intro s
    exact ⟨s.threaded, fun i n e he => hl _ ▸ s.streams i n e he, s.capped, s.saturated, s.roomy,
      s.within, fun c' hc' => s.resolves c' (.tail _ hc')⟩
  case mpr =>
    intro s
    refine ⟨s.threaded, fun i n e he => hl _ ▸ s.streams i n e he, s.capped, s.saturated, s.roomy,
      s.within, fun c' hc' r hr => ?_⟩
    cases hc'
    case head => simp [Claim.On, hc] at hr
    case tail hc' => exact s.resolves c' hc' r hr

theorem withIdle {m : Nat} (s : Carries limits claims a) :
    Carries limits claims { a with idle := m } where
  threaded  := s.threaded.withIdle
  streams   := s.streams
  capped    := s.capped
  saturated := s.saturated
  roomy     := s.roomy
  within    := s.within
  resolves  := s.resolves

-- Claims on one slot are claims on one filling of it.
theorem on_unique (s : Carries limits claims a) (he : a.cell? i = some (n, e)) (hc : c ∈ claims)
    {r : SlotRef} (hr : c.On r) (hi : r.index = i) : r = ⟨i, n⟩ := by
  have ⟨_, he', _⟩ := s.resolves c hc r hr
  rw [hi, he] at he'
  simp only [Option.some.injEq, Prod.mk.injEq] at he'
  cases r
  simp_all

theorem remove (s : Carries limits claims a) (he : a.cell? i = some (n, e)) (hz : e.streams = 0) :
    Carries limits claims (a.remove i).2 := by
  have hi : ∀ j m x, (a.remove i).2.cell? j = some (m, x) → a.cell? j = some (m, x) := by
    intro j m x hx
    rw [Arena.cell?_remove] at hx
    split at hx
    · contradiction
    · exact hx
  refine ⟨s.threaded.remove, fun j m x hx => s.streams j m x (hi j m x hx),
    fun j m x hx => s.capped j m x (hi j m x hx),
    fun j m x hx => s.saturated j m x (hi j m x hx),
    fun j m x hx => s.roomy j m x (hi j m x hx), ?_, fun c hc r hr => ?_⟩
  case refine_1 =>
    have hl := (Arena.entries_remove he).length_eq
    have := s.within
    simp only [List.length_cons] at hl
    omega
  case refine_2 =>
    have ⟨x, hx, hconn⟩ := s.resolves c hc r hr
    refine ⟨x, ?_, hconn⟩
    rw [Arena.cell?_remove]
    split
    case isTrue h =>
      have hpos := load_pos hc (s.on_unique he hc hr h.symm ▸ hr)
      have := s.streams i n e he
      omega
    case isFalse => exact hx

-- One entry changes, and with it the claims on it.
theorem update {claims' : List (Claim α)} {e' : Entry α} (s : Carries limits claims a)
    (ht : b.IsThreaded) (hn : b.entries.length = a.entries.length)
    (he : a.cell? i = some (n, e)) (he' : b.cell? i = some (n, e'))
    (hc : e'.conn = e.conn ∧ e'.created = e.created)
    (ho : ∀ j, i ≠ j → b.cell? j = a.cell? j)
    (hload : ∀ r, r ≠ ⟨i, n⟩ → load claims' r = load claims r)
    (hclaims : ∀ c ∈ claims', c ∈ claims ∨ c.On ⟨i, n⟩ ∧ c.conn = e.conn ∧ c.created = e.created)
    (hstreams : e'.streams = load claims' ⟨i, n⟩) (hcapped : e'.streams ≤ limits.maxStreams)
    (hsaturated : e'.lane = .saturated → e'.streams = limits.maxStreams)
    (hroomy : e'.lane = .available → e'.streams = limits.maxStreams → limits.maxStreams = 1) :
    Carries limits claims' b := by
  have hcell : ∀ j m x, b.cell? j = some (m, x) →
      (⟨j, m⟩ : SlotRef) = ⟨i, n⟩ ∧ x = e' ∨
      (⟨j, m⟩ : SlotRef) ≠ ⟨i, n⟩ ∧ a.cell? j = some (m, x) := by
    intro j m x hx
    by_cases hij : i = j
    case pos =>
      subst hij
      simp_all
    case neg => exact .inr ⟨by simp [Ne.symm hij], ho j hij ▸ hx⟩
  refine ⟨ht, fun j m x hx => ?_, fun j m x hx => ?_, fun j m x hx => ?_, fun j m x hx => ?_,
    hn ▸ s.within, fun c hc' r hr => ?_⟩
  case refine_1 =>
    obtain ⟨hr, rfl⟩ | ⟨hr, hx⟩ := hcell j m x hx
    · exact hr ▸ hstreams
    · exact hload _ hr ▸ s.streams j m x hx
  case refine_2 =>
    obtain ⟨_, rfl⟩ | ⟨_, hx⟩ := hcell j m x hx
    · exact hcapped
    · exact s.capped j m x hx
  case refine_3 =>
    obtain ⟨_, rfl⟩ | ⟨_, hx⟩ := hcell j m x hx
    · exact hsaturated
    · exact s.saturated j m x hx
  case refine_4 =>
    obtain ⟨_, rfl⟩ | ⟨_, hx⟩ := hcell j m x hx
    · exact hroomy
    · exact s.roomy j m x hx
  case refine_5 =>
    obtain hc' | ⟨hr', hconn, hcreated⟩ := hclaims c hc'
    case inl =>
      have ⟨x, hx, hconn, hcreated⟩ := s.resolves c hc' r hr
      by_cases hi : i = r.index
      case pos =>
        have hr := s.on_unique he hc' hr hi.symm
        subst hr
        rw [he] at hx
        simp only [Option.some.injEq, Prod.mk.injEq, true_and] at hx
        exact ⟨e', he', hc.1.trans (hx ▸ hconn), hc.2.trans (hx ▸ hcreated)⟩
      case neg => exact ⟨x, ho _ hi ▸ hx, hconn, hcreated⟩
    case inr =>
      have hr : r = ⟨i, n⟩ := Option.some.inj (hr.symm.trans hr')
      subst hr
      exact ⟨e', he', hc.1.trans hconn.symm, hc.2.trans hcreated.symm⟩

end Carries

theorem idlers_remove (he : a.cell? i = some (n, e)) :
    a.idlers = (a.remove i).2.idlers + if e.streams = 0 then 1 else 0 := by
  simpa [Arena.idlers, List.countP_cons] using (Arena.entries_remove he).countP_eq (·.streams = 0)

namespace Sound

theorem perm {claims' : List (Claim α)} (s : Sound limits claims a) (h : claims ~ claims') :
    Sound limits claims' a :=
  ⟨s.toCarries.perm h, s.idle, s.idle_le⟩

theorem cons_untracked (hc : c.slot = none) :
    Sound limits (c :: claims) a ↔ Sound limits claims a where
  mp s  := ⟨(Carries.cons_untracked hc).mp s.toCarries, s.idle, s.idle_le⟩
  mpr s := ⟨(Carries.cons_untracked hc).mpr s.toCarries, s.idle, s.idle_le⟩

theorem empty : Sound limits ([] : List (Claim α)) .empty where
  threaded  := .empty
  streams   := by simp [Arena.cell?, Arena.cells, Arena.empty]
  capped    := by simp [Arena.cell?, Arena.cells, Arena.empty]
  saturated := by simp [Arena.cell?, Arena.cells, Arena.empty]
  roomy     := by simp [Arena.cell?, Arena.cells, Arena.empty]
  within    := by simp [Arena.entries, Arena.cells, Arena.empty]
  resolves  := by simp
  idle      := rfl
  idle_le   := Nat.zero_le _

end Sound

-- An entry that changes among others that do not.
theorem counts_onEntry {g : Entry α → Entry α} (he : a.cell? i = some (n, e))
    (h : b.cells = a.cells.modify i (.onEntry g)) : b.entries.length = a.entries.length ∧
    a.idlers + (if (g e).streams = 0 then 1 else 0) =
      b.idlers + (if e.streams = 0 then 1 else 0) := by
  have ⟨rest, ha, hb⟩ := Arena.entries_onEntry he h
  refine ⟨by rw [ha.length_eq, hb.length_eq]; rfl, ?_⟩
  have ha := ha.countP_eq (·.streams = 0)
  have hb := hb.countP_eq (·.streams = 0)
  simp only [List.countP_cons, decide_eq_true_eq] at ha hb
  simp only [Arena.idlers, ha, hb]
  omega

theorem cell?_onEntry_self {g : Entry α → Entry α} (he : a.cell? i = some (n, e))
    (h : b.cells = a.cells.modify i (.onEntry g)) : b.cell? i = some (n, g e) := by
  rw [Arena.cell?_onEntry h, he]
  simp

namespace Carries

theorem freeStream {r : SlotRef} {x : Entry α} (s : Carries limits (c :: claims) a) (hr : c.On r)
    (he : a.cell? r.index = some (r.generation, x.bare)) :
    Carries limits claims (AddressPool.freeStream limits a r.index x) ∧ 0 < x.streams := by
  have hstreams : x.streams = load claims r + 1 := by
    have := s.streams _ _ _ he
    rwa [load_cons, if_pos hr] at this
  have hcap : x.streams ≤ limits.maxStreams := s.capped _ _ x.bare he
  have hcells : (AddressPool.freeStream limits a r.index x).cells = _ :=
    AddressPool.cells_freeStream
  have he' := cell?_onEntry_self he hcells
  have ⟨hl, _⟩ := counts_onEntry he hcells
  refine ⟨s.update (AddressPool.isThreaded_freeStream s.threaded) hl he he' ⟨rfl, rfl⟩
    (fun j hj => Arena.cell?_modify_ne hcells hj) (fun r' hr' => ?_) (fun _ h => .inl (.tail _ h))
    ?_ ?_ (fun h => ?_) fun _ hf => ?_, by omega⟩
  case refine_1 =>
    have : ¬c.On r' := fun h => hr' (Option.some.inj (h.symm.trans hr))
    simp [load_cons, this]
  case refine_2 => exact Nat.sub_eq_of_eq_add hstreams
  case refine_3 => exact Nat.le_trans (Nat.sub_le _ _) hcap
  case refine_4 =>
    -- It is on the available list now.
    dsimp only at h
    split at h <;> simp_all [Entry.bare]
  case refine_5 =>
    dsimp only at hf
    omega

-- A slot that is filled anew had no entry, so that no claim is on it yet.
theorem track {conn : α} {id created : Nat} (s : Carries limits claims a)
    (hm : 1 ≤ limits.maxStreams) (hroom : a.entries.length < limits.capacity) :
    Carries limits (⟨conn, id, created, some (AddressPool.track a conn id created).1⟩ :: claims)
      (AddressPool.track a conn id created).2 := by
  have ⟨_, t⟩ := s.threaded
  let e : Entry α := ⟨conn, id, created, 1, .available, none, none⟩
  change Carries limits (⟨conn, id, created, some (a.insert e).1⟩ :: claims) (a.insert e).2
  have hself : (a.insert e).2.cell? (a.insert e).1.index = some ((a.insert e).1.generation, e) :=
    t.cell?_insert_self
  have hne : ∀ j, (a.insert e).1.index ≠ j → (a.insert e).2.cell? j = a.cell? j := fun _ =>
    Arena.cell?_insert_ne
  have hoff : ∀ c ∈ claims, ∀ r, c.On r → (a.insert e).1.index ≠ r.index := by
    rintro c hc r hr hi
    have ⟨_, hx, _⟩ := s.resolves c hc r hr
    rw [← hi, t.cell?_insert_index] at hx
    contradiction
  have hload : load claims (a.insert e).1 = 0 :=
    List.countP_eq_zero.mpr fun c hc => by simpa using fun hr => hoff c hc _ hr rfl
  have hcell : ∀ i n x, (a.insert e).2.cell? i = some (n, x) →
      (⟨i, n⟩ : SlotRef) = (a.insert e).1 ∧ x = e ∨
      (a.insert e).1.index ≠ i ∧ a.cell? i = some (n, x) := by
    intro i n x hx
    by_cases hi : (a.insert e).1.index = i
    case pos =>
      subst hi
      simp_all
    case neg => exact .inr ⟨hi, hne i hi ▸ hx⟩
  refine ⟨s.threaded.insert, fun i n x hx => ?_, fun i n x hx => ?_, fun i n x hx hl => ?_,
    fun i n x hx hl hf => ?_, t.entries_insert.length_eq ▸ hroom, fun c hc r hr => ?_⟩
  case refine_1 =>
    obtain ⟨hr, rfl⟩ | ⟨hi, hx⟩ := hcell i n x hx
    case inl => simp [hr, load_cons, Claim.On, hload, e]
    case inr =>
      have hr : (a.insert e).1 ≠ ⟨i, n⟩ := fun h => hi (congrArg SlotRef.index h)
      simpa [load_cons, Claim.On, hr] using s.streams i n x hx
  case refine_2 =>
    obtain ⟨_, rfl⟩ | ⟨_, hx⟩ := hcell i n x hx
    · exact hm
    · exact s.capped i n x hx
  case refine_3 =>
    obtain ⟨_, rfl⟩ | ⟨_, hx⟩ := hcell i n x hx
    · contradiction
    · exact s.saturated i n x hx hl
  case refine_4 =>
    obtain ⟨_, rfl⟩ | ⟨_, hx⟩ := hcell i n x hx
    · exact hf.symm
    · exact s.roomy i n x hx hl hf
  case refine_5 =>
    cases hc
    case head =>
      have hr : (a.insert e).1 = r := Option.some.inj hr
      exact ⟨e, hr ▸ hself, rfl, rfl⟩
    case tail hc =>
      have ⟨x, hx, hconn⟩ := s.resolves c hc r hr
      exact ⟨x, (hne _ (hoff c hc r hr)).trans hx, hconn⟩

end Carries

namespace Sound

theorem dropIdle (s : Sound limits claims a) (he : a.cell? i = some (n, e)) (hz : e.streams = 0) :
    Sound limits claims (AddressPool.dropIdle a i).2 := by
  have hr := s.toCarries.remove he hz
  have hi := idlers_remove he
  have hl : (a.remove i).2.idle = a.idle := Arena.idle_remove
  have := s.idle
  have := s.idle_le
  refine ⟨hr.withIdle, ?_, ?_⟩
  case refine_1 =>
    change (a.remove i).2.idle - 1 = (a.remove i).2.idlers
    simp only [hz, ↓reduceIte] at hi
    omega
  case refine_2 =>
    change (a.remove i).2.idle - 1 ≤ _
    omega

theorem saturate (s : Sound limits claims a) (he : a.cell? i = some (n, e))
    (hm : limits.maxStreams ≤ e.streams) : Sound limits claims (a.moveToFront i .saturated) := by
  have hc : (a.moveToFront i .saturated).cells = _ := Arena.cells_moveToFront
  have ⟨hl, hi⟩ := counts_onEntry he hc
  have he' := cell?_onEntry_self he hc
  have hs := s.capped i n e he
  refine ⟨s.toCarries.update s.threaded.moveToFront hl he he' ⟨rfl, rfl⟩
    (fun j hj => Arena.cell?_modify_ne hc hj) (fun _ _ => rfl) (fun _ h => .inl h)
    (s.streams i n e he) hs (fun _ => Nat.le_antisymm hs hm) nofun, ?_, ?_⟩
  case refine_1 =>
    rw [Arena.idle_moveToFront, s.idle]
    simpa using hi
  case refine_2 =>
    rw [Arena.idle_moveToFront]
    exact s.idle_le

theorem take (s : Sound limits claims a) (he : a.cell? i = some (n, e))
    (hm : e.streams < limits.maxStreams) :
    Sound limits ((AddressPool.take limits a i e).1 :: claims)
      (AddressPool.take limits a i e).2 := by
  have hc : (AddressPool.take limits a i e).2.cells = _ := AddressPool.cells_take
  have ⟨hl, hi⟩ := counts_onEntry he hc
  have he' := cell?_onEntry_self he hc
  have hs := s.streams i n e he
  have hon : (AddressPool.take limits a i e).1.On ⟨i, n⟩ := AddressPool.slot_take he
  -- Only where the entry is on the available list is there room on it.
  have hlane : e.lane ≠ .saturated := fun h => by
    have := s.saturated i n e he h
    omega
  refine ⟨s.toCarries.update (AddressPool.isThreaded_take s.threaded) hl he he' ⟨rfl, rfl⟩
    (fun j hj => Arena.cell?_modify_ne hc hj) (fun r hr => ?_) (fun c h => ?_) ?_ hm (fun h => ?_)
    (fun h hf => ?_), ?_, ?_⟩
  case refine_1 =>
    have hr' : ¬(AddressPool.take limits a i e).1.On r := fun h =>
      hr (Option.some.inj (h.symm.trans hon))
    simp [load_cons, hr']
  case refine_2 =>
    cases h
    case head => exact .inr ⟨hon, rfl, rfl⟩
    case tail h => exact .inl h
  case refine_3 => simp [load_cons, hon, hs]
  case refine_4 =>
    by_contra hne
    have hcap : ¬limits.maxStreams ≤ e.streams + 1 := fun hle => hne (Nat.le_antisymm hm hle)
    exact hlane (by simpa [hcap] using h)
  case refine_5 =>
    -- What has become full was moved.
    have hcap : limits.maxStreams ≤ e.streams + 1 := Nat.le_of_eq hf.symm
    simp [hcap] at h
  case refine_6 =>
    have := s.idle
    rw [AddressPool.idle_take]
    dsimp only at hi
    split at hi <;> split at hi <;> split <;> omega
  case refine_7 =>
    have := s.idle_le
    rw [AddressPool.idle_take]
    split <;> omega

theorem scan {fuel : Nat} {cursor : Option Nat} {retired : List α} (s : Sound limits claims a) :
    let r := AddressPool.scan limits view fuel cursor retired a
    Sound limits (r.1.toList ++ claims) r.2.2 := by
  generalize hr : AddressPool.scan limits view fuel cursor retired a = r
  have h := AddressPool.scan_induct (fun _ a => Sound limits claims a) hr s
    (fun _ _ _ _ _ _ s he hj => s.dropIdle he (AddressPool.judge_eq_retire hj).1)
    (fun _ _ _ _ _ s he hj => s.saturate he (AddressPool.judge_eq_saturate hj))
  obtain ⟨_ | c, _, b⟩ := r
  case none => exact h
  case some =>
    have ⟨a, i, n, e, s, he, hj, ht⟩ := h
    have hs := s.take he (AddressPool.judge_eq_take hj)
    rw [ht] at hs
    exact hs

theorem giveBack {r : SlotRef} {now : Nat} {failed : Bool} (s : Sound limits (c :: claims) a)
    (hr : c.On r) (hi : a.resolve? r = some i) :
    Sound limits claims (AddressPool.giveBack limits now failed a i).2 := by
  have ⟨rfl, e, he⟩ := Arena.resolve?_eq_some_iff.mp hi
  have ⟨x, hx, hxe⟩ := Arena.get?_of_cell? he
  subst hxe
  have ⟨hfreed, hpos⟩ := s.toCarries.freeStream (x := x) hr he
  have hcells : (AddressPool.freeStream limits a r.index x).cells = _ :=
    AddressPool.cells_freeStream
  have hidle : (AddressPool.freeStream limits a r.index x).idle = a.idle :=
    AddressPool.idle_freeStream
  have he' := cell?_onEntry_self he hcells
  have ⟨_, hc⟩ := counts_onEntry he hcells
  have := s.idle
  have := s.idle_le
  have hz : ¬x.bare.streams = 0 := Nat.ne_of_gt hpos
  simp only [hz, ↓reduceIte] at hc
  simp only [AddressPool.giveBack, hx]
  split
  case isTrue hpos =>
    have hne : ¬x.streams - 1 = 0 := by omega
    simp only [hne, ↓reduceIte] at hc
    refine ⟨hfreed, ?_, ?_⟩ <;> dsimp only <;> omega
  case isFalse hzero =>
    have hz : x.streams - 1 = 0 := by omega
    simp only [hz, ↓reduceIte] at hc
    split
    case isTrue =>
      have hd := idlers_remove he'
      simp only [hz, ↓reduceIte] at hd
      refine ⟨hfreed.remove he' hz, ?_, ?_⟩ <;> dsimp only <;> rw [Arena.idle_remove] <;> omega
    case isFalse hkeep =>
      simp only [not_or, Nat.not_le] at hkeep
      refine ⟨hfreed.withIdle, ?_, hkeep.2.1⟩
      change (AddressPool.freeStream limits a r.index x).idle + 1 =
        (AddressPool.freeStream limits a r.index x).idlers
      omega

theorem track (conn : α) (id created : Nat) (s : Sound limits claims a)
    (hm : 1 ≤ limits.maxStreams) (hroom : a.entries.length < limits.capacity) :
    Sound limits (⟨conn, id, created, some (AddressPool.track a conn id created).1⟩ :: claims)
      (AddressPool.track a conn id created).2 := by
  have ⟨_, t⟩ := s.threaded
  have hidle : (AddressPool.track a conn id created).2.idle = a.idle := Arena.idle_insert
  refine ⟨s.toCarries.track hm hroom, ?_, hidle ▸ s.idle_le⟩
  have hentries : (AddressPool.track a conn id created).2.entries ~ _ := t.entries_insert
  have hc := hentries.countP_eq (·.streams = 0)
  rw [hidle, s.idle]
  simpa [Arena.idlers, List.countP_cons, Entry.bare] using hc.symm

end Sound

namespace AddressPool

variable {p : AddressPool α}

def Sound (p : AddressPool α) (claims : List (Claim α)) : Prop :=
  Pool.Sound p.limits claims p.arena

theorem sound_new {address : String} : (new address limits : AddressPool α).Sound [] :=
  .empty

theorem sound_tryClaim (view : View α) (s : p.Sound claims) :
    (p.tryClaim view).2.2.Sound ((p.tryClaim view).1.toList ++ claims) :=
  Pool.Sound.scan s

theorem sound_takeIn (conn : α) (id now : Nat) (s : p.Sound claims) (hm : 1 ≤ p.limits.maxStreams) :
    (p.takeIn conn id now).2.Sound ((p.takeIn conn id now).1 :: claims) := by
  unfold takeIn
  split
  case isTrue hroom =>
    rw [← s.threaded.length_entries] at hroom
    exact s.track conn id now hm hroom
  case isFalse => exact (Pool.Sound.cons_untracked rfl).mpr s

theorem sound_release {now : Nat} {failed : Bool} (s : p.Sound (c :: claims))
    (hm : 1 ≤ p.limits.maxStreams) : (p.release c now failed).2.Sound claims := by
  unfold release
  split
  case h_1 i hi =>
    have ⟨r, hr, hi⟩ := Option.bind_eq_some_iff.mp hi
    exact s.giveBack hr hi
  case h_2 hn =>
    -- A claim that is out resolves if it has a slot at all.
    have hc : c.slot = none := by
      by_contra hs
      have ⟨r, hr⟩ := Option.ne_none_iff_exists'.mp hs
      have ⟨e, he, _⟩ := s.resolves c (.head _) r hr
      have hres := Arena.resolve?_eq_some_iff.mpr ⟨rfl, e, he⟩
      simp [hr, hres] at hn
    have s : p.Sound claims := (Pool.Sound.cons_untracked hc).mp s
    split
    case isTrue => exact s
    case isFalse hroom =>
      rw [← s.threaded.length_entries, Nat.not_le] at hroom
      have ht := s.track c.conn c.id c.created hm hroom
      refine ht.giveBack rfl ?_
      have ⟨e, he, _⟩ := ht.resolves _ (.head _) _ rfl
      exact Arena.resolve?_eq_some_iff.mpr ⟨rfl, e, he⟩

theorem sound_closeIdle (s : p.Sound claims) : p.closeIdle.2.Sound claims := by
  have hc : ∀ {l a}, Carries p.limits claims a → Carries p.limits claims (removeIdle l a).2 :=
    fun s => removeIdle_induct (Carries p.limits claims) s fun _ _ _ _ s he hz => s.remove he hz
  have hs : Carries p.limits claims p.closeIdle.2.arena := by
    have := hc (l := (removeIdle (p.arena.indices .available) p.arena).2.indices .saturated)
      (hc (l := p.arena.indices .available) s.toCarries)
    exact this.withIdle
  have ⟨_, _, _, _, hz⟩ := closeIdle_spec s.threaded
  refine ⟨hs, ?_, Nat.zero_le _⟩
  change 0 = p.closeIdle.2.arena.entries.countP _
  exact (List.countP_eq_zero.mpr fun e he => by simpa using hz e he).symm

end AddressPool

end CallFabric.Pool
