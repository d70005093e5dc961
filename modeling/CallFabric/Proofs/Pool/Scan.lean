import CallFabric.Proofs.Pool.Effects

namespace CallFabric.Pool

variable {α : Type} {limits : Limits} {view : View α} {a b : Arena α} {i j n fuel : Nat}
  {e : Entry α} {q : PerLane (List Nat)} {ahead behind passed rest : List Nat} {closed : List α}

structure Usable (limits : Limits) (view : View α) (e : Entry α) : Prop where
  healthy : view.health e.conn = .idle ∨ view.health e.conn = .ready
  young   : view.now - e.created ≤ limits.ttl
  roomy   : e.streams < limits.maxStreams

-- Without a stream, and shut down, failing or too old. What is still connecting is left alone.
structure Useless (limits : Limits) (view : View α) (e : Entry α) : Prop where
  idle    : e.streams = 0
  settled : view.health e.conn ≠ .connecting
  cause   : view.health e.conn = .shutdown ∨ view.health e.conn = .transientFailure ∨
    limits.ttl < view.now - e.created

instance : Decidable (Usable limits view e) :=
  decidable_of_iff ((view.health e.conn = .idle ∨ view.health e.conn = .ready) ∧
      view.now - e.created ≤ limits.ttl ∧ e.streams < limits.maxStreams)
    ⟨fun ⟨hh, hy, hr⟩ => ⟨hh, hy, hr⟩, fun h => ⟨h.healthy, h.young, h.roomy⟩⟩

instance : Decidable (Useless limits view e) :=
  decidable_of_iff (e.streams = 0 ∧ view.health e.conn ≠ .connecting ∧
      (view.health e.conn = .shutdown ∨ view.health e.conn = .transientFailure ∨
        limits.ttl < view.now - e.created))
    ⟨fun ⟨hz, hs, hc⟩ => ⟨hz, hs, hc⟩, fun h => ⟨h.idle, h.settled, h.cause⟩⟩

-- Neither depends on how the entry is linked.
@[simp] theorem usable_bare : Usable limits view e.bare ↔ Usable limits view e where
  mp h  := ⟨h.healthy, h.young, h.roomy⟩
  mpr h := ⟨h.healthy, h.young, h.roomy⟩

@[simp] theorem useless_bare : Useless limits view e.bare ↔ Useless limits view e where
  mp h  := ⟨h.idle, h.settled, h.cause⟩
  mpr h := ⟨h.idle, h.settled, h.cause⟩

namespace AddressPool

theorem judge_eq_take_iff : judge limits view e = .take ↔ Usable limits view e := by
  constructor
  case mp =>
    intro h
    cases hh : view.health e.conn <;> simp only [judge, hh, isExpired] at h <;>
      refine ⟨?_, ?_, ?_⟩ <;> grind
  case mpr =>
    rintro ⟨hh | hh, hy, hr⟩ <;>
      simp [judge, hh, isExpired, Nat.not_lt.mpr hy, Nat.not_le.mpr hr]

theorem judge_eq_retire_iff {close : Bool} : judge limits view e = .retire close ↔
    Useless limits view e ∧ (close = false ↔ view.health e.conn = .shutdown) := by
  constructor
  case mp =>
    intro h
    refine ⟨?_, (judge_eq_retire h).2⟩
    cases hh : view.health e.conn <;> simp only [judge, hh, isExpired] at h <;>
      refine ⟨?_, ?_, ?_⟩ <;> grind
  case mpr =>
    rintro ⟨⟨hz, hs, hc⟩, hclose⟩
    cases hh : view.health e.conn <;> simp [judge, hh, hz, isExpired] <;> grind

theorem exists_retire (hu : Useless limits view e) :
    ∃ close, judge limits view e = .retire close :=
  ⟨decide (view.health e.conn ≠ .shutdown), judge_eq_retire_iff.mpr ⟨hu, by simp⟩⟩

-- What becomes of an entry that is passed: it goes, or stays on one list or the other.
def afterPass? (limits : Limits) (view : View α) (e : Entry α) : Option (Entry α) :=
  match judge limits view e with
  | .retire _    => none
  | .saturate    => some { e with lane := .saturated }
  | .skip | .take => some e

def pass (limits : Limits) (view : View α) (a : Arena α) (i : Nat) : Arena α :=
  match a.get? i with
  | none => a
  | some e =>
    match judge limits view e with
    | .retire _    => (dropIdle a i).2
    | .saturate    => a.moveToFront i .saturated
    | .skip | .take => a

theorem cell?_pass : (pass limits view a i).cell? j =
    if i = j then (a.cell? j).bind fun c => (afterPass? limits view c.2).map (c.1, ·)
    else a.cell? j := by
  cases hg : a.get? i
  case none =>
    have hc := Arena.get?_eq_none_iff.mp hg
    simp only [pass, hg]
    split
    case isTrue hij => simp [← hij, hc]
    case isFalse    => rfl
  case some e =>
    obtain ⟨n, hc⟩ := Arena.cell?_of_get? hg
    have hb : judge limits view e.bare = judge limits view e := rfl
    simp only [pass, hg]
    cases hj : judge limits view e
    case retire =>
      change (a.remove i).2.cell? j = _
      rw [Arena.cell?_remove]
      split
      case isTrue hij => simp [← hij, hc, afterPass?, hb, hj]
      case isFalse    => rfl
    case saturate =>
      rw [Arena.cell?_onEntry Arena.cells_moveToFront]
      split
      case isTrue hij => simp [← hij, hc, afterPass?, hb, hj]
      case isFalse    => rfl
    case skip | take =>
      change a.cell? j = _
      split
      case isTrue hij => simp [← hij, hc, afterPass?, hb, hj]
      case isFalse    => rfl

-- Each entry is passed once, whatever is done to the others.
theorem cell?_foldl_pass (h : ahead.Nodup) : (ahead.foldl (pass limits view) a).cell? j =
    if j ∈ ahead then (a.cell? j).bind fun c => (afterPass? limits view c.2).map (c.1, ·)
    else a.cell? j := by
  induction ahead generalizing a
  case nil => rfl
  case cons i ahead hi =>
    obtain ⟨hni, hn⟩ := List.nodup_cons.mp h
    rw [List.foldl_cons, hi hn, cell?_pass]
    by_cases hij : i = j
    case pos => simp [← hij, hni]
    case neg => simp [hij, Ne.symm hij]

-- It is on the list no longer, or still at its place.
theorem threaded_pass (limits : Limits) (view : View α) (t : a.Threaded q)
    (hq : q.available = passed ++ i :: rest) :
    ∃ r passed', (pass limits view a i).Threaded r ∧ r.available = passed' ++ rest := by
  have hn : (passed ++ i :: rest).Nodup := hq ▸ t.nodup .available
  have hp : i ∉ passed := fun hm => (List.nodup_append.mp hn).2.2 i hm i (.head _) rfl
  have hr : q.available.erase i = passed ++ rest := by
    rw [hq, List.erase_append_right _ hp, List.erase_cons_head]
  have hm : i ∈ q.get .available := show i ∈ q.available from hq ▸ List.mem_append_right _ (.head _)
  obtain ⟨e, he, hl⟩ := t.mem_iff.mp hm
  simp only [pass, he]
  cases judge limits view e
  case retire close =>
    have ht := hl ▸ (t.remove he).withIdle ((a.remove i).2.idle - 1)
    exact ⟨_, passed, ht, hr⟩
  case saturate     => exact ⟨_, passed, hl ▸ t.moveToFront he, hr⟩
  case skip | take  => exact ⟨q, passed ++ [i], t, by rw [hq, List.append_assoc]; rfl⟩

-- The connection of an entry that is thrown out and has yet to be closed.
def closing? (limits : Limits) (view : View α) (e : Entry α) : Option α :=
  if Useless limits view e ∧ view.health e.conn ≠ .shutdown then some e.conn else none

theorem closing?_of_retire {close : Bool} (h : judge limits view e = .retire close) :
    closing? limits view e = if close then some e.conn else none := by
  obtain ⟨hu, hc⟩ := judge_eq_retire_iff.mp h
  cases close
  case false => rw [closing?, if_neg fun hn => hn.2 (hc.mp rfl)]; rfl
  case true  => rw [closing?, if_pos ⟨hu, fun hs => Bool.noConfusion (hc.mpr hs)⟩]; rfl

theorem closing?_of_not_retire (h : ∀ close, judge limits view e ≠ .retire close) :
    closing? limits view e = none := by
  rw [closing?, if_neg]
  rintro ⟨hu, _⟩
  exact (exists_retire hu).elim h

def closingAt? (limits : Limits) (view : View α) (a : Arena α) (i : Nat) : Option α :=
  (a.cell? i).bind fun c => closing? limits view c.2

theorem closingAt?_of_get? (limits : Limits) (view : View α) (h : a.get? i = some e) :
    closingAt? limits view a i = closing? limits view e := by
  obtain ⟨n, hc⟩ := Arena.cell?_of_get? h
  simp only [closingAt?, hc, Option.bind_some, closing?, useless_bare]
  rfl

theorem closingAt?_pass (h : i ≠ j) :
    closingAt? limits view (pass limits view a i) j = closingAt? limits view a j := by
  rw [closingAt?, cell?_pass, if_neg h, closingAt?]

theorem scan_pass (he : a.get? i = some e) (hu : ¬ Usable limits view e) :
    scan limits view (fuel + 1) (some i) closed a =
      scan limits view fuel e.after (closed ++ (closing? limits view e).toList)
        (pass limits view a i) := by
  simp only [scan, pass, he]
  cases hj : judge limits view e
  case take => exact absurd (judge_eq_take_iff.mp hj) hu
  case retire close =>
    rw [closing?_of_retire hj]
    cases close
    case true  => rfl
    case false => simp
  case skip | saturate =>
    rw [closing?_of_not_retire fun close h => Verdict.noConfusion (hj.symm.trans h)]
    simp

theorem scan_none : scan limits view fuel none closed a = (none, closed, a) := by
  cases fuel <;> rfl

theorem scan_take (he : a.get? i = some e) (hu : Usable limits view e) :
    scan limits view (fuel + 1) (some i) closed a =
      (some (take limits a i e).1, closed, (take limits a i e).2) := by
  simp only [scan, he, judge_eq_take_iff.mpr hu]

theorem get?_of_listed (t : a.Threaded q) (hq : q.available = passed ++ i :: rest) :
    ∃ e, a.get? i = some e ∧ e.after = rest.head? := by
  have hc : a.Chain .available none (passed ++ i :: rest) none := hq ▸ t.chain .available
  obtain ⟨e, he, hp⟩ := Option.map_eq_some_iff.mp (Arena.Chain.append.mp hc).2.1
  simp only [Prod.mk.injEq, Option.or_none] at hp
  exact ⟨e, he, hp.2.2⟩

-- From the cursor on, what cannot be used is passed. Where to go on is read before an entry is
-- unlinked, and what is done to it changes none of the entries to come.
theorem scan_passed (t : a.Threaded q) (hq : q.available = passed ++ (ahead ++ behind))
    (hu : ∀ i ∈ ahead, ∀ n e, a.cell? i = some (n, e) → ¬ Usable limits view e) :
    scan limits view (ahead.length + fuel) (ahead ++ behind).head? closed a =
      scan limits view fuel behind.head? (closed ++ ahead.filterMap (closingAt? limits view a))
        (ahead.foldl (pass limits view) a) := by
  induction ahead generalizing a q passed closed
  case nil => simp
  case cons i ahead hi =>
    rw [List.cons_append] at hq
    obtain ⟨e, he, ha⟩ := get?_of_listed t hq
    obtain ⟨n, hc⟩ := Arena.cell?_of_get? he
    have hn : (passed ++ i :: (ahead ++ behind)).Nodup := hq ▸ t.nodup .available
    have hne {j : Nat} (hj : j ∈ ahead) : i ≠ j := by
      rintro rfl
      exact (List.nodup_cons.mp (List.nodup_append.mp hn).2.1).1 (List.mem_append_left behind hj)
    obtain ⟨r, passed', tr, hr⟩ := threaded_pass limits view t hq
    have hui : ¬ Usable limits view e := mt usable_bare.mpr (hu i (.head _) n e.bare hc)
    have hur : ∀ j ∈ ahead, ∀ n e, (pass limits view a i).cell? j = some (n, e) →
        ¬ Usable limits view e := by
      intro j hj n e he
      rw [cell?_pass, if_neg (hne hj)] at he
      exact hu j (.tail _ hj) n e he
    have hcl : ahead.filterMap (closingAt? limits view (pass limits view a i)) =
        ahead.filterMap (closingAt? limits view a) :=
      List.filterMap_congr fun j hj => closingAt?_pass (hne hj)
    calc
      scan limits view ((i :: ahead).length + fuel) (i :: ahead ++ behind).head? closed a
      _ = scan limits view (ahead.length + fuel + 1) (some i) closed a := by
        rw [List.length_cons, Nat.add_right_comm]
        rfl
      _ = scan limits view (ahead.length + fuel) (ahead ++ behind).head?
            (closed ++ (closing? limits view e).toList) (pass limits view a i) := by
        rw [scan_pass he hui, ha]
      _ = scan limits view fuel behind.head? (closed ++ (closing? limits view e).toList ++
            ahead.filterMap (closingAt? limits view a))
            (ahead.foldl (pass limits view) (pass limits view a i)) := by
        rw [hi tr hr hur, hcl]
      _ = _ := by
        rw [List.filterMap_cons, closingAt?_of_get? limits view he]
        cases closing? limits view e <;> simp

theorem afterPass?_cases (limits : Limits) (view : View α) (e : Entry α) :
    Useless limits view e ∧ afterPass? limits view e = none ∨
      ¬ Useless limits view e ∧ ∃ lane, afterPass? limits view e = some { e with lane } := by
  unfold afterPass?
  cases hj : judge limits view e
  case retire => exact .inl ⟨(judge_eq_retire_iff.mp hj).1, rfl⟩
  all_goals
    refine .inr ⟨fun hu => ?_, _, rfl⟩
    obtain ⟨close, hr⟩ := exists_retire hu
    exact Verdict.noConfusion (hj.symm.trans hr)

-- What was tracked is tracked in the same slot still, on one list or the other, unless it was of no
-- use and passed.
theorem cell?_passed (limits : Limits) (view : View α) (hn : ahead.Nodup)
    (h : a.cell? i = some (n, e)) :
    (i ∈ ahead ∧ Useless limits view e) ∧ (ahead.foldl (pass limits view) a).cell? i = none ∨
      ¬ (i ∈ ahead ∧ Useless limits view e) ∧
        ∃ lane, (ahead.foldl (pass limits view) a).cell? i = some (n, { e with lane }) := by
  rw [cell?_foldl_pass hn, h]
  by_cases hi : i ∈ ahead
  case neg => exact .inr ⟨fun hc => hi hc.1, e.lane, if_neg hi⟩
  case pos =>
    rw [if_pos hi, Option.bind_some]
    obtain ⟨hu, hp⟩ | ⟨hu, lane, hp⟩ := afterPass?_cases limits view e
    case inl => exact .inl ⟨⟨hi, hu⟩, by rw [hp]; rfl⟩
    case inr => exact .inr ⟨fun hc => hu hc.2, lane, by rw [hp]; rfl⟩

end AddressPool

-- Tracked at an index, whichever list it is on.
def Arena.Tracks (a : Arena α) (i : Nat) (e : Entry α) : Prop :=
  ∃ lane before after, a.get? i = some { e with lane, before, after }

theorem Arena.tracks_of_cell? {lane : Lane} (h : a.cell? i = some (n, { e.bare with lane })) :
    a.Tracks i e := by
  obtain ⟨x, hx, hb⟩ := get?_of_cell? h
  refine ⟨lane, x.before, x.after, hx.trans (congrArg some ?_)⟩
  cases x
  cases e
  simp only [Entry.bare, Entry.mk.injEq] at hb
  simp [hb]

-- What a claim finds, what it has closed and what it leaves of a pool, of which it passes the
-- entries `ahead`: either all that are available, or those before the one it takes.
structure Claiming (p : AddressPool α) (view : View α) (found : Option (Claim α)) (closed : List α)
    (b : Arena α) (ahead : List Nat) : Prop where
  unusable : ∀ i ∈ ahead, ∀ e, p.arena.get? i = some e → ¬ Usable p.limits view e
  missed   : found = none → p.arena.indices .available = ahead
  taken    : ∀ c, found = some c → ∃ i behind e,
    p.arena.indices .available = ahead ++ i :: behind ∧
    p.arena.get? i = some e ∧ Usable p.limits view e ∧
    c.conn = e.conn ∧ c.id = e.id ∧ c.created = e.created ∧ c.slot.bind b.resolve? = some i ∧
    b.Tracks i { e with streams := e.streams + 1 }
  removed  : ∀ i e, p.arena.get? i = some e →
    (b.get? i = none ↔ i ∈ ahead ∧ Useless p.limits view e)
  kept     : ∀ i e, p.arena.get? i = some e → b.get? i ≠ none →
    (∀ c, found = some c → c.slot.bind b.resolve? ≠ some i) → b.Tracks i e
  -- Nothing is tracked that was not before.
  old      : ∀ i, p.arena.get? i = none → b.get? i = none
  closed   : closed = ((ahead.filterMap p.arena.get?).filter fun e =>
    Useless p.limits view e ∧ view.health e.conn ≠ .shutdown).map (·.conn)

namespace AddressPool

theorem filterMap_closingAt? (is : List Nat) : is.filterMap (closingAt? limits view a) =
    ((is.filterMap a.get?).filter fun e =>
      Useless limits view e ∧ view.health e.conn ≠ .shutdown).map (·.conn) := by
  induction is
  case nil => rfl
  case cons i is hi =>
    cases he : a.get? i
    case none =>
      have hc : closingAt? limits view a i = none := by
        rw [closingAt?, Arena.get?_eq_none_iff.mp he]
        rfl
      simp [he, hc, hi]
    case some e =>
      have hc := closingAt?_of_get? limits view he
      rw [List.filterMap_cons, List.filterMap_cons, hc, he, closing?]
      by_cases hu : Useless limits view e ∧ view.health e.conn ≠ .shutdown
      case pos => simp [hu, hi]
      case neg => simp [hu, hi]

section Passed

variable (hn : ahead.Nodup) (he : a.get? i = some e)
  (hb : b.cell? i = (ahead.foldl (pass limits view) a).cell? i)

include hn he hb

theorem get?_passed_eq_none_iff : b.get? i = none ↔ i ∈ ahead ∧ Useless limits view e := by
  obtain ⟨n, hc⟩ := Arena.cell?_of_get? he
  rw [Arena.get?_eq_none_iff, hb, ← useless_bare]
  obtain ⟨hu, hm⟩ | ⟨hu, _, hm⟩ := cell?_passed limits view hn hc
  case inl => exact iff_of_true hm hu
  case inr => exact iff_of_false (by simp [hm]) hu

theorem tracks_passed (hg : b.get? i ≠ none) : b.Tracks i e := by
  obtain ⟨n, hc⟩ := Arena.cell?_of_get? he
  obtain ⟨_, hm⟩ | ⟨_, lane, hm⟩ := cell?_passed limits view hn hc
  case inl => exact absurd (Arena.get?_eq_none_iff.mpr (hb.trans hm)) hg
  case inr => exact Arena.tracks_of_cell? (hb.trans hm)

end Passed

theorem cell?_passed_of_none (hn : ahead.Nodup) (he : a.get? i = none) :
    (ahead.foldl (pass limits view) a).cell? i = none := by
  rw [cell?_foldl_pass hn, Arena.get?_eq_none_iff.mp he]
  simp

variable {p : AddressPool α}

theorem tryClaim_eq {c : Option (Claim α)}
    (h : scan p.limits view p.arena.slots.length p.arena.heads.available [] p.arena =
      (c, closed, b)) : p.tryClaim view = (c, closed, { p with arena := b }) := by
  simp only [tryClaim, h]

-- The scan comes to what stands behind unusable entries.
theorem scan_arrives (t : p.arena.Threaded q) (hq : q.available = ahead ++ behind)
    (hu : ∀ i ∈ ahead, ∀ e, p.arena.get? i = some e → ¬ Usable p.limits view e) :
    ∃ fuel, behind.length ≤ fuel ∧
      scan p.limits view p.arena.slots.length p.arena.heads.available [] p.arena =
        scan p.limits view fuel behind.head? (ahead.filterMap (closingAt? p.limits view p.arena))
          (ahead.foldl (pass p.limits view) p.arena) := by
  have hh : p.arena.heads.available = (ahead ++ behind).head? := hq ▸ t.head .available
  have hl : (q.get .available).length ≤ p.arena.slots.length := t.length_le
  rw [show q.get .available = ahead ++ behind from hq, List.length_append] at hl
  obtain ⟨fuel, hf⟩ := Nat.exists_eq_add_of_le (Nat.le_of_add_right_le hl)
  refine ⟨fuel, by omega, ?_⟩
  rw [hf, hh, scan_passed t (show q.available = [] ++ _ from hq), List.nil_append]
  intro i hi n e hc
  obtain ⟨x, hx, rfl⟩ := Arena.get?_of_cell? hc
  rw [usable_bare]
  exact hu i hi x hx

theorem claiming_missed (t : p.arena.Threaded q)
    (hu : ∀ i ∈ q.available, ∀ e, p.arena.get? i = some e → ¬ Usable p.limits view e) :
    Claiming p view (p.tryClaim view).1 (p.tryClaim view).2.1 (p.tryClaim view).2.2.arena
      q.available := by
  have hn : q.available.Nodup := t.nodup .available
  obtain ⟨fuel, -, hs⟩ := scan_arrives t (List.append_nil _).symm hu
  rw [tryClaim_eq (hs.trans scan_none)]
  constructor
  case unusable => exact hu
  case missed   => exact fun _ => t.indices_eq
  case taken    => nofun
  case removed  => exact fun i e he => get?_passed_eq_none_iff hn he rfl
  case kept     => exact fun i e he hg _ => tracks_passed hn he rfl hg
  case old      => exact fun i he => Arena.get?_eq_none_iff.mpr (cell?_passed_of_none hn he)
  case closed   => exact filterMap_closingAt? _

theorem claiming_taken (t : p.arena.Threaded q) (hq : q.available = ahead ++ i :: behind)
    (he : p.arena.get? i = some e) (hi : Usable p.limits view e)
    (hu : ∀ i ∈ ahead, ∀ e, p.arena.get? i = some e → ¬ Usable p.limits view e) :
    Claiming p view (p.tryClaim view).1 (p.tryClaim view).2.1 (p.tryClaim view).2.2.arena
      ahead := by
  have hl : (ahead ++ i :: behind).Nodup := hq ▸ t.nodup .available
  have hn : ahead.Nodup := (List.nodup_append.mp hl).1
  have hia : i ∉ ahead := fun hm => (List.nodup_append.mp hl).2.2 i hm i (.head _) rfl
  obtain ⟨n, hc⟩ := Arena.cell?_of_get? he
  -- What is taken is still as it was.
  have hm : (ahead.foldl (pass p.limits view) p.arena).cell? i = some (n, e.bare) := by
    rw [cell?_foldl_pass hn, if_neg hia, hc]
  obtain ⟨x, hx, hxe⟩ := Arena.get?_of_cell? hm
  have hxu : Usable p.limits view x := by rwa [← usable_bare, hxe, usable_bare]
  obtain ⟨_ | fuel, hf, hs⟩ := scan_arrives t hq hu
  case zero => exact absurd hf (Nat.not_succ_le_zero _)
  rw [tryClaim_eq (hs.trans (scan_take hx hxu))]
  generalize hma : ahead.foldl (pass p.limits view) p.arena = m at hm hx
  have hcells : (take p.limits m i x).2.cells = _ := cells_take
  have hbi : (take p.limits m i x).2.cell? i = _ := Arena.cell?_onEntry hcells
  rw [if_pos rfl, hm] at hbi
  have hbj {j : Nat} (hij : i ≠ j) : (take p.limits m i x).2.cell? j =
      (ahead.foldl (pass p.limits view) p.arena).cell? j := by
    rw [hma, Arena.cell?_modify_ne hcells hij]
  have hres : (take p.limits m i x).1.slot.bind (take p.limits m i x).2.resolve? = some i := by
    rw [slot_take hm, Option.bind_some, Arena.resolve?_eq_some_iff]
    exact ⟨rfl, _, hbi⟩
  constructor
  case unusable => exact hu
  case missed   => nofun
  case taken =>
    rintro _ ⟨⟩
    obtain ⟨hconn, hid, hcreated, -⟩ := Entry.mk.inj hxe
    exact ⟨i, behind, e, t.indices_eq.trans hq, he, hi, hconn, hid, hcreated, hres,
      Arena.tracks_of_cell? hbi⟩
  case removed =>
    intro j y hy
    by_cases hij : i = j
    case pos =>
      subst hij
      exact iff_of_false (by simp [Arena.get?_eq_none_iff, hbi]) fun h => hia h.1
    case neg => exact get?_passed_eq_none_iff hn hy (hbj hij)
  case kept =>
    intro j y hy hg hne
    have hij : i ≠ j := fun h => hne _ rfl (h ▸ hres)
    exact tracks_passed hn hy (hbj hij) hg
  case old =>
    intro j hy
    have hij : i ≠ j := fun h => by simp [← h, he] at hy
    exact Arena.get?_eq_none_iff.mpr ((hbj hij).trans (cell?_passed_of_none hn hy))
  case closed => exact filterMap_closingAt? _

-- A claim passes what stands before the first usable entry, or the whole list.
theorem claiming (view : View α) (t : p.arena.IsThreaded) : ∃ ahead, Claiming p view
    (p.tryClaim view).1 (p.tryClaim view).2.1 (p.tryClaim view).2.2.arena ahead := by
  obtain ⟨q, t⟩ := t
  cases hf : q.available.find? fun i => (p.arena.get? i).any (Usable p.limits view ·)
  case none =>
    refine ⟨_, claiming_missed t fun i hi e he hu => ?_⟩
    have hn := List.find?_eq_none.mp hf i hi
    simp [he, hu] at hn
  case some i =>
    obtain ⟨hi, ahead, behind, hq, hu⟩ := List.find?_eq_some_iff_append.mp hf
    obtain ⟨e, he, hi⟩ := (Option.any_eq_true _ _).mp hi
    refine ⟨ahead, claiming_taken t hq he (of_decide_eq_true hi) fun j hj x hx hxu => ?_⟩
    have hn := hu j hj
    simp [hx, hxu] at hn

end AddressPool
end CallFabric.Pool
