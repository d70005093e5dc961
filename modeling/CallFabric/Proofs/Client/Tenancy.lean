import CallFabric.Client.Tenancy
import CallFabric.Proofs.Client.Closing
import CallFabric.Proofs.Pool.Turns

namespace CallFabric.Client

open Duplex (Deed Operation)

namespace Contention

variable {c c' : Contention} {event : Event} {i : Nat} {e : Option Fault}

theorem Change.releases (h : Change c event c') : c.stream.releases <+: c'.stream.releases := by
  cases h
  case deed number t ht =>
    rw [proceed_eq ht]
    unfold Operation.proceed
    split
    case h_3 => split <;> exact List.prefix_refl _
    case h_5 => exact List.prefix_append _ _
    case h_6 => dsimp only; split <;> exact List.prefix_refl _
    all_goals exact List.prefix_refl _
  case begun stream t hq _ _ => exact hq.releases ▸ List.prefix_refl _
  case quiet stream hq       => exact hq.releases ▸ List.prefix_refl _
  case cancelled             => exact List.prefix_refl _

def undone (c : Contention) : Nat := (c.tasks.flatMap (·.operation.deeds)).length

theorem undone_proceed {before after : List Task} {t : Task}
    (ht : c.tasks = before ++ t :: after) (ho : t.isOver = false) :
    (c.proceed before.length).undone < c.undone := by
  have hget : c.tasks[before.length]? = some t := by simp [ht]
  have hlt : (t.operation.proceed c.stream).1.deeds.length < t.operation.deeds.length := by
    cases hd : t.operation.deeds
    case nil => simp [Task.isOver, hd] at ho
    case cons deed deeds =>
      unfold Operation.proceed
      cases deed <;> simp only [hd]
      case close => split <;> simp
      all_goals simp
  rw [proceed_eq hget]
  simp only [undone, ht, List.set_append_right _ _ (Nat.le_refl _), Nat.sub_self,
    List.set_cons_zero, List.flatMap_append, List.flatMap_cons, List.length_append]
  omega

theorem exists_over (c : Contention) :
    ∃ numbers : List Nat, ∀ t ∈ (c.run (numbers.map .proceed)).tasks, t.isOver := by
  induction hn : c.undone using Nat.strongRecOn generalizing c
  case ind n hi =>
    rcases Decidable.em (∀ t ∈ c.tasks, t.isOver) with ho | ho
    case inl => exact ⟨[], ho⟩
    case inr =>
      obtain ⟨t, ht, ho⟩ : ∃ t ∈ c.tasks, t.isOver = false := by simpa using ho
      obtain ⟨before, after, hs⟩ := List.mem_iff_append.mp ht
      obtain ⟨numbers, hover⟩ := hi _ (hn ▸ undone_proceed hs ho) (c.proceed before.length) rfl
      exact ⟨before.length :: numbers, hover⟩

end Contention

namespace Tenancy

variable {c : Contention} {i : Nat} {e : Option Fault}

theorem closedWith?_of_open (h : c.Open) : closedWith? c = none := by
  simp only [closedWith?, List.findSome?_eq_none_iff]
  intro t ht
  simpa [Task.closed] using h.tasks t ht

theorem closedWith?_of_closedBy (h : c.ClosedBy i e) : closedWith? c = some e := by
  obtain ⟨-, only, t, ht, hw⟩ := h
  have hsome : (closedWith? c).isSome := by
    rw [closedWith?, List.findSome?_isSome_iff]
    exact ⟨t, List.mem_of_getElem? ht, by simp [hw.found]⟩
  obtain ⟨e', he'⟩ := Option.isSome_iff_exists.mp hsome
  obtain ⟨u, hu, hf⟩ := List.exists_of_findSome?_eq_some he'
  obtain ⟨j, hj⟩ := List.getElem?_of_mem hu
  obtain rfl : j = i := only j u hj (by simp [Task.closed, hf])
  obtain rfl : u = t := Option.some.inj (hj.symm.trans ht)
  rw [he', ← hf, hw.found]

-- The actions give back what is held once, with the verdict that fits the outcome.
structure Settles (o : Outcome) (actions : List SlotAction) : Prop where
  released : releases actions = [decide (o ≠ .fine)]
  evicted  : .evict ∈ actions ↔ ∃ f, o = .failed f ∧ f.status = 503

theorem settles_afterError (f : Fault) : Settles (.failed f) (SlotAction.afterError f) := by
  unfold SlotAction.afterError
  split
  case isTrue h  => exact ⟨rfl, by simpa [Fault.isUnavailable] using h⟩
  case isFalse h => exact ⟨rfl, by simpa [Fault.isUnavailable] using h⟩

theorem settles_afterClose (e : Option Fault) : Settles (.ofClose e) (SlotAction.afterClose e) := by
  cases e
  case none => exact ⟨rfl, by simp [SlotAction.afterClose, Outcome.ofClose]⟩
  case some f =>
    unfold SlotAction.afterClose
    dsimp only
    split
    case isTrue h  => exact ⟨rfl, by simpa [Fault.isUnavailable, Outcome.ofClose] using h⟩
    case isFalse h => exact ⟨rfl, by simpa [Fault.isUnavailable, Outcome.ofClose] using h⟩

theorem settles_dropped : Settles .dropped [.release true] := ⟨rfl, by simp⟩

theorem settles_afterUnary (e : Ending) :
    Settles ((e.result?.map .ofResult).getD .dropped) (SlotAction.afterUnary e) := by
  unfold SlotAction.afterUnary
  split
  case h_1 hr       => rw [hr]; exact settles_dropped
  case h_2 payload hr => rw [hr]; exact ⟨rfl, by simp [Outcome.ofResult]⟩
  case h_3 f hr     => rw [hr]; exact settles_afterError f

namespace Stage

variable {s : Stage} {o : Outcome}

-- What is known of the stream that a call has got.
def Known : Stage → Prop
  | .streaming c => c.Fits ∧ (c.Open ∨ ∃ i e, c.ClosedBy i e)
  | .gone c      => (c.Open ∨ ∃ i e, c.ClosedBy i e) ∧ ∀ t ∈ c.tasks, t.isOver
  | .asking | .ended _ | .opening _ | .refused _ | .givenUp => True

theorem settles_of_closed (h : c.ClosedBy i e) (ho : ∀ t ∈ c.tasks, t.isOver) :
    Settles (.ofClose e) (SlotAction.ofStream c.stream) := by
  obtain ⟨-, -, t, ht, hw⟩ := h
  have hd : t.operation.deeds = [] := by
    simpa [Task.isOver] using ho t (List.mem_of_getElem? ht)
  have hr : c.stream.releases = [e] := by rw [hw.releases, hd]; rfl
  simpa [SlotAction.ofStream, hr] using settles_afterClose e

theorem Known.settles (h : s.Known) (hr : s.isAtRest) (ho : s.outcome? = some o) :
    Settles o s.owed := by
  cases s
  case asking | opening => simp [isAtRest] at hr
  case ended e =>
    obtain rfl := Option.some.inj ho
    exact settles_afterUnary e
  case refused st =>
    obtain rfl := Option.some.inj ho
    exact settles_afterError st.toFault
  case givenUp =>
    obtain rfl := Option.some.inj ho
    exact settles_dropped
  case streaming c =>
    obtain ⟨hc, hover⟩ : c.stream.closed ∧ ∀ t ∈ c.tasks, t.isOver := by
      simpa [isAtRest] using hr
    obtain ho' | ⟨i, e, hb⟩ := h.2
    case inl => simp [ho'.closed] at hc
    case inr =>
      obtain rfl : .ofClose e = o := by simpa [outcome?, closedWith?_of_closedBy hb] using ho
      exact settles_of_closed hb hover
  case gone c =>
    obtain ⟨ho' | ⟨i, e, hb⟩, hover⟩ := h
    case inl =>
      obtain rfl : .dropped = o := by simpa [outcome?, closedWith?_of_open ho'] using ho
      simpa [owed, SlotAction.ofStreamGone, SlotAction.ofStream, ho'.releases, ho'.closed] using
        settles_dropped
    case inr =>
      obtain rfl : .ofClose e = o := by simpa [outcome?, closedWith?_of_closedBy hb] using ho
      simpa [owed, SlotAction.ofStreamGone, hb.closed] using settles_of_closed hb hover

theorem Known.releases_le (h : s.Known) : (releases s.owed).length ≤ 1 := by
  have hone {o : Outcome} {actions : List SlotAction} (hs : Settles o actions) :
      (releases actions).length = 1 := congrArg List.length hs.released
  have hstream {c : Contention} {i : Nat} {e : Option Fault} (hb : c.ClosedBy i e) :
      (releases (SlotAction.ofStream c.stream)).length ≤ 1 := by
    obtain ⟨-, -, t, -, hw⟩ := hb
    rw [SlotAction.ofStream, hw.releases]
    split
    case isTrue  => exact Nat.zero_le 1
    case isFalse => simp [hone (settles_afterClose e)]
  cases s
  case asking | opening => exact Nat.zero_le 1
  case ended e    => exact Nat.le_of_eq (hone (settles_afterUnary e))
  case refused st => exact Nat.le_of_eq (hone (settles_afterError st.toFault))
  case givenUp    => exact Nat.le_of_eq (hone settles_dropped)
  case streaming c =>
    obtain ho | ⟨i, e, hb⟩ := h.2
    case inl => simp [owed, SlotAction.ofStream, ho.releases, releases]
    case inr => exact hstream hb
  case gone c =>
    obtain ho | ⟨i, e, hb⟩ := h.1
    case inl => simp [owed, SlotAction.ofStreamGone, SlotAction.ofStream, ho.releases, ho.closed,
      releases]
    case inr => simpa [owed, SlotAction.ofStreamGone, hb.closed] using hstream hb

theorem Known.use (h : (streaming c).Known) (event : Contention.Event) :
    (streaming (c.step event)).Known := by
  have hc := c.change_step event
  refine ⟨h.1.change hc, ?_⟩
  obtain ho | ⟨i, e, hb⟩ := h.2
  case inl => exact (ho.change h.1 hc).imp_right fun ⟨i, _, hb⟩ => ⟨i, _, hb⟩
  case inr => exact .inr ⟨i, e, hb.change h.1 hc⟩

theorem Known.letGo (h : (streaming c).Known) : (Tenancy.letGo c).Known := by
  unfold Tenancy.letGo
  split
  case isTrue ho => exact ⟨h.2, by simpa using ho⟩
  case isFalse   => exact h

theorem known_afterOpening (codec : Codec) (o : SlotAction.Opening) :
    (afterOpening codec o).Known := by
  cases o
  case opened => exact ⟨.opened codec streamRoom, .inl (.opened codec streamRoom)⟩
  case failed | dropped => trivial

theorem owed_use (c : Contention) (event : Contention.Event) :
    (streaming c).owed <+: (streaming (c.step event)).owed := by
  obtain ⟨more, hm⟩ := (c.change_step event).releases
  exact ⟨more.flatMap SlotAction.afterClose, by
    simp [owed, SlotAction.ofStream, ← hm, List.flatMap_append]⟩

theorem owed_letGo (c : Contention) : (streaming c).owed <+: (Tenancy.letGo c).owed := by
  unfold Tenancy.letGo
  split
  case isTrue  => exact List.prefix_append _ _
  case isFalse => exact List.prefix_refl _

end Stage

section Pools

variable {slot : Slot} {pools : Pool.System} {a : Pool.Acquisition}

theorem releases_append (actions more : List SlotAction) :
    releases (actions ++ more) = releases actions ++ releases more :=
  List.filterMap_append

theorem acquisitions_distrust (slot : Slot) (pools : Pool.System) :
    (slot.distrust pools).acquisitions = pools.acquisitions := by
  unfold Slot.distrust
  split <;> rfl

theorem acquisition_evict (h : pools.acquisitions[slot.handle]? = some a) :
    (slot.act pools .evict).2.acquisitions[slot.handle]? = some a := by
  have he := Pool.System.settled_evict h slot.address
  simp only [Slot.act]
  generalize pools.evict slot.address = r at he ⊢
  obtain ⟨outcome, pools'⟩ := r
  cases outcome <;> exact he

theorem acquisition_release {h : Pool.Handle Nat} (failed : Bool)
    (hh : pools.acquisitions[slot.handle]? = some (.held h) ∨
      pools.acquisitions[slot.handle]? = some .over) :
    (slot.act pools (.release failed)).2.acquisitions[slot.handle]? = some .over := by
  change (pools.release slot.handle failed).2.acquisitions[slot.handle]? = some .over
  obtain hh | hh := hh
  case inl =>
    rw [Pool.System.acquisitions_release hh,
      List.getElem?_set_self (List.getElem?_eq_some_iff.mp hh).1]
  case inr => rwa [Pool.System.release_eq_self (by simp [hh])]

end Pools

variable {t : Tenancy} {h : Pool.Handle Nat} {o : Outcome}

structure Sound (t : Tenancy) (h : Pool.Handle Nat) : Prop where
  known : t.stage.Known
  done  : t.done <+: t.stage.owed
  held  : t.pools.acquisitions[t.slot.handle]? =
    some (if releases t.done = [] then .held h else .over)

namespace Sound

theorem stage {s : Stage} (hs : t.Sound h) (hk : s.Known) (ho : t.stage.owed <+: s.owed) :
    Sound { t with stage := s } h :=
  ⟨hk, hs.done.trans ho, hs.held⟩

theorem act (hs : t.Sound h) {a : SlotAction} (ha : t.stage.owed[t.done.length]? = some a) :
    Sound { t with pools := (t.slot.act t.pools a).2, done := t.done ++ [a] } h := by
  refine ⟨hs.known, ?done, ?held⟩
  case done =>
    obtain ⟨rest, hr⟩ := hs.done
    rw [← hr, List.getElem?_append_right (Nat.le_refl _), Nat.sub_self] at ha
    obtain ⟨rest, rfl⟩ : ∃ rest', rest = a :: rest' := by
      cases rest <;> simp_all
    exact ⟨rest, by simpa using hr⟩
  case held =>
    have hh := hs.held
    cases a
    case distrust =>
      have hr : releases (t.done ++ [.distrust]) = releases t.done := by simp [releases]
      simpa [hr, Slot.act, acquisitions_distrust] using hh
    case evict =>
      have hr : releases (t.done ++ [.evict]) = releases t.done := by simp [releases]
      simpa [hr] using acquisition_evict hh
    case release failed =>
      have hr : releases (t.done ++ [.release failed]) ≠ [] := by simp [releases]
      rw [if_neg hr]
      refine acquisition_release (h := h) failed ?_
      split at hh
      case isTrue  => exact .inl hh
      case isFalse => exact .inr hh

theorem pool (hs : t.Sound h) {e : Pool.Event} (he : isOfOthers t.slot.handle e) :
    Sound { t with pools := (t.pools.step e).2 } h := by
  refine ⟨hs.known, hs.done, Pool.System.settled_step hs.held ?_ e ?_ ?_⟩
  · split <;> rfl
  · rintro failed rfl
    simp [isOfOthers] at he
  · rintro rfl
    simp [isOfOthers] at he

theorem step (hs : t.Sound h) (event : Event) : (t.step event).Sound h := by
  have hk := hs.known
  cases event
  case answer e =>
    simp only [Tenancy.step]
    split
    case h_1 ha => exact hs.stage trivial (ha ▸ List.nil_prefix)
    case h_2    => exact hs
  case answerOpening o =>
    simp only [Tenancy.step]
    split
    case h_1 ha => exact hs.stage (Stage.known_afterOpening _ o) (ha ▸ List.nil_prefix)
    case h_2    => exact hs
  case use e =>
    simp only [Tenancy.step]
    split
    case h_1 c ha =>
      rw [ha] at hk
      exact hs.stage (hk.use e) (ha ▸ Stage.owed_use c e)
    case h_2 => exact hs
  case drop =>
    simp only [Tenancy.step]
    split
    case h_1 c ha =>
      rw [ha] at hk
      exact hs.stage hk.letGo (ha ▸ Stage.owed_letGo c)
    case h_2 => exact hs
  case act =>
    simp only [Tenancy.step]
    split
    case h_1 ha => exact hs.act ha
    case h_2    => exact hs
  case pool e =>
    simp only [Tenancy.step]
    split
    case isTrue he => exact hs.pool he
    case isFalse   => exact hs

theorem run (hs : t.Sound h) (events : List Event) : (t.run events).Sound h := by
  induction events generalizing t
  case nil => exact hs
  case cons event events hi => exact hi (hs.step event)

theorem releases_le (hs : t.Sound h) : (releases t.done).length ≤ 1 := by
  obtain ⟨rest, hr⟩ := hs.done
  have hle := hs.known.releases_le
  rw [← hr, releases_append, List.length_append] at hle
  omega

end Sound

theorem slot_step (t : Tenancy) (event : Event) : (t.step event).slot = t.slot := by
  unfold step
  split <;> split <;> rfl

theorem slot_run (t : Tenancy) (events : List Event) : (t.run events).slot = t.slot := by
  induction events generalizing t
  case nil => rfl
  case cons event events hi => exact (hi _).trans (t.slot_step event)

theorem run_append (t : Tenancy) (events more : List Event) :
    t.run (events ++ more) = (t.run events).run more :=
  List.foldl_append

-- What nobody but the call itself does.
def Event.IsOwn : Event → Prop
  | .act | .use (.proceed _) => True
  | _                        => False

theorem run_use (hs : t.stage = .streaming c) (events : List Contention.Event) :
    t.run (events.map .use) = { t with stage := .streaming (c.run events) } := by
  induction events generalizing t c
  case nil => exact congrArg (fun stage => (⟨t.slot, t.pools, stage, t.done⟩ : Tenancy)) hs
  case cons event events hi =>
    have hstep : t.step (.use event) = { t with stage := .streaming (c.step event) } := by
      simp [step, hs]
    calc t.run ((event :: events).map .use)
      _ = (t.step (.use event)).run (events.map .use) := rfl
      _ = _ := by rw [hi (t := t.step (.use event)) (c := c.step event) (by rw [hstep]), hstep]; rfl

-- What was begun on a closed stream comes to its end.
theorem Sound.comes_to_rest (hs : t.Sound h) (ho : t.stage.outcome? = some o) :
    ∃ own, (∀ e ∈ own, e.IsOwn) ∧ (t.run own).stage.outcome? = some o ∧
      (t.run own).stage.isAtRest := by
  have hk := hs.known
  have hrest (hr : t.stage.isAtRest) : ∃ own, (∀ e ∈ own, e.IsOwn) ∧
      (t.run own).stage.outcome? = some o ∧ (t.run own).stage.isAtRest :=
    ⟨[], by simp, ho, hr⟩
  cases hstage : t.stage <;> rw [hstage] at hk ho hrest
  case asking | opening => cases ho
  case ended | refused | givenUp | gone => exact hrest rfl
  case streaming c =>
    obtain hopen | ⟨i, e, hb⟩ := hk.2
    case inl => simp [Stage.outcome?, closedWith?_of_open hopen] at ho
    case inr =>
      obtain ⟨numbers, hover⟩ := c.exists_over
      have hb' := hb.run hk.1 (numbers.map .proceed)
      refine ⟨(numbers.map .proceed).map .use, by simp [Event.IsOwn], ?_⟩
      rw [run_use hstage]
      refine ⟨?_, by simpa [Stage.isAtRest, hb'.closed] using hover⟩
      simpa [Stage.outcome?, closedWith?_of_closedBy hb, closedWith?_of_closedBy hb'] using ho

theorem snd_actAll (slot : Slot) (pools : Pool.System) (actions : List SlotAction) :
    (slot.actAll pools actions).2 =
      actions.foldl (fun pools a => (slot.act pools a).2) pools := by
  simp only [Slot.actAll]
  generalize 0 = removed
  induction actions generalizing pools removed
  case nil => rfl
  case cons a actions hi => exact hi ..

-- The call does what it owes, one action after the other.
theorem run_acts {rest : List SlotAction} (ho : t.stage.owed = t.done ++ rest) :
    t.run (.replicate rest.length .act) = { t with
      pools := (t.slot.actAll t.pools rest).2, done := t.stage.owed } := by
  rw [snd_actAll]
  induction rest generalizing t
  case nil =>
    have hd : t.done = t.stage.owed := by simpa using ho.symm
    rw [← hd]
    rfl
  case cons a rest hi =>
    have hstep : t.step .act = { t with
        pools := (t.slot.act t.pools a).2, done := t.done ++ [a] } := by
      simp [step, ho]
    calc t.run (.replicate (a :: rest).length .act)
      _ = (t.step .act).run (.replicate rest.length .act) := rfl
      _ = _ := by rw [hi (t := t.step .act) (by simp [hstep, ho]), hstep]; rfl

-- What ends a unary call at a stroke is a run in which nothing comes in between.
theorem settle_afterUnary (c : Client) (slot : Slot) (e : Ending) :
    ∃ n, (unary slot c.pools).run (.answer e :: .replicate n .act) =
      ⟨slot, (c.settle slot (SlotAction.afterUnary e)).2.pools, .ended e,
        SlotAction.afterUnary e⟩ :=
  ⟨_, run_acts (t := (unary slot c.pools).step (.answer e)) (List.nil_append _).symm⟩

theorem settle_afterOpening (c : Client) (codec : Codec) (slot : Slot) (o : SlotAction.Opening) :
    ∃ n, (stream codec slot c.pools).run (.answerOpening o :: .replicate n .act) =
      ⟨slot, (c.settle slot (SlotAction.afterOpening o)).2.pools, afterOpening codec o,
        SlotAction.afterOpening o⟩ := by
  have ho : SlotAction.afterOpening o = (afterOpening codec o).owed := by cases o <;> rfl
  rw [ho]
  exact ⟨_, run_acts (t := (stream codec slot c.pools).step (.answerOpening o))
    (List.nil_append _).symm⟩

-- A call that has a connection, whatever it comes to, and whatever is done to its stream and to the
-- pools in the meantime. It holds what it has until it gives it back, once, and nobody holds it
-- after that. When it has ended and done what it owes, it was given back exactly once, as failed
-- exactly if the call did not end well, and the pool of the address was to be forgotten exactly if
-- the call ended in an error with status 503. A call that has ended comes there by itself.
theorem given_back_once (slot : Slot) (pools : Pool.System) (h : Pool.Handle Nat)
    (hh : pools.acquisitions[slot.handle]? = some (.held h)) (start : Tenancy)
    (hs : start = unary slot pools ∨ ∃ codec, start = stream codec slot pools)
    (events : List Event) :
    let t := start.run events
    t.pools.acquisitions[slot.handle]? = some (if releases t.done = [] then .held h else .over) ∧
    (releases t.done).length ≤ 1 ∧
    (∀ o, t.stage.outcome? = some o → t.stage.isAtRest → t.done = t.stage.owed →
      releases t.done = [decide (o ≠ .fine)] ∧
        (.evict ∈ t.done ↔ ∃ f, o = .failed f ∧ f.status = 503)) ∧
    ∀ o, t.stage.outcome? = some o → ∃ own, (∀ e ∈ own, e.IsOwn) ∧
      (t.run own).stage.outcome? = some o ∧ (t.run own).stage.isAtRest ∧
        (t.run own).done = (t.run own).stage.owed := by
  intro t
  have hstart : start.Sound h := by
    obtain rfl | ⟨codec, rfl⟩ := hs <;> exact ⟨trivial, List.nil_prefix, hh⟩
  have hslot : start.slot = slot := by obtain rfl | ⟨codec, rfl⟩ := hs <;> rfl
  have ht : t.Sound h := hstart.run events
  have hheld := ht.held
  rw [slot_run, hslot] at hheld
  refine ⟨hheld, ht.releases_le, fun o ho hr hd => ?settled, fun o ho => ?ends⟩
  case settled =>
    have hsettles := ht.known.settles hr ho
    rw [hd]
    exact ⟨hsettles.released, hsettles.evicted⟩
  case ends =>
    obtain ⟨own, hown, ho', hr'⟩ := ht.comes_to_rest ho
    obtain ⟨rest, hrest⟩ := (ht.run own).done
    refine ⟨own ++ .replicate rest.length .act, ?_, ?_⟩
    case _ =>
      refine List.forall_mem_append.mpr ⟨hown, fun e he => ?_⟩
      rw [List.eq_of_mem_replicate he]
      trivial
    case _ =>
      rw [run_append, run_acts hrest.symm]
      exact ⟨ho', hr', rfl⟩

-- The destination of a stream went away, and its pool was forgotten by somebody else already.
theorem given_back_after_failure :
    let pools := ((Pool.System.new (.of 4 60 2 3)).step (.acquire "a")).2
    let f := Status.toFault ⟨.unavailable, "gone"⟩
    let events : List Event := [.answerOpening .opened,
      .use (.arrive (.error ⟨.unavailable, "gone"⟩)), .use (.receive true)] ++
      .replicate 5 (.use (.proceed 0)) ++ [.pool (.evict "a"), .drop, .act, .act, .act]
    let t := (stream .json ⟨0, 0, "a"⟩ pools).run events
    t.stage.outcome? = some (.failed f) ∧ f.status = 503 ∧ releases t.done = [true] ∧
      .evict ∈ t.done := by
  intro pools f events t
  have ho : t.stage.outcome? = some (.failed f) := rfl
  have hf : f.status = 503 := by decide
  have h := given_back_once ⟨0, 0, "a"⟩ pools _ rfl _ (.inr ⟨.json, rfl⟩) events
  have h := h.2.2.1 _ ho rfl rfl
  exact ⟨ho, hf, h.1, h.2.mpr ⟨f, rfl, hf⟩⟩

end Tenancy
end CallFabric.Client
