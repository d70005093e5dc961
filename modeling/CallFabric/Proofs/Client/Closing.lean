import CallFabric.Client.Contention

namespace CallFabric.Client

open Duplex (Deed Operation SendOutcome Receipt closing)

namespace Duplex

-- What everything but a deed leaves as it is.
structure Quiet (d e : Duplex) : Prop where
  closed     : e.closed = d.closed
  error      : e.error = d.error
  releases   : e.releases = d.releases
  cancelled  : e.cancelled = d.cancelled
  sendClosed : e.sendClosed = d.sendClosed

namespace Quiet

theorem refl (d : Duplex) : Quiet d d := ⟨rfl, rfl, rfl, rfl, rfl⟩

theorem trySend (closeFirst : Bool) (d : Duplex) (payload : Bytes) :
    Quiet d (d.trySend closeFirst payload).2 :=
  d.trySend_outbox closeFirst payload ▸ ⟨rfl, rfl, rfl, rfl, rfl⟩

theorem tryReceive (cancelFirst : Bool) (d : Duplex) : Quiet d (d.tryReceive cancelFirst).2 := by
  obtain ⟨inbox, hd, _⟩ := d.tryReceive_inbox cancelFirst
  exact hd ▸ ⟨rfl, rfl, rfl, rfl, rfl⟩

theorem peerTake {d e : Duplex} {payload : Bytes} (h : d.peerTake? = some (payload, e)) :
    Quiet d e := by
  unfold Duplex.peerTake? at h
  split at h <;> simp only [Option.some.injEq, Prod.mk.injEq, reduceCtorEq] at h
  exact h.2 ▸ ⟨rfl, rfl, rfl, rfl, rfl⟩

end Quiet
end Duplex

-- What the operation that closed the stream has done since, and what it has not.
structure Duplex.Operation.ClosesWith (o : Operation) (e : Option Fault) (outside : Bool)
    (d : Duplex) : Prop where
  found     : o.found = some e
  releases  : d.releases = if .handBack ∈ o.deeds then [] else [e]
  cancelled : d.cancelled = (outside || (e.isSome && decide (.cancelCall ∉ o.deeds)))

theorem Duplex.Operation.ClosesWith.unchanged {o : Operation} {e : Option Fault} {outside : Bool}
    {d d' : Duplex} (h : o.ClosesWith e outside d) (hr : d'.releases = d.releases)
    (hk : d'.cancelled = d.cancelled) : o.ClosesWith e outside d' :=
  ⟨h.found, hr.trans h.releases, hk.trans h.cancelled⟩

def Duplex.Deed.isAside : Deed → Bool
  | .record _ | .endSending => true
  | .close | .handBack | .cancelCall => false

theorem Task.isOver_proceed {t : Task} (d : Duplex) (h : t.isOver) :
    Task.isOver { t with operation := (t.operation.proceed d).1 } := by
  simp_all [Task.isOver, Operation.proceed]

-- How far an operation can have come, on a stream of which it is known whether it is closed.
inductive Task.Fits (closed : Bool) : Task → Prop
  | failing (p f) (h : p.closes) : Fits closed ⟨p, ⟨.record f :: closing, none⟩⟩
  | trying (p) (h : p.closes) : Fits closed ⟨p, ⟨closing, none⟩⟩
  | aside (p deeds) (h : p.closes = false) (hd : ∀ d ∈ deeds, d.isAside) :
    Fits closed ⟨p, ⟨deeds, none⟩⟩
  | ended (p) (h : p.closes → closed) : Fits closed ⟨p, ⟨[], none⟩⟩
  | marked (p e) (h : p.closes) (hc : closed) :
    Fits closed ⟨p, ⟨[.endSending, .handBack, .cancelCall], some e⟩⟩
  | stopped (p e) (h : p.closes) (hc : closed) : Fits closed ⟨p, ⟨[.handBack, .cancelCall], some e⟩⟩
  | handedBack (p e) (h : p.closes) (hc : closed) : Fits closed ⟨p, ⟨[.cancelCall], some e⟩⟩
  | done (p e) (h : p.closes) (hc : closed) : Fits closed ⟨p, ⟨[], some e⟩⟩

namespace Contention

-- What a step comes to: a deed, or something that the closing does not depend on.
inductive Change (c : Contention) : Event → Contention → Prop
  | deed (number t) (ht : c.tasks[number]? = some t) : Change c (.proceed number) (c.proceed number)
  | begun (stream t) (hq : c.stream.Quiet stream) (ht : ∀ closed, Task.Fits closed t)
    (hn : t.closed = false) : Change c event { c with stream, tasks := c.tasks ++ [t] }
  | quiet (stream) (hq : c.stream.Quiet stream) : Change c event { c with stream }
  | cancelled : Change c event { c with stream := c.stream.cancel, cancelledOutside := true }

variable {c c' : Contention} {event : Event} {t : Task} {i j : Nat} {e : Option Fault}

theorem change_attemptSend {r : SendOutcome × Duplex} (hq : c.stream.Quiet r.2) :
    Change c event (c.attemptSend r) := by
  obtain ⟨outcome, stream⟩ := r
  cases outcome
  case sent     => exact .begun stream _ hq (fun _ => .ended _ (by simp [Purpose.closes])) rfl
  case failed f =>
    exact .begun stream _ hq (fun _ => .aside _ [.record f] rfl (by simp [Deed.isAside])) rfl
  case waiting  => exact .quiet _ (.refl _)

theorem change_attemptReceive {r : Receipt Bytes × Duplex} (hq : c.stream.Quiet r.2) :
    Change c event (c.attemptReceive r) := by
  obtain ⟨receipt, stream⟩ := r
  cases receipt
  case value    => exact .begun stream _ hq (fun _ => .ended _ (by simp [Purpose.closes])) rfl
  case ended    => exact .begun stream _ hq (fun _ => .trying _ rfl) rfl
  case failed f => exact .begun stream _ hq (fun _ => .failing _ f rfl) rfl
  case waiting  => exact .quiet _ (.refl _)

theorem change_step (c : Contention) (event : Event) : Change c event (c.step event) := by
  cases event
  case send payload =>
    simp only [step]
    split
    case isTrue =>
      exact .begun _ _ (.refl _) (fun _ => .ended _ (by simp [Purpose.closes])) rfl
    case isFalse => exact change_attemptSend (.trySend ..)
  case resumeSend => exact change_attemptSend (.trySend ..)
  case receive    => exact change_attemptReceive (.tryReceive ..)
  case close      => exact .begun _ _ (.refl _) (fun _ => .trying _ rfl) rfl
  case closeSend =>
    exact .begun _ _ (.refl _) (fun _ => .aside _ _ rfl (by simp [Deed.isAside])) rfl
  case cancel     => exact .cancelled
  case proceed number =>
    cases h : c.tasks[number]?
    case some t => exact .deed number t h
    case none   =>
      have hc : c.step (.proceed number) = c := by simp [step, proceed, h]
      rw [hc]
      exact .quiet _ (.refl _)
  case arrive     => exact .quiet _ ⟨rfl, rfl, rfl, rfl, rfl⟩
  case endInbound => exact .quiet _ ⟨rfl, rfl, rfl, rfl, rfl⟩
  case peerTake =>
    simp only [step]
    split
    case h_1 h => exact .quiet _ (.peerTake h)
    case h_2   => exact .quiet _ (.refl _)
  case leave      => exact .quiet _ ⟨rfl, rfl, rfl, rfl, rfl⟩

-- Proceeding changes nothing but the operation that proceeds, and that is over afterwards if it was
-- before.
theorem over_proceed (ht : (c.proceed i).tasks[j]? = some t) :
    ∃ u, c.tasks[j]? = some u ∧ (t.isOver = false → u.isOver = false) := by
  cases hi : c.tasks[i]?
  case none => exact ⟨t, by simpa [proceed, hi] using ht, id⟩
  case some u =>
    rw [proceed_eq hi] at ht
    rcases Decidable.em (i = j) with rfl | hj
    · rw [List.getElem?_set_self (List.getElem?_eq_some_iff.mp hi).1] at ht
      have ht := Option.some.inj ht
      exact ⟨u, hi, fun h =>
        Bool.eq_false_iff.mpr (mt (Task.isOver_proceed c.stream) (by simpa [ht] using h))⟩
    · exact ⟨t, by rwa [List.getElem?_set_ne hj] at ht, id⟩

def Fits (c : Contention) : Prop := ∀ t ∈ c.tasks, t.Fits c.stream.closed

structure Open (c : Contention) : Prop where
  closed    : c.stream.closed = false
  releases  : c.stream.releases = []
  cancelled : c.stream.cancelled = c.cancelledOutside
  tasks     : ∀ t ∈ c.tasks, t.closed = false

-- The operation with this number closed the stream, and found `e` recorded.
structure ClosedBy (c : Contention) (i : Nat) (e : Option Fault) : Prop where
  closed : c.stream.closed
  only   : ∀ j u, c.tasks[j]? = some u → u.closed → j = i
  closer : ∃ t, c.tasks[i]? = some t ∧ t.operation.ClosesWith e c.cancelledOutside c.stream

end Contention

namespace Duplex.Operation

variable {o : Operation} {d : Duplex}

theorem closed_proceed (h : d.closed) : (o.proceed d).2.closed := by
  unfold proceed
  split
  case h_3          => simp [h]
  case h_6          => split <;> exact h
  all_goals exact h

theorem sendClosed_proceed (h : d.sendClosed) : (o.proceed d).2.sendClosed := by
  unfold proceed
  split
  case h_3 => split <;> exact h
  case h_4 => rfl
  case h_6 => split <;> exact h
  all_goals exact h

theorem error_proceed {f : Fault} (h : d.error = some f) : (o.proceed d).2.error = some f := by
  unfold proceed
  split
  case h_2 => simp [record, h]
  case h_3 => split <;> exact h
  case h_6 => split <;> exact h
  all_goals exact h

theorem proceed_aside {deeds : List Deed} (h : ∀ deed ∈ deeds, deed.isAside) (d : Duplex) :
    (Operation.proceed ⟨deeds, none⟩ d).1 = ⟨deeds.tail, none⟩ ∧
      (Operation.proceed ⟨deeds, none⟩ d).2.closed = d.closed ∧
      (Operation.proceed ⟨deeds, none⟩ d).2.releases = d.releases ∧
      (Operation.proceed ⟨deeds, none⟩ d).2.cancelled = d.cancelled := by
  cases deeds
  case nil => exact ⟨rfl, rfl, rfl, rfl⟩
  case cons deed deeds =>
    have hd := h deed List.mem_cons_self
    cases deed <;> first | exact ⟨rfl, rfl, rfl, rfl⟩ | simp [Deed.isAside] at hd

end Duplex.Operation

namespace Task.Fits

variable {t : Task} {d : Duplex} {e : Option Fault}

theorem mono {a b : Bool} (hf : t.Fits a) (h : a → b) : t.Fits b := by
  cases hf
  case failing p f hp   => exact .failing p f hp
  case trying p hp      => exact .trying p hp
  case aside p deeds hp hd => exact .aside p deeds hp hd
  case ended p hp       => exact .ended p (h ∘ hp)
  case marked p e hp hc     => exact .marked p e hp (h hc)
  case stopped p e hp hc    => exact .stopped p e hp (h hc)
  case handedBack p e hp hc => exact .handedBack p e hp (h hc)
  case done p e hp hc       => exact .done p e hp (h hc)

theorem proceed (hf : t.Fits d.closed) :
    Task.Fits (t.operation.proceed d).2.closed
      { t with operation := (t.operation.proceed d).1 } := by
  cases hf
  case failing p f hp   => exact .trying p hp
  case aside p deeds hp hd =>
    rw [(Operation.proceed_aside hd d).1]
    exact .aside p _ hp fun deed h => hd deed (List.mem_of_mem_tail h)
  case ended p hp       => exact .ended p hp
  case marked p e hp hc     => exact .stopped p e hp hc
  case stopped p e hp hc    => exact .handedBack p e hp hc
  case handedBack p e hp hc => exact .done p e hp (Operation.closed_proceed hc)
  case done p e hp hc       => exact .done p e hp hc
  case trying p hp =>
    cases hc : d.closed
    case false => simpa [Operation.proceed, closing, hc] using .marked p d.error hp rfl
    case true  => simpa [Operation.proceed, closing, hc] using .ended p fun _ => rfl

-- An operation that closes the stream is one that finds it open, and it is the next to note so.
theorem found_proceed (hf : t.Fits d.closed) :
    (t.operation.proceed d).1.found = t.operation.found ∨
      d.closed = false ∧ t.operation.proceed d =
        (⟨[.endSending, .handBack, .cancelCall], some d.error⟩, { d with closed := true }) := by
  cases hf
  case trying =>
    cases hc : d.closed
    case false => exact .inr ⟨rfl, by simp [Operation.proceed, closing, hc]⟩
    case true  => exact .inl (by simp [Operation.proceed, closing, hc])
  case aside p deeds _ hd => exact .inl (by rw [(Operation.proceed_aside hd d).1])
  all_goals exact .inl rfl

theorem proceed_other (hf : t.Fits d.closed) (ht : t.operation.found = none)
    (hc : (t.operation.proceed d).1.found = none) :
    (t.operation.proceed d).2.closed = d.closed ∧
      (t.operation.proceed d).2.releases = d.releases ∧
      (t.operation.proceed d).2.cancelled = d.cancelled := by
  cases hf
  case aside p deeds _ hd => exact (Operation.proceed_aside hd d).2
  case trying =>
    cases h : d.closed <;> simp_all [Operation.proceed, closing]
  all_goals simp_all [Operation.proceed, Duplex.record]

theorem proceed_closer {outside : Bool} (hf : t.Fits d.closed)
    (hc : t.operation.ClosesWith e outside d) :
    (t.operation.proceed d).1.ClosesWith e outside (t.operation.proceed d).2 := by
  obtain ⟨hfound, hr, hk⟩ := hc
  cases hf <;> simp only [reduceCtorEq, Option.some.injEq] at hfound <;> subst hfound
  case marked     => exact ⟨rfl, hr, hk⟩
  case stopped    => exact ⟨rfl, by simp_all [Operation.proceed], by simp_all [Operation.proceed]⟩
  case handedBack p f hp _ =>
    have hr : d.releases = [f] := by simpa using hr
    have hk : d.cancelled = outside := by simpa using hk
    cases f
    case none   => exact ⟨rfl, by simpa [Operation.proceed] using hr,
      by simp [Operation.proceed, hk]⟩
    case some f => exact ⟨rfl, by simpa [Operation.proceed, Duplex.cancel] using hr,
      by simp [Operation.proceed, Duplex.cancel]⟩
  case done       => exact ⟨rfl, hr, hk⟩

theorem closes_proceed (hf : t.Fits d.closed) (hd : d.closed = false)
    (hc : (t.operation.proceed d).2.closed) :
    (t.operation.proceed d).1 = ⟨[.endSending, .handBack, .cancelCall], some d.error⟩ := by
  cases hf
  case aside p deeds _ ha  => simp [(Operation.proceed_aside ha d).2.1, hd] at hc
  all_goals simp_all [Operation.proceed, Duplex.record, closing]

theorem ends_proceed (hf : t.Fits d.closed) (ht : t.closed)
    (he : .endSending ∈ t.operation.deeds) : (t.operation.proceed d).2.sendClosed := by
  cases hf
  case marked => rfl
  all_goals simp_all [Task.closed]

theorem closes {b : Bool} (hf : t.Fits b) (h : t.closed) : t.purpose.closes := by
  cases hf <;> first | assumption | simp [Task.closed] at h

theorem closed_of_over {b : Bool} (hf : t.Fits b) (h : t.isOver) (hp : t.purpose.closes) : b := by
  cases hf <;> simp_all [Task.isOver, closing]

end Task.Fits

namespace Contention

variable {c c' : Contention} {event : Event} {t : Task} {i : Nat} {e : Option Fault}

theorem Change.closed (h : Change c event c') (hc : c.stream.closed) : c'.stream.closed := by
  cases h
  case deed number t ht      => exact proceed_eq ht ▸ Operation.closed_proceed hc
  case begun stream t hq _ _ => exact hq.closed.trans hc
  case quiet stream hq       => exact hq.closed.trans hc
  case cancelled             => exact hc

theorem Change.purpose (h : Change c event c') (ht : c.tasks[i]? = some t) :
    ∃ u, c'.tasks[i]? = some u ∧ u.purpose = t.purpose := by
  have hi := (List.getElem?_eq_some_iff.mp ht).1
  cases h
  case begun       => exact ⟨t, by rwa [List.getElem?_append_left hi], rfl⟩
  case quiet       => exact ⟨t, ht, rfl⟩
  case cancelled   => exact ⟨t, ht, rfl⟩
  case deed j u hu =>
    rw [proceed_eq hu]
    rcases Decidable.em (j = i) with rfl | hj
    · obtain rfl : t = u := by simpa [ht] using hu
      exact ⟨_, List.getElem?_set_self hi, rfl⟩
    · exact ⟨t, by rwa [List.getElem?_set_ne hj], rfl⟩

theorem Change.error {f : Fault} (h : Change c event c') (he : c.stream.error = some f) :
    c'.stream.error = some f := by
  cases h
  case deed number t ht      => exact proceed_eq ht ▸ Operation.error_proceed he
  case begun stream t hq _ _ => exact hq.error.trans he
  case quiet stream hq       => exact hq.error.trans he
  case cancelled             => exact he

theorem error_run {f : Fault} (he : c.stream.error = some f) (events : List Event) :
    (c.run events).stream.error = some f := by
  induction events generalizing c
  case nil => exact he
  case cons event events hi => exact hi ((c.change_step event).error he)

namespace Fits

theorem opened (codec : Codec) (capacity : Nat) : (opened codec capacity).Fits := by
  simp [Fits, Contention.opened]

theorem change (hf : c.Fits) (h : Change c event c') : c'.Fits := by
  have hm := h.closed
  cases h
  case deed number t ht =>
    have ht' := (hf t (List.mem_of_getElem? ht)).proceed
    rw [proceed_eq ht] at hm ⊢
    intro u hu
    obtain rfl | hu := List.mem_or_eq_of_mem_set hu |>.symm
    · exact ht'
    · exact (hf u hu).mono hm
  case begun stream t hq ht _ =>
    intro u hu
    obtain hu | hu := List.mem_append.mp hu
    · exact (hf u hu).mono hm
    · exact List.mem_singleton.mp hu ▸ ht stream.closed
  case quiet stream hq => exact fun u hu => (hf u hu).mono hm
  case cancelled       => exact hf

theorem run (hf : c.Fits) (events : List Event) : (c.run events).Fits := by
  induction events generalizing c
  case nil => exact hf
  case cons event events hi => exact hi (hf.change (c.change_step event))

end Fits

theorem Open.change (ho : c.Open) (hf : c.Fits) (h : Change c event c') :
    c'.Open ∨ ∃ i, event = .proceed i ∧ ClosedBy c' i c.stream.error := by
  cases h
  case deed i t ht =>
    have hm := List.mem_of_getElem? ht
    have hlt := (List.getElem?_eq_some_iff.mp ht).1
    have hfound : t.operation.found = none := by simpa [Task.closed] using ho.tasks t hm
    rw [proceed_eq ht]
    obtain hn | ⟨-, hp⟩ := (hf t hm).found_proceed
    case inl =>
      have ⟨hc, hr, hk⟩ := (hf t hm).proceed_other hfound (hn.trans hfound)
      refine .inl ⟨hc.trans ho.closed, hr.trans ho.releases, hk.trans ho.cancelled, fun u hu => ?_⟩
      obtain hu | rfl := List.mem_or_eq_of_mem_set hu
      · exact ho.tasks u hu
      · simp [Task.closed, hn, hfound]
    case inr =>
      rw [hp]
      refine .inr ⟨i, rfl, rfl, fun j u hu hc => ?only, _, List.getElem?_set_self hlt, rfl, ?_, ?_⟩
      case only =>
        rcases Decidable.em (i = j) with rfl | hj
        · rfl
        · have hu : c.tasks[j]? = some u := by rwa [List.getElem?_set_ne hj] at hu
          simp [ho.tasks u (List.mem_of_getElem? hu)] at hc
      · simpa using ho.releases
      · simpa using ho.cancelled
  case begun stream t hq _ hn =>
    refine .inl ⟨hq.closed.trans ho.closed, hq.releases.trans ho.releases,
      hq.cancelled.trans ho.cancelled, fun u hu => ?_⟩
    obtain hu | hu := List.mem_append.mp hu
    · exact ho.tasks u hu
    · exact List.mem_singleton.mp hu ▸ hn
  case quiet stream hq =>
    exact .inl ⟨hq.closed.trans ho.closed, hq.releases.trans ho.releases,
      hq.cancelled.trans ho.cancelled, ho.tasks⟩
  case cancelled => exact .inl ⟨ho.closed, ho.releases, rfl, ho.tasks⟩

theorem ClosedBy.change (hb : c.ClosedBy i e) (hf : c.Fits) (h : Change c event c') :
    c'.ClosedBy i e := by
  obtain ⟨hc, only, u, hu, hw⟩ := hb
  cases h
  case deed j t ht =>
    have hlt := (List.getElem?_eq_some_iff.mp ht).1
    have hft := hf t (List.mem_of_getElem? ht)
    have hn : (t.operation.proceed c.stream).1.found = t.operation.found :=
      hft.found_proceed.resolve_right fun ⟨h, _⟩ => by simp [h] at hc
    rw [proceed_eq ht]
    refine ⟨Operation.closed_proceed hc, fun k v hv hk => ?only, ?closer⟩
    case only =>
      rcases Decidable.em (j = k) with rfl | hj
      · rw [List.getElem?_set_self hlt, Option.some.injEq] at hv
        exact only j t ht (by simpa [← hv, Task.closed, hn] using hk)
      · exact only k v (by rwa [List.getElem?_set_ne hj] at hv) hk
    case closer =>
      rcases Decidable.em (j = i) with rfl | hj
      · obtain rfl : t = u := by simpa [ht] using hu
        exact ⟨_, List.getElem?_set_self hlt, hft.proceed_closer hw⟩
      · have hnone : t.operation.found = none := by
          simpa [Task.closed] using mt (only j t ht) hj
        have ⟨_, hr, hk⟩ := hft.proceed_other hnone (hn.trans hnone)
        exact ⟨u, by rwa [List.getElem?_set_ne hj], hw.unchanged hr hk⟩
  case begun stream t hq _ hn =>
    refine ⟨hq.closed.trans hc, fun k v hv hk => ?_, u, ?_, hw.unchanged hq.releases hq.cancelled⟩
    · rw [List.getElem?_append] at hv
      split at hv
      case isTrue  => exact only k v hv hk
      case isFalse =>
        simp only [List.getElem?_singleton, Option.ite_none_right_eq_some, Option.some.injEq] at hv
        simp [← hv.2, hn] at hk
    · rw [List.getElem?_append_left (List.getElem?_eq_some_iff.mp hu).1, hu]
  case quiet stream hq =>
    exact ⟨hq.closed.trans hc, only, u, hu, hw.unchanged hq.releases hq.cancelled⟩
  case cancelled =>
    exact ⟨hc, only, u, hu, hw.found, hw.releases, by simp [Duplex.cancel]⟩

theorem ClosedBy.run (hb : c.ClosedBy i e) (hf : c.Fits) (events : List Event) :
    (c.run events).ClosedBy i e := by
  induction events generalizing c
  case nil => exact hb
  case cons event events hi =>
    exact hi (hb.change hf (c.change_step event)) (hf.change (c.change_step event))

-- A closed stream sends nothing more, or the one who closed it has still to see to that.
def Ended (c : Contention) : Prop :=
  c.stream.closed → c.stream.sendClosed ∨
    ∃ (i : Nat) (t : Task), c.tasks[i]? = some t ∧ t.closed ∧ .endSending ∈ t.operation.deeds

theorem Ended.change (he : c.Ended) (hf : c.Fits) (h : Change c event c') : c'.Ended := by
  cases h
  case deed j t ht =>
    have hft := hf t (List.mem_of_getElem? ht)
    rw [proceed_eq ht]
    intro hc
    cases hd : c.stream.closed
    case false =>
      have ho := hft.closes_proceed hd hc
      refine .inr ⟨j, _, List.getElem?_set_self (List.getElem?_eq_some_iff.mp ht).1, ?_⟩
      simp [Task.closed, ho]
    case true =>
      obtain hs | ⟨i, u, hu, hcl, hu'⟩ := he hd
      case inl => exact .inl (Operation.sendClosed_proceed hs)
      case inr =>
        rcases Decidable.em (j = i) with rfl | hj
        · obtain rfl : t = u := by simpa [ht] using hu
          exact .inl (hft.ends_proceed hcl hu')
        · exact .inr ⟨i, u, by rwa [List.getElem?_set_ne hj], hcl, hu'⟩
  case begun stream t hq _ _ =>
    intro hc
    refine (he (hq.closed.symm.trans hc)).imp hq.sendClosed.trans fun ⟨i, u, hu, h⟩ => ?_
    exact ⟨i, u, by rwa [List.getElem?_append_left (List.getElem?_eq_some_iff.mp hu).1], h⟩
  case quiet stream hq =>
    exact fun hc => (he (hq.closed.symm.trans hc)).imp_left hq.sendClosed.trans
  case cancelled => exact he

theorem Ended.run (he : c.Ended) (hf : c.Fits) (events : List Event) : (c.run events).Ended := by
  induction events generalizing c
  case nil => exact he
  case cons event events hi =>
    exact hi (he.change hf (c.change_step event)) (hf.change (c.change_step event))

theorem Ended.sendClosed (he : c.Ended) (hc : c.stream.closed) (ho : ∀ t ∈ c.tasks, t.isOver) :
    c.stream.sendClosed := by
  obtain hs | ⟨i, t, ht, -, hd⟩ := he hc
  case inl => exact hs
  case inr =>
    have hn : t.operation.deeds = [] := by
      simpa [Task.isOver] using ho t (List.mem_of_getElem? ht)
    simp [hn] at hd

theorem ClosedBy.releases_le (hb : c.ClosedBy i e) : c.stream.releases.length ≤ 1 := by
  obtain ⟨-, -, u, -, hw⟩ := hb
  rw [hw.releases]
  split <;> simp

-- Once nothing is left to do, the connection was handed back.
theorem ClosedBy.releases_of_over (hb : c.ClosedBy i e) (ho : ∀ t ∈ c.tasks, t.isOver) :
    c.stream.releases.length = 1 := by
  obtain ⟨-, -, u, hu, hw⟩ := hb
  have hd : u.operation.deeds = [] := by
    simpa [Task.isOver] using ho u (List.mem_of_getElem? hu)
  simp [hw.releases, hd]

theorem Open.opened (codec : Codec) (capacity : Nat) : (opened codec capacity).Open :=
  ⟨rfl, rfl, rfl, by simp [Contention.opened]⟩

-- A stream that was open is either open still or there was the one deed that closed it.
theorem Open.run (ho : c.Open) (hf : c.Fits) (events : List Event) :
    (c.run events).Open ∨ ∃ before i after, events = before ++ .proceed i :: after ∧
      (c.run before).Open ∧ (c.run (before ++ [.proceed i])).stream.closed ∧
      (c.run events).ClosedBy i (c.run before).stream.error := by
  induction events generalizing c
  case nil => exact .inl ho
  case cons event events hi =>
    have hf' := hf.change (c.change_step event)
    obtain ho' | ⟨i, rfl, hb⟩ := ho.change hf (c.change_step event)
    case inl =>
      refine (hi ho' hf').imp_right fun ⟨before, i, after, hs, hbefore, hclosed, hb⟩ => ?_
      exact ⟨event :: before, i, after, congrArg (event :: ·) hs, hbefore, hclosed, hb⟩
    case inr => exact .inr ⟨[], i, events, rfl, ho, hb.closed, hb.run hf' events⟩

-- However the deeds of senders, receivers and closers follow each other, and whatever the peer and
-- others do in between: as long as a stream is open the connection is not handed back, and the call
-- is cancelled only if others cancelled it. Once it is closed there was one deed that closed it. It
-- was one of a single attempt to close, and what that attempt does is done with the error that was
-- recorded just before. Whoever is told that the stream has come to an end finds it closed, and the
-- recorded error stays.
theorem closed_once (codec : Codec) (capacity : Nat) (events : List Event) :
    let c := (opened codec capacity).run events
    (c.Open ∨ ∃ before i after, events = before ++ .proceed i :: after ∧
      ((opened codec capacity).run before).Open ∧
      ((opened codec capacity).run (before ++ [.proceed i])).stream.closed ∧
      c.ClosedBy i ((opened codec capacity).run before).stream.error) ∧
    (∀ t ∈ c.tasks, t.closed → t.purpose.closes) ∧
    (∀ t ∈ c.tasks, t.isOver → t.purpose.closes → c.stream.closed) ∧
    c.stream.releases.length ≤ 1 ∧
    ∀ f, c.stream.error = some f → ∀ more, (c.run more).stream.error = some f := by
  have hf := (Fits.opened codec capacity).run events
  have hs := (Open.opened codec capacity).run (.opened codec capacity) events
  refine ⟨hs, fun t ht => (hf t ht).closes, fun t ht => (hf t ht).closed_of_over, ?_,
    fun f he more => error_run he more⟩
  obtain ho | ⟨_, _, _, _, _, _, hb⟩ := hs
  case inl => simp [ho.releases]
  case inr => exact hb.releases_le

end Contention
end CallFabric.Client
