import CallFabric.Gateway.Supervision

namespace CallFabric.Client.Duplex.Operation

variable {o : Operation} {d : Duplex}

theorem proceed_nil (h : o.deeds = []) : o.proceed d = (o, d) := by
  simp [proceed, h]

theorem length_proceed (o : Operation) (d : Duplex) :
    (o.proceed d).1.deeds.length ≤ o.deeds.length - 1 := by
  unfold proceed
  split
  case h_3 => split <;> simp_all
  all_goals simp_all

theorem foldl_proceed_nil (h : o.deeds = []) (deeds : List Deed) :
    deeds.foldl (fun (o, d) _ => Operation.proceed o d) (o, d) = (o, d) := by
  induction deeds
  case nil => rfl
  case cons deed deeds hi =>
    calc (deed :: deeds).foldl (fun (o, d) _ => Operation.proceed o d) (o, d)
      _ = deeds.foldl (fun (o, d) _ => Operation.proceed o d) (o.proceed d) := rfl
      _ = (o, d) := by rw [proceed_nil h, hi]

end CallFabric.Client.Duplex.Operation

namespace CallFabric.Gateway

open Client (Task)
open Client.Duplex (Deed Operation)

namespace Session

theorem close_gone (s : Session) (p : Pump) : (s.gone p).close.2 = s.close.2.gone p := by
  rcases Decidable.em (s.closes = 0) with h | h <;> cases p <;> simp [gone, close, h]

end Session

namespace Supervision

variable {v : Supervision} {q : Party} {p : Pump} {n : Nat} {t : Task}

theorem run_append (v : Supervision) (events more : List Event) :
    v.run (events ++ more) = (v.run events).run more :=
  List.foldl_append

theorem run_cons (v : Supervision) (event : Event) (events : List Event) :
    v.run (event :: events) = (v.step event).run events := rfl

theorem run_singleton (v : Supervision) (event : Event) : v.run [event] = v.step event := rfl

theorem run_replicate_succ (v : Supervision) (event : Event) (k : Nat) :
    v.run (.replicate (k + 1) event) = (v.step event).run (.replicate k event) := rfl

theorem run_replicate_add (v : Supervision) (event : Event) (k l : Nat) :
    v.run (.replicate (k + l) event) = (v.run (.replicate k event)).run (.replicate l event) := by
  rw [← List.replicate_append_replicate, run_append]

theorem run_deeds (hq : v.stage q = .parting n ∨ v.stage q = .closing n) (ht : v.tasks[n]? = some t)
    (deeds : List Deed) (hl : t.operation.deeds.length ≤ deeds.length) :
    ∃ k, (v.run (.replicate k (.advance q))).isDone n ∧
      (v.run (.replicate k (.advance q))).stage = v.stage ∧
      (v.run (.replicate k (.advance q))).session = { v.session with
        call := (deeds.foldl (fun (o, d) _ => Operation.proceed o d)
          (t.operation, v.session.call)).2 } := by
  induction deeds generalizing v t
  case nil =>
    have hd : t.operation.deeds = [] := List.eq_nil_of_length_eq_zero (Nat.le_zero.mp hl)
    exact ⟨0, by simp [run, isDone, ht, Task.isOver, hd], rfl, rfl⟩
  case cons deed deeds hi =>
    cases hd : t.operation.deeds
    case nil =>
      rw [Operation.foldl_proceed_nil hd]
      exact ⟨0, by simp [run, isDone, ht, Task.isOver, hd], rfl, rfl⟩
    case cons =>
      have hn : v.isDone n = false := by simp [isDone, ht, Task.isOver, hd]
      have ha : v.advance q = v.deed n := by
        obtain hq | hq := hq <;> simp [advance, hq, hn]
      have hv : v.deed n = { v with
          session := { v.session with call := (t.operation.proceed v.session.call).2 }
          tasks :=
            v.tasks.set n { t with operation := (t.operation.proceed v.session.call).1 } } := by
        simp [Supervision.deed, calls, Client.Contention.proceed, ht]
      have hl' := t.operation.length_proceed v.session.call
      obtain ⟨k, h1, h2, h3⟩ := hi (v := v.deed n)
        (t := { t with operation := (t.operation.proceed v.session.call).1 })
        (by rw [hv]; exact hq)
        (by rw [hv]; exact List.getElem?_set_self (List.getElem?_eq_some_iff.mp ht).1)
        (by simp only [List.length_cons] at hl ⊢; omega)
      refine ⟨k + 1, ?_⟩
      rw [run_replicate_succ, step, ha]
      refine ⟨h1, h2.trans (by rw [hv]), h3.trans (by rw [hv]; rfl)⟩

-- A pump that wants the guard while nobody has it, to its end.
theorem run_waiting (hq : v.stage (.pump p) = .waiting) (hn : ∀ r, (v.stage r).holds = false) :
    ∃ k, (v.run (.replicate k (.advance (.pump p)))).session = v.session.close.2.gone p ∧
      (v.run (.replicate k (.advance (.pump p)))).stage = (v.put (.pump p) .over).stage := by
  have hh : v.held = false := held_eq_false.mpr hn
  rcases Decidable.em (v.session.closes = 0) with hc | hc
  case inr =>
    refine ⟨1, ?_⟩
    have hr : v.run (.replicate 1 (.advance (.pump p))) = v.retire (.pump p) := by
      simp [run, step, advance, hq, hh, hc]
    rw [hr]
    exact ⟨by simp [retire, put, Session.close, hc], rfl⟩
  case inl =>
    have hb : v.run (.replicate 2 (.advance (.pump p))) =
        (v.enter (.pump p)).beginClose (.pump p) := by
      simp [run, step, advance, hq, hh, hc, enter]
    generalize hv : (v.enter (.pump p)).beginClose (.pump p) = w at hb
    have hs : w.stage (.pump p) = .closing v.tasks.length := hv ▸ put_stage ..
    have ht : w.tasks[v.tasks.length]? = some ⟨.close, .toDo Client.Duplex.closing⟩ :=
      hv ▸ List.getElem?_concat_length
    obtain ⟨k, hd, hst, hse⟩ := run_deeds (.inr hs) ht Client.Duplex.closing (Nat.le_refl _)
    have hr : (w.run (.replicate k (.advance (.pump p)))).step (.advance (.pump p)) =
        (w.run (.replicate k (.advance (.pump p)))).retire (.pump p) := by
      simp [step, advance, hst, hs, hd]
    refine ⟨2 + (k + 1), ?_⟩
    rw [run_replicate_add, run_replicate_add, hb, List.replicate_one, run_singleton, hr]
    refine ⟨?session, ?stage⟩
    case session =>
      have hf := Client.Duplex.finish_closing v.session.call
      have hw : (w.run (.replicate k (.advance (.pump p)))).session = v.session.close.2 := by
        rw [hse, ← hv, Session.close, if_pos hc, ← hf]
        rfl
      exact congrArg (·.gone p) hw
    case stage =>
      have hb : ((v.enter (.pump p)).beginClose (.pump p)).stage =
          (v.put (.pump p) (.closing v.tasks.length)).stage := put_stage_congr rfl
      exact put_stage_congr (hst.trans (hv ▸ hb))

-- A pump that has still something to do to the call before it wants the guard.
theorem run_parting (hq : v.stage (.pump p) = .parting n) (ht : v.tasks[n]? = some t)
    (hn : ∀ r, (v.stage r).holds = false) :
    ∃ k, (v.run (.replicate k (.advance (.pump p)))).session =
        ({ v.session with call := (t.operation.deeds.foldl
          (fun (o, d) _ => Operation.proceed o d) (t.operation, v.session.call)).2 } :
          Session).close.2.gone p ∧
      (v.run (.replicate k (.advance (.pump p)))).stage = (v.put (.pump p) .over).stage := by
  obtain ⟨k, hd, hst, hse⟩ := run_deeds (.inl hq) ht t.operation.deeds (Nat.le_refl _)
  generalize hw : v.run (.replicate k (.advance (.pump p))) = w at hd hst hse
  have ha : w.step (.advance (.pump p)) = w.put (.pump p) .waiting := by
    simp [step, advance, hst, hq, hd]
  have hstage {last : Stage} : (w.put (.pump p) last).stage = (v.put (.pump p) last).stage := by
    simp only [put, hst]
  have hn' : ∀ r, ((w.put (.pump p) .waiting).stage r).holds = false := fun r => by
    rw [hstage]
    exact holds_put hn rfl r
  obtain ⟨l, h1, h2⟩ := run_waiting (put_stage ..) hn'
  refine ⟨k + (1 + l), ?_⟩
  rw [run_replicate_add, run_replicate_add, hw, List.replicate_one, run_singleton, ha]
  exact ⟨h1.trans (congrArg (·.close.2.gone p) hse), h2.trans ((put_stage_congr rfl).trans hstage)⟩

theorem run_panic (hp : v.stage (.pump p) = .working) (hn : ∀ r, (v.stage r).holds = false) :
    ∃ events, (v.run events).session = v.session.panic p ∧
      (v.run events).stage = (v.put (.pump p) .over).stage := by
  have hs : v.step (.panic p) =
      { v with session := v.session.noteOfPanic p }.put (.pump p) .waiting := by
    simp [step, panic, hp]
  have hn' : ∀ r, ((v.step (.panic p)).stage r).holds = false := fun r => by
    rw [hs]
    exact holds_put hn rfl r
  obtain ⟨k, h1, h2⟩ := run_waiting (hs ▸ put_stage ..) hn'
  refine ⟨.panic p :: .replicate k (.advance (.pump p)), h1.trans ?_, h2.trans ?_⟩
  · rw [hs, Session.panic, Session.close_gone]
    rfl
  · rw [hs]
    exact put_stage_congr rfl

-- A session that moves as a whole is one of the runs under the supervisor: a pump whose turn
-- nothing interrupts, from the turn to the end of the teardown, makes a move.
theorem run_move {s : Session} (hs : s ∈ v.session.moves p) (hp : v.stage (.pump p) = .working)
    (hn : ∀ r, (v.stage r).holds = false) :
    ∃ events, (v.run events).session = s ∧
      ((v.run events).stage = v.stage ∨ (v.run events).stage = (v.put (.pump p) .over).stage) := by
  obtain ⟨turn, ht, rfl⟩ := List.mem_map.mp hs
  obtain ⟨choice, hc⟩ := List.getElem?_of_mem ht
  cases turn
  case on s =>
    exact ⟨[.turn p choice], by simp [run, step, Supervision.turn, hp, hc, Session.Turn.result]⟩
  case out s last =>
    have hs : v.step (.turn p choice) = v.part p s last := by
      simp [step, Supervision.turn, hp, hc]
    have ht : (v.part p s last).tasks[v.tasks.length]? = some ⟨purpose last, .toDo last⟩ :=
      List.getElem?_concat_length
    have hq : (v.part p s last).stage (.pump p) = .parting v.tasks.length := put_stage ..
    have hn' : ∀ r, ((v.part p s last).stage r).holds = false := holds_put hn rfl
    obtain ⟨k, h1, h2⟩ := run_parting hq ht hn'
    refine ⟨.turn p choice :: .replicate k (.advance (.pump p)), ?_, .inr ?_⟩
    case _ =>
      rw [run_cons, hs, Session.Turn.result, Session.close_gone]
      exact h1
    case _ =>
      rw [run_cons, hs, h2]
      exact put_stage_congr rfl

end Supervision
end CallFabric.Gateway
