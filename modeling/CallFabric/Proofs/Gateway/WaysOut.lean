import CallFabric.Proofs.Gateway.Moves
import CallFabric.Proofs.Gateway.Relay
import CallFabric.Proofs.Gateway.Teardown

namespace CallFabric.Gateway

open Client (Contention)
open Client.Duplex (Deed)

namespace Session

-- Whoever works has its ends of the queues.
def Present (w : Pump → Prop) (s : Session) : Prop := ∀ p, w p → s.hasExited p = false

variable {s : Session} {t : Turn} {p : Pump}

-- A reader of a cancelled session can stop wherever it is.
theorem stop_mem_turns (hc : s.cancelled) (hp : p = .socketReader ∨ p = .callReader)
    (he : s.hasExited p = false) : s.stop p ∈ s.turns p := by
  have hon (q : Pump) : s.stop q ∈ s.onCancel q := by simp [onCancel, hc]
  obtain rfl | rfl := hp
  case inl =>
    rw [turns, socketReaderTurns]
    cases hh : s.socketReader
    case exited  => simp [hasExited, hh] at he
    case empty   => exact List.mem_append_left _ (hon _)
    case holding => exact List.mem_append_left _ (hon _)
  case inr =>
    rw [turns, callReaderTurns]
    cases hh : s.callReader
    case exited  => simp [hasExited, hh] at he
    case empty   => exact List.mem_append_left _ (List.mem_append_left _ (hon _))
    case holding => exact List.mem_append_left _ (hon _)

-- Who gives to the call gives up what it holds once the call sends nothing more.
theorem out_mem_callWriterTurns (hc : s.cancelled) (hs : s.call.sendClosed)
    (he : s.hasExited .callWriter = false) : ∃ s' last, .out s' last ∈ s.turns .callWriter := by
  rw [turns, callWriterTurns]
  cases hh : s.callWriter
  case exited => simp [hasExited, hh] at he
  case empty =>
    have hon : s.stop .callWriter ∈ s.onCancel .callWriter := by simp [onCancel, hc]
    exact ⟨_, _, List.mem_append_left _ hon⟩
  case holding payload =>
    refine ⟨s, .record Client.Duplex.sendAfterClose :: parting .callWriter, ?_⟩
    refine List.mem_append_left _ ?_
    simp [Client.Duplex.trySend, hs, afterSend]

theorem accepting_of_turn (h : t ∈ s.turns p) : t.session.accepting = s.accepting := by
  cases p
  case socketReader => cases socketReaderTurn h <;> rfl
  case callWriter   => cases callWriterTurn h <;> rfl
  case callReader   => cases callReaderTurn h <;> rfl
  case socketWriter => cases socketWriterTurn h <;> rfl

end Session

namespace Supervision

variable {v v' w : Supervision} {p : Pump} {q : Party} {n : Nat} {event : Event}

theorem retire_keeps (v : Supervision) (q : Party) :
    (v.retire q).session.closes = v.session.closes ∧
      (v.retire q).session.cancelled = v.session.cancelled ∧
      (v.retire q).session.accepting = v.session.accepting := by
  cases q
  case supervisor => exact ⟨rfl, rfl, rfl⟩
  case pump p     => cases p <;> exact ⟨rfl, rfl, rfl⟩

theorem Act.closes (h : Act v v') (hc : v.session.closes ≠ 0) : v'.session.closes ≠ 0 := by
  cases h
  case quiet h | stops h _ | wants h _ => exact h.closes ▸ hc
  case enters                             => exact Nat.one_ne_zero
  case passes q _ _ _ | leaves q _ _ _    => exact (v.retire_keeps _).1.symm ▸ hc
  case cancelCall | deed | begins | joins => exact hc

theorem Act.cancelled (h : Act v v') (hc : v.session.cancelled) : v'.session.cancelled := by
  cases h
  case quiet h | stops h _ | wants h _ => exact h.cancelled hc
  case begins                             => rfl
  case passes q _ _ _ | leaves q _ _ _    => exact (v.retire_keeps _).2.1.symm ▸ hc
  case cancelCall | deed | enters | joins => exact hc

theorem Phase.closes_of_over (h : v.Phase) (ho : v.stage (.pump p) = .over) :
    v.session.closes ≠ 0 := by
  cases h
  case before _ _ hn => exact absurd ho (hn p)
  case entered hc _ _ | closing hc _ _ _ _ _ | after hc _ _ _ => simp [hc]

-- The supervisor does not come to the guard before a pump was there.
def Attended (v : Supervision) : Prop :=
  v.stage .supervisor = .working ∨ v.stage .supervisor = .waiting ∧ v.session.closes ≠ 0

theorem stage_supervisor_advance (v : Supervision) (p : Pump) :
    (v.advance (.pump p)).stage .supervisor = v.stage .supervisor := by
  unfold advance
  split
  case h_1 | h_2 | h_5 => rfl
  case h_3 | h_6       => split <;> rfl
  case h_4 =>
    split
    case isTrue  => rfl
    case isFalse => split <;> rfl

theorem Attended.step (h : v.Attended) (hp : v.Phase) (event : Event) :
    (v.step event).Attended := by
  have hkeep (hs : (v.step event).stage .supervisor = v.stage .supervisor) :
      (v.step event).Attended := by
    refine h.imp hs.trans fun ⟨hw, hc⟩ => ⟨hs.trans hw, (v.act_step event).closes hc⟩
  cases event
  case turn p choice =>
    refine hkeep ?_
    simp only [Supervision.step, turn]
    split
    case isFalse => rfl
    case isTrue  => split <;> rfl
  case panic p =>
    refine hkeep ?_
    simp only [Supervision.step, panic]
    split
    case isTrue  => rfl
    case isFalse => rfl
  case advance q =>
    cases q
    case pump p => exact hkeep (v.stage_supervisor_advance p)
    case supervisor =>
      obtain hs | ⟨hs, hc⟩ := h
      case inl => exact .inl (by simp [Supervision.step, advance, hs])
      case inr =>
        rcases Bool.eq_false_or_eq_true v.held with hh | hh
        · exact .inr (by simp [Supervision.step, advance, hs, hh, hc])
        · exact .inl (by simp [Supervision.step, advance, hs, hh, hc, retire])
  case join p =>
    simp only [Supervision.step, join]
    split
    case isFalse => exact h
    case isTrue hj =>
      rcases Decidable.em (p ∈ v.session.panicked) with hm | hm
      · exact .inr ⟨by simp [hm], hp.closes_of_over hj.2.2⟩
      · exact .inl (by simp [hm])
  case peerTake =>
    refine hkeep ?_
    simp only [Supervision.step]
    split <;> rfl
  all_goals exact hkeep rfl

theorem present_effect {w w' : Pump → Prop} {s s' : Session} (h : s.Present w)
    (he : Effect w s event w' s') : s'.Present w' := by
  cases he
  case turn p choice t hp ht hw =>
    intro q hq
    have hs := h q (hw.worked hq)
    cases p
    case socketReader => cases Session.socketReaderTurn ht <;> cases q <;> first | exact hs | rfl
    case callWriter   => cases Session.callWriterTurn ht <;> cases q <;> first | exact hs | rfl
    case callReader   => cases Session.callReaderTurn ht <;> cases q <;> first | exact hs | rfl
    case socketWriter => cases Session.socketWriterTurn ht <;> cases q <;> first | exact hs | rfl
  case panics p hw => exact fun q hq => h q ((hw q).mp hq).1
  case leaves q p hp =>
    intro r hr
    have hs := h r hr
    have hn : r ≠ p := fun hn => hp (hn ▸ hr)
    cases p <;> cases r <;> first | exact hs | exact absurd rfl hn
  case aside _ _ hs => cases hs; exact h
  case delivers | arrives | peerTakes | peerLeaves => exact h

structure Orderly (v : Supervision) : Prop extends v.Sound where
  ended    : v.calls.Ended
  attended : v.Attended
  present  : v.session.Present v.Working

theorem Orderly.run (h : v.Orderly) (events : List Event) : (v.run events).Orderly := by
  induction events generalizing v
  case nil => exact h
  case cons event events hi =>
    obtain ⟨_, hc⟩ := (v.act_step event).change
    exact hi ⟨h.toSound.run [event], h.ended.change h.known.fits hc, h.attended.step h.phase event,
      present_effect h.present (v.effect event)⟩

theorem cancelled_run (hc : v.session.cancelled) (events : List Event) :
    (v.run events).session.cancelled := by
  induction events generalizing v
  case nil => exact hc
  case cons event events hi => exact hi ((v.act_step event).cancelled hc)

def Event.IsOfPump : Event → Prop
  | .turn _ _ | .advance (.pump _) => True
  | _                              => False

theorem accepting_step (h : event.IsOfPump) :
    (v.step event).session.accepting = v.session.accepting := by
  cases event
  case turn p choice =>
    simp only [step, turn]
    split
    case isFalse => rfl
    case isTrue =>
      split
      case h_1 ht | h_2 ht => exact Session.accepting_of_turn (List.mem_of_getElem? ht)
      case h_3             => rfl
  case advance q =>
    simp only [step, advance]
    split
    case h_1 | h_2 | h_5 => rfl
    case h_3 => split <;> rfl
    case h_4 =>
      split
      case isTrue  => rfl
      case isFalse => split <;> first | rfl | exact (v.retire_keeps q).2.2
    case h_6 => split <;> first | rfl | exact (v.retire_keeps q).2.2
  all_goals exact h.elim

-- What the pumps come to by themselves.
def Alone (v w : Supervision) : Prop := ∃ events, (∀ e ∈ events, e.IsOfPump) ∧ v.run events = w

namespace Alone

theorem refl (v : Supervision) : v.Alone v := ⟨[], by simp, rfl⟩

theorem trans {u : Supervision} (h : v.Alone w) (h' : w.Alone u) : v.Alone u := by
  obtain ⟨events, he, rfl⟩ := h
  obtain ⟨more, hm, rfl⟩ := h'
  exact ⟨events ++ more, List.forall_mem_append.mpr ⟨he, hm⟩, v.run_append events more⟩

theorem step (v : Supervision) (h : event.IsOfPump) : v.Alone (v.step event) :=
  ⟨[event], by simpa using h, rfl⟩

theorem advances (v : Supervision) (p : Pump) (k : Nat) :
    v.Alone (v.run (.replicate k (.advance (.pump p)))) := by
  refine ⟨_, fun event he => ?_, rfl⟩
  rw [List.eq_of_mem_replicate he]
  trivial

theorem turn {s : Session} (hp : v.Working p) (ht : .on s ∈ v.session.turns p) :
    v.Alone { v with session := s } := by
  obtain ⟨choice, hc⟩ := List.getElem?_of_mem ht
  have hp : v.stage (.pump p) = .working := hp
  have hs : v.step (.turn p choice) = { v with session := s } := by
    simp [Supervision.step, Supervision.turn, hp, hc]
  exact hs ▸ .step v trivial

theorem orderly (h : v.Alone w) (ho : v.Orderly) : w.Orderly := by
  obtain ⟨events, -, rfl⟩ := h
  exact ho.run events

theorem cancelled (h : v.Alone w) (hc : v.session.cancelled) : w.session.cancelled := by
  obtain ⟨events, -, rfl⟩ := h
  exact cancelled_run hc events

theorem accepting (h : v.Alone w) : w.session.accepting = v.session.accepting := by
  obtain ⟨events, he, rfl⟩ := h
  induction events generalizing v
  case nil => rfl
  case cons event events hi =>
    exact (hi fun e hm => he e (.tail _ hm)).trans (accepting_step (he event (.head _)))

end Alone

-- A pump got out, and all others are where they were.
def Out (v : Supervision) (p : Pump) (w : Supervision) : Prop :=
  v.Alone w ∧ w.stage = (v.put (.pump p) .over).stage

namespace Out

theorem stage_self (h : v.Out p w) : w.stage (.pump p) = .over := by
  rw [h.2, put_stage]

theorem stage_of_ne (h : v.Out p w) (hq : q ≠ .pump p) : w.stage q = v.stage q := by
  rw [h.2, put_stage_ne _ _ hq]

theorem holds (h : v.Out p w) (hn : ∀ r, (v.stage r).holds = false) (r : Party) :
    (w.stage r).holds = false :=
  h.2 ▸ holds_put hn rfl r

theorem of_stage {u : Supervision} (ha : v.Alone u) (h : u.Out p w)
    (hs : ∀ q, q ≠ .pump p → u.stage q = v.stage q) : v.Out p w := by
  refine ⟨ha.trans h.1, funext fun q => ?_⟩
  rcases Decidable.em (q = .pump p) with rfl | hq
  · rw [h.stage_self, put_stage]
  · rw [h.stage_of_ne hq, hs q hq, put_stage_ne _ _ hq]

theorem of_waiting (hp : v.stage (.pump p) = .waiting) (hn : ∀ r, (v.stage r).holds = false) :
    ∃ w, v.Out p w := by
  obtain ⟨k, -, hs⟩ := run_waiting hp hn
  exact ⟨_, .advances v p k, hs⟩

theorem of_parting (hp : v.stage (.pump p) = .parting n) (hn : ∀ r, (v.stage r).holds = false) :
    ∃ w, v.Out p w := by
  cases ht : v.tasks[n]?
  case some t =>
    obtain ⟨k, -, hs⟩ := run_parting hp ht hn
    exact ⟨_, .advances v p k, hs⟩
  case none =>
    have ha : v.step (.advance (.pump p)) = v.put (.pump p) .waiting := by
      simp [Supervision.step, advance, hp, isDone, ht]
    obtain ⟨w, hw⟩ := of_waiting (v.put_stage (.pump p) .waiting) (holds_put hn rfl)
    exact ⟨w, .of_stage (ha ▸ .step v trivial) hw fun q hq => put_stage_ne _ _ hq⟩

theorem of_closing (hp : v.stage (.pump p) = .closing n) : ∃ w, v.Out p w := by
  have hleave {u : Supervision} (hu : u.stage (.pump p) = .closing n) (hd : u.isDone n) :
      u.Out p (u.step (.advance (.pump p))) := by
    refine ⟨.step u trivial, ?_⟩
    simp only [Supervision.step, advance, hu, hd, if_pos]
    rfl
  cases ht : v.tasks[n]?
  case none => exact ⟨_, hleave hp (by simp [isDone, ht])⟩
  case some t =>
    obtain ⟨k, hd, hs, -⟩ := run_deeds (.inr hp) ht t.operation.deeds (Nat.le_refl _)
    exact ⟨_, .of_stage (.advances v p k) (hleave (hs ▸ hp) hd) fun q _ => congrFun hs q⟩

theorem of_entered (hp : v.stage (.pump p) = .entered) : ∃ w, v.Out p w := by
  have ha : v.step (.advance (.pump p)) = v.beginClose (.pump p) := by
    simp [Supervision.step, advance, hp]
  obtain ⟨w, hw⟩ := of_closing (v := v.beginClose (.pump p)) (put_stage ..)
  exact ⟨w, .of_stage (ha ▸ .step v trivial) hw fun q hq => put_stage_ne _ _ hq⟩

-- Whoever has stopped to work gets out.
theorem of_stopped (hp : ¬ v.Working p)
    (hn : (v.stage (.pump p)).holds ∨ ∀ r, (v.stage r).holds = false) : ∃ w, v.Out p w := by
  have hn' (hh : (v.stage (.pump p)).holds = false) : ∀ r, (v.stage r).holds = false :=
    hn.resolve_left (by simp [hh])
  cases hs : v.stage (.pump p)
  case working   => exact absurd hs hp
  case parting n => exact of_parting hs (hn' (by simp [hs, Stage.holds]))
  case waiting   => exact of_waiting hs (hn' (by simp [hs, Stage.holds]))
  case entered   => exact of_entered hs
  case closing n => exact of_closing hs
  case _ =>
    refine ⟨v, .refl v, funext fun q => ?_⟩
    rcases Decidable.em (q = .pump p) with rfl | hq
    · rw [hs, put_stage]
    · rw [put_stage_ne _ _ hq]

theorem of_turn {s : Session} {last : List Deed} (hp : v.Working p)
    (ht : .out s last ∈ v.session.turns p) (hn : ∀ r, (v.stage r).holds = false) :
    ∃ w, v.Out p w := by
  obtain ⟨choice, hc⟩ := List.getElem?_of_mem ht
  have hs : v.step (.turn p choice) = v.part p s last := by
    simp [Supervision.step, turn, show v.stage (.pump p) = .working from hp, hc]
  obtain ⟨w, hw⟩ := of_parting (v := v.part p s last) (put_stage ..) (holds_put hn rfl)
  exact ⟨w, .of_stage (hs ▸ .step v trivial) hw fun q hq => put_stage_ne _ _ hq⟩

end Out

theorem Orderly.holds_supervisor (h : v.Orderly) : (v.stage .supervisor).holds = false := by
  obtain hs | ⟨hs, -⟩ := h.attended <;> simp [hs, Stage.holds]

theorem Orderly.unguarded (h : v.Orderly) :
    ∃ w, v.Alone w ∧ (∀ r, (w.stage r).holds = false) ∧ w.Working = v.Working := by
  -- Only one party holds the guard, and it is a pump.
  have hout {q : Party} (hq : (v.stage q).holds) (hone : ∀ r, (v.stage r).holds → r = q) :
      ∃ w, v.Alone w ∧ (∀ r, (w.stage r).holds = false) ∧ w.Working = v.Working := by
    cases q
    case supervisor => simp [h.holds_supervisor] at hq
    case pump p =>
      have hp : ¬ v.Working p := fun hp => by
        simp [show v.stage (.pump p) = .working from hp, Stage.holds] at hq
      obtain ⟨w, hw⟩ := Out.of_stopped hp (.inl hq)
      refine ⟨w, hw.1, fun r => ?_, ?_⟩
      case _ =>
        rcases Decidable.em (r = .pump p) with rfl | hr
        · simp [hw.stage_self, Stage.holds]
        · exact hw.stage_of_ne hr ▸ Bool.eq_false_iff.mpr (mt (hone r) hr)
      case _ => exact (working_congr hw.2).trans (working_put hp (by simp))
  cases h.phase
  case before _ hn _ | after _ hn _ _ => exact ⟨v, .refl v, hn, rfl⟩
  case entered q _ hq hone             => exact hout (by rw [hq]; rfl) hone
  case closing q n t _ hq hone _ _ _   => exact hout (by rw [hq]; rfl) hone

-- The pump that writes to a socket that takes everything comes to its last frame and writes it.
theorem Orderly.begins_close (h : v.Orderly) (hc : v.session.cancelled)
    (ha : v.session.accepting) (hp : v.Working .socketWriter) :
    ∃ w, v.Alone w ∧ w.stage = v.stage ∧
      ∃ s last, .out s last ∈ w.session.turns .socketWriter := by
  have hclosing {s : Session} (hs : s.accepting) (hw : s.socketWriter = .closing) :
      ∃ s' last, .out s' last ∈ s.turns .socketWriter := by
    simp [Session.turns, Session.socketWriterTurns, hs, hw, Session.stop]
  have hidle {s : Session} (hs : s.cancelled) (hw : s.socketWriter = .idle) :
      .on s.beginClose ∈ s.turns .socketWriter := by
    simp [Session.turns, Session.socketWriterTurns, hs, hw]
  cases hw : v.session.socketWriter
  case exited =>
    have he := h.present .socketWriter hp
    simp [Session.hasExited, hw] at he
  case closing => exact ⟨v, .refl v, rfl, hclosing ha hw⟩
  case idle    => exact ⟨_, .turn hp (hidle hc hw), rfl, hclosing ha rfl⟩
  case writing message =>
    cases hb : v.session.broken
    case true =>
      have ht : .on v.session.beginClose ∈ v.session.turns .socketWriter := by
        simp [Session.turns, Session.socketWriterTurns, hw, ha, hb]
      exact ⟨_, .turn hp ht, rfl, hclosing ha rfl⟩
    case false =>
      have ht : .on { v.session with
          socketWriter := .idle, written := v.session.written ++ [message] } ∈
            v.session.turns .socketWriter := by
        simp [Session.turns, Session.socketWriterTurns, hw, ha, hb]
      have hwritten := Alone.turn hp ht
      exact ⟨_, hwritten.trans (.turn hp (hidle hc rfl)), rfl, hclosing ha rfl⟩

-- Who gives to the call gets out once nobody else has anything to do to it.
theorem Orderly.sendClosed (h : v.Orderly) (hn : ∀ r, (v.stage r).holds = false)
    (hreader : v.stage (.pump .socketReader) = .over)
    (hn' : ∀ p n, v.stage (.pump p) ≠ .parting n) : v.session.call.sendClosed := by
  have hclosed : v.session.call.closed := by
    cases h.phase
    case before _ _ ho              => exact absurd hreader (ho _)
    case entered q _ hq _           => simpa [hq, Stage.holds] using hn q
    case closing q n t _ hq _ _ _ _ => simpa [hq, Stage.holds] using hn q
    case after _ _ _ hd             => exact hd
  refine h.ended.sendClosed hclosed fun t ht => ?_
  obtain ⟨i, hi⟩ := List.getElem?_of_mem ht
  refine Decidable.by_contra fun ho => ?_
  obtain ⟨q, hq | hq⟩ := h.owned i t hi (Bool.eq_false_iff.mpr ho)
  case inr => simpa [hq, Stage.holds] using hn q
  case inl =>
    cases q
    case supervisor => obtain hs | ⟨hs, -⟩ := h.attended <;> simp [hs] at hq
    case pump p     => exact hn' p i hq

-- A pump that comes to where it can stop, if it works, gets out.
theorem Out.of_stopping (hn : ∀ r, (v.stage r).holds = false)
    (hp : v.Working p → ∃ w, v.Alone w ∧ w.stage = v.stage ∧
      ∃ s last, .out s last ∈ w.session.turns p) : ∃ w, v.Out p w := by
  rcases Decidable.em (v.stage (.pump p) = .working) with hw | hw
  case inr => exact Out.of_stopped hw (.inr hn)
  case inl =>
    obtain ⟨u, ha, hs, s, last, ht⟩ := hp hw
    obtain ⟨w, hw⟩ := Out.of_turn (show u.Working p from (congrFun hs _).trans hw) ht (hs ▸ hn)
    exact ⟨w, .of_stage ha hw fun q _ => congrFun hs q⟩

theorem Orderly.reader_out (h : v.Orderly) (hc : v.session.cancelled)
    (hn : ∀ r, (v.stage r).holds = false) (hp : p = .socketReader ∨ p = .callReader) :
    ∃ w, v.Out p w := by
  refine Out.of_stopping hn fun hw => ⟨v, .refl v, rfl, v.session, Session.parting p, ?_⟩
  exact Session.stop_mem_turns hc hp (h.present p hw)

theorem Orderly.callWriter_out (h : v.Orderly) (hc : v.session.cancelled)
    (hn : ∀ r, (v.stage r).holds = false) (hr : v.stage (.pump .socketReader) = .over)
    (hr' : v.stage (.pump .callReader) = .over)
    (hs : v.stage (.pump .socketWriter) = .over ∨ v.Working .socketWriter) :
    ∃ w, v.Out .callWriter w := by
  refine Out.of_stopping hn fun hw => ⟨v, .refl v, rfl, ?_⟩
  refine Session.out_mem_callWriterTurns hc (h.sendClosed hn hr fun p n hp => ?_) (h.present _ hw)
  cases p
  case socketReader => simp [hr] at hp
  case callReader   => simp [hr'] at hp
  case callWriter   => simp [show v.stage (.pump .callWriter) = .working from hw] at hp
  case socketWriter => obtain hs | hs := hs <;> simp [hs, show _ = _ from hs] at hp

-- The pump that writes to the socket, as far as it comes; it gets out where the socket takes
-- everything or it works no more.
theorem Orderly.socketWriter_out (h : v.Orderly) (hc : v.session.cancelled)
    (hn : ∀ r, (v.stage r).holds = false) :
    ∃ w, v.Alone w ∧ (∀ q, q ≠ .pump .socketWriter → w.stage q = v.stage q) ∧
      (∀ r, (w.stage r).holds = false) ∧
      (w.stage (.pump .socketWriter) = .over ∨ w.Working .socketWriter) ∧
      (v.session.accepting ∨ ¬ v.Working .socketWriter →
        w.stage (.pump .socketWriter) = .over) := by
  rcases Decidable.em (v.session.accepting ∨ ¬ v.Working .socketWriter) with hf | hf
  case inr =>
    have hw : v.Working .socketWriter := by simpa using (not_or.mp hf).2
    exact ⟨v, .refl v, fun _ _ => rfl, hn, .inr hw, fun h => absurd h hf⟩
  case inl =>
    obtain ⟨w, hw⟩ := Out.of_stopping hn fun hw =>
      h.begins_close hc (hf.resolve_right fun hn => hn hw) hw
    have ho := hw.stage_self
    exact ⟨w, hw.1, fun _ => hw.stage_of_ne, hw.holds hn, .inl ho, fun _ => ho⟩

theorem Orderly.out (h : v.Orderly) (hc : v.session.cancelled) :
    ∃ w, v.Alone w ∧ (∀ p, p ≠ .socketWriter → w.stage (.pump p) = .over) ∧
      (v.session.accepting ∨ ¬ v.Working .socketWriter →
        w.stage (.pump .socketWriter) = .over) := by
  obtain ⟨v₀, ha₀, hn₀, hw₀⟩ := h.unguarded
  obtain ⟨v₁, h₁⟩ := (ha₀.orderly h).reader_out (ha₀.cancelled hc) hn₀ (.inl rfl)
  have ha₁ := ha₀.trans h₁.1
  obtain ⟨v₂, h₂⟩ := (ha₁.orderly h).reader_out (ha₁.cancelled hc) (h₁.holds hn₀) (.inr rfl)
  have ha₂ := ha₁.trans h₂.1
  have hw₂ : v₂.Working .socketWriter ↔ v.Working .socketWriter := by
    have hs : v₂.stage (.pump .socketWriter) = v₀.stage (.pump .socketWriter) :=
      (h₂.stage_of_ne (by simp)).trans (h₁.stage_of_ne (by simp))
    rw [Working, hs]
    exact iff_of_eq (congrFun hw₀ _)
  obtain ⟨v₃, ha₃, hs₃, hn₃, hw₃, hout⟩ :=
    (ha₂.orderly h).socketWriter_out (ha₂.cancelled hc) (h₂.holds (h₁.holds hn₀))
  rw [ha₂.accepting, hw₂] at hout
  have ha₃ := ha₂.trans ha₃
  have hsocket : v₃.stage (.pump .socketReader) = .over :=
    (hs₃ _ (by simp)).trans ((h₂.stage_of_ne (by simp)).trans h₁.stage_self)
  have hcall : v₃.stage (.pump .callReader) = .over := (hs₃ _ (by simp)).trans h₂.stage_self
  obtain ⟨v₄, h₄⟩ :=
    (ha₃.orderly h).callWriter_out (ha₃.cancelled hc) hn₃ hsocket hcall hw₃
  refine ⟨v₄, ha₃.trans h₄.1, fun p hp => ?_, fun hf => (h₄.stage_of_ne (by simp)).trans (hout hf)⟩
  cases p
  case socketReader => exact (h₄.stage_of_ne (by simp)).trans hsocket
  case callReader   => exact (h₄.stage_of_ne (by simp)).trans hcall
  case callWriter   => exact h₄.stage_self
  case socketWriter => exact absurd rfl hp

-- While the socket takes nothing, the pump that writes to it does not stop.
structure Stalled (v : Supervision) : Prop where
  working   : v.Working .socketWriter
  accepting : v.session.accepting = false

theorem Stalled.step (h : v.Stalled) (he : event.IsOfPump) : (v.step event).Stalled := by
  refine ⟨?working, (accepting_step he).trans h.accepting⟩
  have hw := h.working
  have hf := v.effect event
  generalize (v.step event).Working = w', (v.step event).session = s' at hf ⊢
  cases hf
  case turn p choice t hp ht hl =>
    refine (hl _).mpr ⟨hw, ?_⟩
    rintro rfl
    cases Session.socketWriterTurn ht
    case leaves _ _ ha _ => simp [h.accepting] at ha
    all_goals trivial
  case leaves | aside => exact hw
  all_goals exact he.elim

theorem Stalled.alone (h : v.Stalled) (ha : v.Alone w) : w.Stalled := by
  obtain ⟨events, he, rfl⟩ := ha
  induction events generalizing v
  case nil => exact h
  case cons event events hi => exact hi (h.step (he event (.head _))) fun e hm => he e (.tail _ hm)

theorem Orderly.started (codec : Codec) (capacity : Nat) (before : List Contention.Event)
    (pingPeriod : Time)
    (ho : ∀ t ∈ ((Contention.opened codec capacity).run before).tasks, t.isOver) :
    (started ((Contention.opened codec capacity).run before) pingPeriod).Orderly := by
  have hf := Contention.Fits.opened codec capacity
  have hcall : ((Contention.opened codec capacity).run before).Open ∨
      ∃ i e, ((Contention.opened codec capacity).run before).ClosedBy i e := by
    rcases (Contention.Open.opened codec capacity).run hf before with ho | hb
    case inl => exact .inl ho
    case inr =>
      obtain ⟨_, i, _, _, _, _, hb⟩ := hb
      exact .inr ⟨i, _, hb⟩
  have hended : (Contention.opened codec capacity).Ended := by
    simp [Contention.Ended, Contention.opened, Client.Duplex.opened]
  exact {
    toSound  := .started (hf.run before) hcall ho pingPeriod
    ended    := hended.run hf before
    attended := .inl rfl
    present  := fun p _ => by cases p <;> rfl
  }

-- A session over a call that is in nobody's hands any more, whatever was done to it before, and
-- whatever has become of it until it was cancelled. From then on the other sides take and give
-- nothing, but for the socket that may take what is written. Where it does not, the pumps that read
-- and the one that gives to the call get out by themselves all the same, and the pump that writes
-- to the socket gets out exactly if it had stopped already. Where it does, all four get out.
theorem ways_out (codec : Codec) (capacity : Nat) (before : List Contention.Event)
    (pingPeriod : Time) (events : List Event)
    (ho : ∀ t ∈ ((Contention.opened codec capacity).run before).tasks, t.isOver)
    (hc : ((started ((Contention.opened codec capacity).run before) pingPeriod).run
      events).session.cancelled) :
    let v := (started ((Contention.opened codec capacity).run before) pingPeriod).run events
    (∃ w, (v.step (.accept false)).Alone w ∧
      ∀ p, p ≠ .socketWriter → w.stage (.pump p) = .over) ∧
    ((∃ w, (v.step (.accept false)).Alone w ∧ ∀ p, w.stage (.pump p) = .over) ↔
      v.stage (.pump .socketWriter) ≠ .working) ∧
    ∃ w, (v.step (.accept true)).Alone w ∧ ∀ p, w.stage (.pump p) = .over := by
  intro v
  have h : v.Orderly := (Orderly.started codec capacity before pingPeriod ho).run events
  have hstep (accepting : Bool) : (v.step (.accept accepting)).Orderly := h.run [.accept accepting]
  have hall {w : Supervision} (hw : ∀ p, p ≠ .socketWriter → w.stage (.pump p) = .over)
      (hs : w.stage (.pump .socketWriter) = .over) (p : Pump) : w.stage (.pump p) = .over := by
    rcases Decidable.em (p = .socketWriter) with rfl | hp
    · exact hs
    · exact hw p hp
  obtain ⟨w, ha, hw, hs⟩ := (hstep false).out hc
  obtain ⟨w', ha', hw', hs'⟩ := (hstep true).out hc
  refine ⟨⟨w, ha, hw⟩, ⟨fun ⟨u, hu, ho⟩ hv => ?_, fun hv => ?_⟩, w', ha', ?_⟩
  case _ =>
    have hstalled : (v.step (.accept false)).Stalled := ⟨hv, rfl⟩
    have hstill := (hstalled.alone hu).working
    simp [Working, ho] at hstill
  case _ => exact ⟨w, ha, hall hw (hs (.inr hv))⟩
  case _ => exact hall hw' (hs' (.inl rfl))

-- The session was cancelled while all its pumps worked.
theorem ways_out_of_cancelled :
    let v := (started ((Contention.opened .json 16).run []) millisecond).run [.cancelSession]
    v.session.cancelled ∧
      (∃ w, (v.step (.accept false)).Alone w ∧
        ∀ p, p ≠ .socketWriter → w.stage (.pump p) = .over) ∧
      (¬ ∃ w, (v.step (.accept false)).Alone w ∧ ∀ p, w.stage (.pump p) = .over) ∧
      ∃ w, (v.step (.accept true)).Alone w ∧ ∀ p, w.stage (.pump p) = .over :=
  have h := ways_out .json 16 [] millisecond [.cancelSession] (by decide) rfl
  ⟨rfl, h.1, mt h.2.1.mp (fun hs => hs rfl), h.2.2⟩

-- Nothing that the pumps do by themselves lets the last of them out.
theorem stalled_never_out :
    let v := (started ((Contention.opened .json 16).run []) millisecond).run
      [.cancelSession, .accept false]
    v.session.cancelled ∧ ¬ ∃ w, v.Alone w ∧ ∀ p, w.stage (.pump p) = .over := by
  intro v
  have hv : v.Stalled := ⟨rfl, rfl⟩
  refine ⟨rfl, fun ⟨w, ha, hw⟩ => ?_⟩
  have hs := (hv.alone ha).working
  simp [Working, hw] at hs

end Supervision
end CallFabric.Gateway
