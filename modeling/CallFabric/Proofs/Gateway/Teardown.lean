import CallFabric.Gateway.Supervision
import CallFabric.Proofs.Client.Closing

namespace CallFabric.Gateway

open Client (Contention Task)
open Client.Duplex (Deed Operation SendOutcome Receipt closing)

namespace Session

-- What a turn leaves as it is, but for a cancellation that may come.
structure Quiet (s s' : Session) : Prop where
  call      : s.call.Quiet s'.call
  closes    : s'.closes = s.closes
  cancelled : s.cancelled → s'.cancelled

variable {s s' : Session}

theorem Quiet.of_call (hc : s.call.Quiet s'.call) (hn : s'.closes = s.closes := by rfl)
    (hk : s'.cancelled = s.cancelled := by rfl) : s.Quiet s' :=
  ⟨hc, hn, hk.trans⟩

theorem Quiet.aside (hc : s'.call = s.call := by rfl) (hn : s'.closes = s.closes := by rfl)
    (hk : s'.cancelled = s.cancelled := by rfl) : s.Quiet s' :=
  .of_call (hc ▸ .refl _) hn hk

theorem Quiet.beginWrite (h : s.Quiet s') (message : SocketMessage) :
    s.Quiet (s'.beginWrite message) :=
  ⟨h.call, h.closes, h.cancelled⟩

-- The turn is quiet, and what a pump that stops still does to the call is one operation.
def Sound (s : Session) : Turn → Prop
  | .on s'       => s.Quiet s'
  | .out s' last => s.Quiet s' ∧ ∀ b, Task.Fits b ⟨Supervision.purpose last, .toDo last⟩

def AllSound (s : Session) (ts : List Turn) : Prop := ∀ t ∈ ts, s.Sound t

namespace AllSound

theorem nil : s.AllSound [] := fun _ h => absurd h List.not_mem_nil

theorem one {t : Turn} (h : s.Sound t) : s.AllSound [t] := fun _ ht => List.mem_singleton.mp ht ▸ h

theorem append {ts us : List Turn} (ht : s.AllSound ts) (hu : s.AllSound us) :
    s.AllSound (ts ++ us) :=
  fun t h => (List.mem_append.mp h).elim (ht t) (hu t)

theorem stop (h : s.Quiet s') (p : Pump) : s.AllSound [s'.stop p] := by
  refine .one ⟨h, fun _ => ?_⟩
  cases p <;> exact .aside _ _ rfl (by simp [parting, Deed.isAside])

theorem onCancel (p : Pump) : s.AllSound (s.onCancel p) := by
  unfold Session.onCancel
  split
  case isTrue  => exact .stop .aside p
  case isFalse => exact .nil

theorem readFrame : s.AllSound s.readFrame := by
  unfold Session.readFrame
  split
  case h_1 => exact .one .aside
  case h_7 =>
    split
    case isTrue  => exact .stop .aside _
    case isFalse => exact .nil
  case h_3 | h_4 => exact .one .aside
  all_goals exact .stop .aside _

theorem afterSend (payload : Bytes) {r : SendOutcome × Client.Duplex} (h : s.call.Quiet r.2) :
    s.AllSound (s.afterSend payload r) := by
  obtain ⟨outcome, call⟩ := r
  cases outcome
  case sent     => exact .one (.of_call h)
  case failed f =>
    exact .one ⟨.of_call h, fun _ => .aside _ _ rfl (by simp [parting, Deed.isAside])⟩
  case waiting  => exact .nil

theorem afterReceive {r : Receipt Bytes × Client.Duplex} (h : s.call.Quiet r.2) :
    s.AllSound (s.afterReceive r) := by
  obtain ⟨receipt, call⟩ := r
  cases receipt
  case value    => exact .one (.of_call h)
  case ended    => exact .one ⟨.of_call h, fun _ => .trying _ rfl⟩
  case failed f => exact .one ⟨.of_call h, fun _ => .failing _ f rfl⟩
  case waiting  => exact .nil

theorem socketReader : s.AllSound s.socketReaderTurns := by
  unfold socketReaderTurns
  split
  case h_1 => exact .nil
  case h_2 => exact .append (.onCancel _) .readFrame
  case h_3 =>
    refine .append (.onCancel _) ?_
    split
    case isTrue => exact .stop .aside _
    case isFalse =>
      split
      case isTrue  => exact .one .aside
      case isFalse => exact .nil

theorem callWriter : s.AllSound s.callWriterTurns := by
  unfold callWriterTurns
  split
  case h_1 => exact .nil
  case h_2 =>
    refine .append (.onCancel _) ?_
    split
    case h_1 =>
      dsimp only
      split
      case isTrue  => exact .stop .aside _
      case isFalse => exact .one .aside
    case h_2 =>
      split
      case isTrue  => exact .stop .aside _
      case isFalse => exact .nil
  case h_3 payload _ =>
    refine .append (.afterSend _ (.trySend ..)) ?_
    split
    case isTrue  => exact .afterSend _ (.trySend ..)
    case isFalse => exact .nil

theorem callReader : s.AllSound s.callReaderTurns := by
  unfold callReaderTurns
  split
  case h_1 => exact .nil
  case h_2 =>
    refine .append (.append (.onCancel _) (.afterReceive (.tryReceive ..))) ?_
    split
    case isTrue  => exact .afterReceive (.tryReceive ..)
    case isFalse => exact .nil
  case h_3 =>
    refine .append (.onCancel _) ?_
    split
    case isTrue => exact .stop .aside _
    case isFalse =>
      split
      case isTrue  => exact .one .aside
      case isFalse => exact .nil

theorem socketWriter : s.AllSound s.socketWriterTurns := by
  unfold socketWriterTurns
  split
  case h_1 => exact .nil
  case h_2 =>
    refine .append (.append ?_ ?_) ?_
    · split
      case isTrue  => exact .one .aside
      case isFalse => exact .nil
    · split
      case isTrue  => exact .one (Quiet.beginWrite .aside _)
      case isFalse => exact .nil
    · split
      case h_1 => exact .one (Quiet.beginWrite .aside _)
      case h_2 =>
        split
        case isTrue  => exact .one .aside
        case isFalse => exact .nil
  case h_3 =>
    split
    case isTrue => exact .nil
    case isFalse =>
      split
      case isTrue  => exact .one .aside
      case isFalse => exact .one .aside
  case h_4 =>
    split
    case isTrue  => exact .nil
    case isFalse => exact .stop .aside _

theorem turns (p : Pump) : s.AllSound (s.turns p) := by
  cases p <;> rw [Session.turns]
  case socketReader => exact socketReader
  case socketWriter => exact socketWriter
  case callWriter   => exact callWriter
  case callReader   => exact callReader

end AllSound
end Session

namespace Supervision

-- What an event comes to. The turns of the pumps leave alone what the teardown is about, and what
-- is done to the call is done as to any call in the hands of many; that leaves the guard.
inductive Act (v : Supervision) : Supervision → Prop
  | quiet (session) (h : v.session.Quiet session) : Act v { v with session }
  | cancelCall : Act v { v.onCall v.session.call.cancel with cancelledOutside := true }
  | stops (p session last) (hp : v.stage (.pump p) = .working) (h : v.session.Quiet session)
    (hf : ∀ b, Task.Fits b ⟨purpose last, .toDo last⟩) : Act v (v.part p session last)
  | wants (q session) (h : v.session.Quiet session)
    (hq : v.stage q = .working ∨ ∃ n, v.stage q = .parting n ∧ v.isDone n) :
    Act v ({ v with session }.put q .waiting)
  | deed (n) : Act v (v.deed n)
  | enters (q) (hq : v.stage q = .waiting) (hh : ∀ r, (v.stage r).holds = false)
    (hc : v.session.closes = 0) : Act v (v.enter q)
  | begins (q) (hq : v.stage q = .entered) : Act v (v.beginClose q)
  | passes (q) (hq : v.stage q = .waiting) (hh : ∀ r, (v.stage r).holds = false)
    (hc : v.session.closes ≠ 0) : Act v (v.retire q)
  | leaves (q n) (hq : v.stage q = .closing n) (hd : v.isDone n) : Act v (v.retire q)
  | joins (p stage) (hs : v.stage .supervisor = .working) (hp : p ∈ v.running)
    (ho : v.stage (.pump p) = .over) (hw : stage = .working ∨ stage = .waiting) :
    Act v ({ v with running := v.running.erase p, exited := v.exited + 1 }.put .supervisor stage)

variable {v v' : Supervision} {q r : Party} {p : Pump} {n : Nat}

theorem act_refl : Act v v := .quiet v.session .aside

theorem act_turn (p : Pump) (choice : Nat) : Act v (v.turn p choice) := by
  unfold turn
  split
  case isFalse => exact act_refl
  case isTrue hp =>
    split
    case h_1 session h => exact .quiet session (Session.AllSound.turns p _ (List.mem_of_getElem? h))
    case h_2 session last h =>
      have hs := Session.AllSound.turns p _ (List.mem_of_getElem? h)
      exact .stops p session last hp hs.1 hs.2
    case h_3 => exact act_refl

theorem act_advance (q : Party) : Act v (v.advance q) := by
  unfold advance
  split
  case h_1 | h_2 => exact act_refl
  case h_3 n hq =>
    split
    case isTrue hd => exact .wants q v.session .aside (.inr ⟨n, hq, hd⟩)
    case isFalse   => exact .deed n
  case h_4 hq =>
    split
    case isTrue => exact act_refl
    case isFalse hh =>
      have hh := held_eq_false.mp (Bool.not_eq_true _ ▸ hh)
      split
      case isTrue hc  => exact .enters q hq hh hc
      case isFalse hc => exact .passes q hq hh hc
  case h_5 hq => exact .begins q hq
  case h_6 n hq =>
    split
    case isTrue hd => exact .leaves q n hq hd
    case isFalse   => exact .deed n

theorem act_join (p : Pump) : Act v (v.join p) := by
  unfold join
  split
  case isFalse => exact act_refl
  case isTrue h =>
    obtain ⟨hs, hp, ho⟩ := h
    refine .joins p _ hs hp ho ?_
    split
    case isTrue  => exact .inr rfl
    case isFalse => exact .inl rfl

theorem act_step (v : Supervision) (event : Event) : Act v (v.step event) := by
  cases event
  case turn p choice => exact act_turn p choice
  case advance q     => exact act_advance q
  case join p        => exact act_join p
  case panic p =>
    simp only [step, panic]
    split
    case isTrue hp => exact .wants _ _ .aside (.inl hp)
    case isFalse   => exact act_refl
  case deliver f =>
    refine .quiet _ ?_
    unfold Session.deliver
    split
    case isTrue  => exact .aside
    case isFalse => split <;> exact .aside
  case cancelSession => exact .quiet _ ⟨.refl _, rfl, fun _ => rfl⟩
  case cancelCall    => exact .cancelCall
  case peerTake =>
    simp only [step]
    split
    case h_1 h => exact .quiet _ (.of_call (.peerTake h))
    case h_2   => exact act_refl
  case arrive | endInbound | leave => exact .quiet _ (.of_call ⟨rfl, rfl, rfl, rfl, rfl⟩)
  all_goals exact .quiet _ .aside

theorem retire_call (v : Supervision) (q : Party) : (v.retire q).calls = v.calls := by
  cases q
  case supervisor => rfl
  case pump p     => cases p <;> rfl

theorem deed_calls (v : Supervision) (n : Nat) : (v.deed n).calls = v.calls.proceed n := by
  simp only [deed, calls, Contention.proceed]
  split <;> rfl

-- Whatever is done to the call is done as by any of those who have it in their hands.
theorem Act.change (h : Act v v') : ∃ event, Contention.Change v.calls event v'.calls := by
  cases h
  case quiet session h        => exact ⟨.close, .quiet session.call h.call⟩
  case cancelCall             => exact ⟨.cancel, .cancelled⟩
  case stops p session last hp h hf => exact ⟨.close, .begun session.call _ h.call hf rfl⟩
  case wants q session h hq   => exact ⟨.close, .quiet session.call h.call⟩
  case enters                 => exact ⟨.close, .quiet _ (.refl _)⟩
  case begins                 => exact ⟨.close, .begun _ _ (.refl _) (fun _ => .trying _ rfl) rfl⟩
  case joins                  => exact ⟨.close, .quiet _ (.refl _)⟩
  case passes q hq hh hc      => exact ⟨.close, v.retire_call q ▸ .quiet _ (.refl _)⟩
  case leaves q n hq hd       => exact ⟨.close, v.retire_call q ▸ .quiet _ (.refl _)⟩
  case deed n =>
    refine ⟨.proceed n, ?_⟩
    rw [deed_calls]
    cases ht : v.tasks[n]?
    case some t => exact .deed n t ht
    case none =>
      have hn : v.calls.proceed n = v.calls := by simp [Contention.proceed, calls, ht]
      rw [hn]
      exact .quiet _ (.refl _)

structure Known (v : Supervision) : Prop where
  fits : v.calls.Fits
  call : v.calls.Open ∨ ∃ i e, v.calls.ClosedBy i e

theorem Known.act (hk : v.Known) (h : Act v v') : v'.Known := by
  obtain ⟨event, hc⟩ := h.change
  refine ⟨hk.fits.change hc, ?_⟩
  obtain ho | ⟨i, e, hb⟩ := hk.call
  case inl => exact (ho.change hk.fits hc).imp_right fun ⟨i, _, hb⟩ => ⟨i, _, hb⟩
  case inr => exact .inr ⟨i, e, hb.change hk.fits hc⟩

-- What is not over is in the hands of somebody.
def Owned (v : Supervision) : Prop :=
  ∀ i t, v.tasks[i]? = some t → t.isOver = false →
    ∃ q, v.stage q = .parting i ∨ v.stage q = .closing i

namespace Owned

theorem put (h : v.Owned) (stage : Stage)
    (hq : ∀ n, v.stage q = .parting n ∨ v.stage q = .closing n → v.isDone n) :
    (v.put q stage).Owned := by
  intro i t (ht : v.tasks[i]? = some t) hi
  obtain ⟨r, hr⟩ := h i t ht hi
  have hn : r ≠ q := by
    rintro rfl
    simpa [isDone, ht, hi] using hq i hr
  exact ⟨r, by rwa [put_stage_ne _ _ hn]⟩

theorem retire (h : v.Owned)
    (hq : ∀ n, v.stage q = .parting n ∨ v.stage q = .closing n → v.isDone n) :
    (v.retire q).Owned := by
  cases q
  case supervisor => exact h.put _ hq
  case pump p     => exact put (v := { v with session := v.session.gone p }) h _ hq

theorem begin (h : v.Owned) {t : Task} {stage : Stage}
    (hq : ∀ n, v.stage q ≠ .parting n ∧ v.stage q ≠ .closing n)
    (hs : stage = .parting v.tasks.length ∨ stage = .closing v.tasks.length) :
    ((v.begin t).put q stage).Owned := by
  intro i u (hu : (v.tasks ++ [t])[i]? = some u) hi
  rcases Nat.lt_or_ge i v.tasks.length with hl | hl
  · rw [List.getElem?_append_left hl] at hu
    obtain ⟨r, hr⟩ := h i u hu hi
    have hn : r ≠ q := by
      rintro rfl
      exact hr.elim (hq i).1 (hq i).2
    exact ⟨r, by rwa [put_stage_ne _ _ hn]⟩
  · have hi : i = v.tasks.length := by
      have := (List.getElem?_eq_some_iff.mp hu).1
      simp at this
      omega
    exact ⟨q, by rwa [put_stage, hi]⟩

theorem deed (h : v.Owned) (n : Nat) : (v.deed n).Owned := by
  intro i t (ht : (v.deed n).calls.tasks[i]? = some t) hi
  rw [deed_calls] at ht
  obtain ⟨u, hu, ho⟩ := Contention.over_proceed ht
  exact h i u hu (ho hi)

theorem act (h : v.Owned) (ha : Act v v') : v'.Owned := by
  cases ha
  case quiet | cancelCall => exact h
  case stops p session last hp _ _ =>
    exact begin (v := { v with session }) h (by simp [hp]) (.inl rfl)
  case wants q session _ hq =>
    refine put (v := { v with session }) h _ fun n hn => ?_
    obtain hw | ⟨m, hm, hd⟩ := hq
    case inl => simp [hw] at hn
    case inr =>
      obtain rfl : m = n := by simpa [hm] using hn
      exact hd
  case deed n => exact h.deed n
  case enters q hq _ _ => exact put h _ (by simp [hq])
  case begins q hq =>
    exact begin (v := { v with session := v.session.cancel }) h (by simp [hq]) (.inr rfl)
  case passes q hq _ _ => exact retire h (by simp [hq])
  case leaves q n hq hd =>
    refine retire h fun m hm => ?_
    obtain rfl : n = m := by simpa [hq] using hm
    exact hd
  case joins p stage hs _ _ _ => exact put h _ (by simp [hs])

end Owned

-- How far the teardown has come, and who holds the guard.
inductive Phase (v : Supervision) : Prop
  | before (hc : v.session.closes = 0) (hn : ∀ q, (v.stage q).holds = false)
    (ho : ∀ p, v.stage (.pump p) ≠ .over)
  | entered (q : Party) (hc : v.session.closes = 1) (hq : v.stage q = .entered)
    (hn : ∀ r, (v.stage r).holds → r = q)
  | closing (q : Party) (n : Nat) (t : Task) (hc : v.session.closes = 1)
    (hq : v.stage q = .closing n) (hn : ∀ r, (v.stage r).holds → r = q) (hk : v.session.cancelled)
    (ht : v.tasks[n]? = some t) (hp : t.purpose.closes)
  | after (hc : v.session.closes = 1) (hn : ∀ q, (v.stage q).holds = false)
    (hk : v.session.cancelled)
    (hd : v.session.call.closed)

-- What is done by those who do not hold the guard and do not take it.
structure Bystanding (v v' : Supervision) : Prop where
  closes    : v'.session.closes = v.session.closes
  cancelled : v.session.cancelled → v'.session.cancelled
  stage     : ∀ r, v'.stage r = v.stage r ∨
    (v.stage r).holds = false ∧ (v'.stage r).holds = false ∧ v'.stage r ≠ .over

theorem Bystanding.holds (h : v.Bystanding v') (r : Party) :
    (v'.stage r).holds = (v.stage r).holds := by
  obtain hr | ⟨h1, h2, _⟩ := h.stage r
  case inl => rw [hr]
  case inr => rw [h1, h2]

theorem Bystanding.put {stage : Stage} (hs : v.session.Quiet v'.session) (hv : v'.stage = v.stage)
    (hq : (v.stage q).holds = false) (hn : stage.holds = false) (ho : stage ≠ .over) :
    v.Bystanding (v'.put q stage) := by
  refine ⟨hs.closes, hs.cancelled, fun r => ?_⟩
  rcases Decidable.em (r = q) with rfl | hr
  · exact .inr ⟨hq, by rwa [put_stage], by rwa [put_stage]⟩
  · exact .inl (by rw [put_stage_ne _ _ hr, hv])

namespace Phase

theorem bystanding (hp : v.Phase) (ha : Act v v') (h : v.Bystanding v') : v'.Phase := by
  obtain ⟨event, hc⟩ := ha.change
  cases hp
  case before hc hn ho =>
    refine .before (h.closes.trans hc) (fun q => (h.holds q).trans (hn q)) fun p => ?_
    obtain hp | ⟨_, _, hp⟩ := h.stage (.pump p)
    case inl => exact hp ▸ ho p
    case inr => exact hp
  case entered q hc hq hn =>
    have hq : v'.stage q = .entered := by
      obtain hs | ⟨hs, _⟩ := h.stage q
      case inl => rw [hs, hq]
      case inr => simp [hq, Stage.holds] at hs
    exact .entered q (h.closes.trans hc) hq fun r hr => hn r (h.holds r ▸ hr)
  case closing q n t hcl hq hn hk ht hp =>
    have hq : v'.stage q = .closing n := by
      obtain hs | ⟨hs, _⟩ := h.stage q
      case inl => rw [hs, hq]
      case inr => simp [hq, Stage.holds] at hs
    obtain ⟨u, hu, hpu⟩ := hc.purpose ht
    exact .closing q n u (h.closes.trans hcl) hq (fun r hr => hn r (h.holds r ▸ hr))
      (h.cancelled hk) hu (hpu ▸ hp)
  case after hcl hn hk hd =>
    exact .after (h.closes.trans hcl) (fun q => (h.holds q).trans (hn q)) (h.cancelled hk)
      (hc.closed hd)

theorem retire (hc : v.session.closes = 1) (hn : ∀ r, r ≠ q → (v.stage r).holds = false)
    (hk : v.session.cancelled) (hd : v.session.call.closed) : (v.retire q).Phase := by
  have hn' {w : Supervision} {stage : Stage} (hw : w.stage = v.stage) (hs : stage.holds = false) :
      ∀ r, ((w.put q stage).stage r).holds = false := fun r => by
    rcases Decidable.em (r = q) with rfl | hr
    · rwa [put_stage]
    · rw [put_stage_ne _ _ hr, hw, hn r hr]
  cases q
  case supervisor => exact .after hc (hn' rfl rfl) hk hd
  case pump p =>
    have hg : (v.session.gone p).closes = v.session.closes ∧
        (v.session.gone p).cancelled = v.session.cancelled ∧
        (v.session.gone p).call = v.session.call := by cases p <;> exact ⟨rfl, rfl, rfl⟩
    exact .after (hg.1.trans hc) (hn' rfl rfl) (hg.2.1.trans hk)
      (by simpa [Supervision.retire, Supervision.put, hg.2.2] using hd)

theorem act (hp : v.Phase) (hk : v.Known) (ha : Act v v') : v'.Phase := by
  have hb := hp.bystanding ha
  cases ha
  case quiet session h => exact hb ⟨h.closes, h.cancelled, fun _ => .inl rfl⟩
  case cancelCall      => exact hb ⟨rfl, id, fun _ => .inl rfl⟩
  case deed            => exact hb ⟨rfl, id, fun _ => .inl rfl⟩
  case stops p session last hw h _ =>
    have hs : (v.stage (.pump p)).holds = false := by rw [hw]; rfl
    exact hb (.put h rfl hs rfl (by simp))
  case wants q session h hq =>
    have hs : (v.stage q).holds = false := by obtain hq | ⟨n, hq, _⟩ := hq <;> rw [hq] <;> rfl
    exact hb (.put h rfl hs rfl (by simp))
  case joins p stage hs _ _ hw =>
    have hs : (v.stage .supervisor).holds = false := by rw [hs]; rfl
    refine hb (.put .aside rfl hs ?_ ?_)
    all_goals obtain rfl | rfl := hw <;> simp [Stage.holds]
  case enters q hq hh hc =>
    refine .entered q rfl (put_stage ..) fun r hr => ?_
    rcases Decidable.em (r = q) with rfl | hn
    · rfl
    · rw [enter, put_stage_ne _ _ hn] at hr
      simp [hh r] at hr
  case begins q hq =>
    have hh : (v.stage q).holds := by rw [hq]; rfl
    cases hp
    case entered r hc hr hn =>
      obtain rfl : q = r := hn q hh
      refine .closing q v.tasks.length ⟨.close, .toDo Client.Duplex.closing⟩ hc
        (put_stage ..) (fun s hs => ?_) rfl
        List.getElem?_concat_length rfl
      rcases Decidable.em (s = q) with rfl | hs'
      · rfl
      · exact hn s (put_stage_ne _ _ hs' ▸ hs)
    case closing r n t _ hr hn _ _ _ =>
      obtain rfl : q = r := hn q hh
      simp [hq] at hr
    case before hc hn _  => simp [hn q] at hh
    case after hc hn _ _ => simp [hn q] at hh
  case passes q hq hh hc =>
    cases hp
    case before hn _ _             => exact absurd hn hc
    case entered r _ hr _          => simpa [hr, Stage.holds] using hh r
    case closing r n t _ hr _ _ _ _ => simpa [hr, Stage.holds] using hh r
    case after hc hn hk hd         => exact retire hc (fun r _ => hn r) hk hd
  case leaves q n hq hd =>
    have hh : (v.stage q).holds := by rw [hq]; rfl
    cases hp
    case closing r m t hc hr hn hc' ht hp =>
      obtain rfl : q = r := hn q hh
      obtain rfl : n = m := by simpa [hq] using hr
      have ho : t.isOver := by simpa [isDone, ht] using hd
      have hcl := (hk.fits t (List.mem_of_getElem? ht)).closed_of_over ho hp
      exact retire hc (fun r hr => Bool.eq_false_iff.mpr (mt (hn r) hr)) hc' hcl
    case entered r _ hr hn =>
      obtain rfl : q = r := hn q hh
      simp [hq] at hr
    case before hc hn _  => simp [hn q] at hh
    case after hc hn _ _ => simp [hn q] at hh

end Phase

structure Joined (v : Supervision) : Prop where
  counted : v.exited + v.running.length = 4
  ended   : ∀ p, p ∉ v.running → v.stage (.pump p) = .over

namespace Joined

theorem put {stage : Stage} (h : v.Joined) (hq : v.stage q ≠ .over)
    (hs : v'.stage = v.stage := by rfl) (hr : v'.running = v.running := by rfl)
    (he : v'.exited = v.exited := by rfl) : (v'.put q stage).Joined := by
  refine ⟨by simpa [Supervision.put, hr, he] using h.counted, fun p hp => ?_⟩
  have ho := h.ended p (hr ▸ hp)
  have hn : .pump p ≠ q := fun hn => hq (hn ▸ ho)
  rwa [put_stage_ne _ _ hn, hs]

theorem retire (h : v.Joined) (hq : v.stage q ≠ .over) : (v.retire q).Joined := by
  cases q
  case supervisor => exact h.put hq
  case pump p     => exact h.put hq

theorem act (h : v.Joined) (ha : Act v v') : v'.Joined := by
  cases ha
  case quiet | cancelCall | deed => exact ⟨h.counted, h.ended⟩
  case stops hp _ _    => exact h.put (by simp [hp])
  case enters q hq _ _ => exact h.put (by simp [hq])
  case begins q hq     => exact h.put (by simp [hq])
  case wants q session _ hq =>
    refine h.put ?_
    obtain hq | ⟨n, hq, _⟩ := hq <;> simp [hq]
  case passes q hq _ _ => exact h.retire (by simp [hq])
  case leaves q n hq _ => exact h.retire (by simp [hq])
  case joins p stage hs hp ho _ =>
    have hj : Joined { v with running := v.running.erase p, exited := v.exited + 1 } := by
      refine ⟨?counted, fun r hr => ?ended⟩
      case counted =>
        have hc := h.counted
        have hl := List.length_pos_of_mem hp
        simp only [List.length_erase_of_mem hp]
        omega
      case ended =>
        rcases Decidable.em (r = p) with rfl | hn
        · exact ho
        · exact h.ended r (mt (List.mem_erase_of_ne hn).mpr hr)
    exact hj.put (by simp [hs])

end Joined

structure Sound (v : Supervision) : Prop where
  known  : v.Known
  owned  : v.Owned
  phase  : v.Phase
  joined : v.Joined

theorem Sound.run (h : v.Sound) (events : List Event) : (v.run events).Sound := by
  induction events generalizing v
  case nil => exact h
  case cons event events hi =>
    have ha := v.act_step event
    exact hi ⟨h.known.act ha, h.owned.act ha, h.phase.act h.known ha, h.joined.act ha⟩

theorem Sound.started {calls : Contention} (hf : calls.Fits)
    (hc : calls.Open ∨ ∃ i e, calls.ClosedBy i e) (ho : ∀ t ∈ calls.tasks, t.isOver)
    (pingPeriod : Time) : (started calls pingPeriod).Sound where
  known  := ⟨hf, hc⟩
  owned  := fun i t ht hi => by simp [ho t (List.mem_of_getElem? ht)] at hi
  phase  := .before rfl (fun _ => rfl) (fun _ => by simp [Supervision.started])
  joined := ⟨rfl, fun p hp => by cases p <;> simp [Supervision.started, Pump.all] at hp⟩

-- Where all have done what they had to do, nothing of what was begun on the call is left.
theorem Sound.reported (h : v.Sound) {r : Session.Report} (hr : v.report? = some r) :
    r = ⟨4, 1⟩ ∧ v.session.cancelled ∧ v.session.call.closed ∧
      v.session.call.releases.length = 1 := by
  simp only [report?, Option.ite_none_right_eq_some, Option.some.injEq] at hr
  obtain ⟨⟨hn, hs⟩, rfl⟩ := hr
  have hover p : v.stage (.pump p) = .over := h.joined.ended p (by simp [hn])
  have hheld q : (v.stage q).holds = false := by
    cases q
    case supervisor => rw [hs]; rfl
    case pump p     => rw [hover p]; rfl
  have hexited : v.exited = 4 := by simpa [hn] using h.joined.counted
  have hidle : ∀ t ∈ v.tasks, t.isOver := fun t ht => by
    obtain ⟨i, hi⟩ := List.getElem?_of_mem ht
    refine Decidable.by_contra fun ho => ?_
    obtain ⟨q, hq⟩ := h.owned i t hi (Bool.eq_false_iff.mpr ho)
    cases q
    case supervisor => simp [hs] at hq
    case pump p     => simp [hover p] at hq
  cases h.phase
  case before _ _ ho            => exact absurd (hover .socketReader) (ho _)
  case entered q _ hq _         => simpa [hq, Stage.holds] using hheld q
  case closing q n t _ hq _ _ _ _ => simpa [hq, Stage.holds] using hheld q
  case after hc _ hk hd =>
    refine ⟨by rw [hexited, hc], hk, hd, ?_⟩
    obtain ho | ⟨i, e, hb⟩ := h.known.call
    case inl => exact absurd hd (Bool.eq_false_iff.mp ho.closed)
    case inr => exact hb.releases_of_over hidle

-- A session over a call that is in nobody's hands any more, whatever was done to it before:
-- whatever the order in which pumps take their turns, panic, stop and come to the guard, and
-- whatever reaches the socket and the call in between, once the supervisor reports it has joined
-- four pumps and the session was torn down once. Then the session is cancelled and the call is
-- closed, and its connection was handed back exactly once.
theorem torn_down_once (codec : Codec) (capacity : Nat) (before : List Contention.Event)
    (pingPeriod : Time) (events : List Event) (r : Session.Report)
    (ho : ∀ t ∈ ((Contention.opened codec capacity).run before).tasks, t.isOver)
    (hr :
      ((started ((Contention.opened codec capacity).run before) pingPeriod).run events).report? =
        some r) :
    let session :=
      ((started ((Contention.opened codec capacity).run before) pingPeriod).run events).session
    r = ⟨4, 1⟩ ∧ session.cancelled ∧ session.call.closed ∧ session.call.releases.length = 1 := by
  have hf := Contention.Fits.opened codec capacity
  have hs : (started ((Contention.opened codec capacity).run before) pingPeriod).Sound := by
    refine .started (hf.run before) ?_ ho pingPeriod
    exact ((Contention.Open.opened codec capacity).run hf before).imp_right
      fun ⟨_, i, _, _, _, _, hb⟩ => ⟨i, _, hb⟩
  exact (hs.run events).reported hr

-- The pump that receives from the call panics and is the first at the guard. The others find the
-- session cancelled.
def afterPanic : List Event :=
  let advance (n : Nat) (q : Party) : List Event := List.replicate n (.advance q)
  .panic .callReader :: advance 8 (.pump .callReader) ++
  .join .callReader :: advance 1 .supervisor ++
  .turn .socketReader 0 :: advance 2 (.pump .socketReader) ++
  .turn .callWriter 0 :: advance 3 (.pump .callWriter) ++
  .turn .socketWriter 0 :: .turn .socketWriter 0 :: advance 2 (.pump .socketWriter) ++
  [.join .socketReader, .join .callWriter, .join .socketWriter]

theorem torn_down_after_panic :
    let v := (started ((Contention.opened .json 16).run []) millisecond).run afterPanic
    v.report? = some ⟨4, 1⟩ ∧ v.session.cancelled ∧ v.session.call.closed ∧
      v.session.call.releases.length = 1 :=
  have hr : ((started ((Contention.opened .json 16).run []) millisecond).run afterPanic).report? =
      some ⟨4, 1⟩ := by decide
  ⟨hr, (torn_down_once .json 16 [] millisecond afterPanic ⟨4, 1⟩ (by decide) hr).2⟩

end Supervision
end CallFabric.Gateway
