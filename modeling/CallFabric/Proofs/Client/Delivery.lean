import CallFabric.Client.Transmission

namespace CallFabric.Client

open Duplex (SendOutcome Receipt)

namespace Duplex

-- What is left of the outbox, and of the closing of the sending, where nothing is sent.
structure Leaves (d e : Duplex) : Prop where
  outbox     : e.outbox = d.outbox
  sendClosed : d.sendClosed → e.sendClosed

namespace Leaves

theorem refl (d : Duplex) : Leaves d d := ⟨rfl, id⟩

theorem trans {d e f : Duplex} (hd : Leaves d e) (he : Leaves e f) : Leaves d f :=
  ⟨he.outbox.trans hd.outbox, he.sendClosed ∘ hd.sendClosed⟩

theorem close (d : Duplex) : Leaves d d.close.2 := by
  unfold Duplex.close
  split
  case isTrue  => exact .refl d
  case isFalse => exact ⟨rfl, fun _ => rfl⟩

theorem receive (cancelFirst : Bool) (d : Duplex) : Leaves d (d.receive cancelFirst).2 := by
  obtain ⟨inbox, hd, _⟩ := d.tryReceive_inbox cancelFirst
  have ht : Leaves d (d.tryReceive cancelFirst).2 := hd ▸ ⟨rfl, id⟩
  simp only [Duplex.receive]
  generalize d.tryReceive cancelFirst = result at ht
  obtain ⟨receipt, e⟩ := result
  cases receipt
  case value | waiting => exact ht
  case ended           => exact finish_closing e ▸ ht.trans (.close e)
  case failed f =>
    have hr : Leaves e (e.record f) := ⟨rfl, id⟩
    exact finish_record_closing e f ▸ ht.trans (hr.trans (.close _))

end Leaves

structure Places (d : Duplex) (payload : Bytes) (r : SendOutcome × Duplex) : Prop where
  outbox     : r.2.outbox = d.outbox ++ if r.1 = .sent then [payload] else []
  sendClosed : r.2.sendClosed = d.sendClosed

theorem Places.resumeSend (closeFirst : Bool) (d : Duplex) (payload : Bytes) :
    d.Places payload (d.resumeSend closeFirst payload) := by
  have ht := d.trySend_outbox closeFirst payload
  simp only [Duplex.resumeSend]
  generalize d.trySend closeFirst payload = result at ht
  obtain ⟨outcome, e⟩ := result
  have ho : e.outbox = d.outbox ++ if outcome = .sent then [payload] else [] :=
    congrArg Duplex.outbox ht
  have hs : e.sendClosed = d.sendClosed := (congrArg Duplex.sendClosed ht :)
  cases outcome <;> exact ⟨ho, hs⟩

theorem Places.send (d : Duplex) (payload : Bytes) : d.Places payload (d.send payload) := by
  unfold Duplex.send
  split
  case isTrue  => exact ⟨by simp, rfl⟩
  case isFalse => exact .resumeSend true d payload

end Duplex

namespace Transmission

variable {t u : Transmission}

-- What a step comes to: something is accepted, something goes over, the end is seen, or nothing.
inductive Change (t : Transmission) : Transmission → Prop
  | accepted (stream payload) (ho : stream.outbox = t.stream.outbox ++ [payload])
    (hc : t.stream.sendClosed → stream.sendClosed) (hs : t.senderGone = false) :
    Change t { t with stream, accepted := t.accepted ++ [payload] }
  | carried (stream payload) (ho : t.stream.outbox = payload :: stream.outbox)
    (hc : t.stream.sendClosed = false) (he : t.ended = false)
    (hs : stream.sendClosed = t.stream.sendClosed) :
    Change t { t with stream, delivered := t.delivered ++ [payload] }
  | ended (h : t.stream.sendClosed ∨ t.senderGone ∧ t.stream.outbox = []) :
    Change t { t with ended := true }
  | dropped : Change t { t with senderGone := true }
  | other (stream) (h : t.stream.Leaves stream) : Change t { t with stream }

theorem change_attempt {payload : Bytes} {r : SendOutcome × Duplex}
    (h : t.stream.Places payload r) (hs : t.senderGone = false) :
    Change t (t.attempt payload r) := by
  obtain ⟨outcome, stream⟩ := r
  have hc : t.stream.sendClosed → stream.sendClosed := h.sendClosed.trans
  cases outcome
  case sent => exact .accepted stream payload (by simpa using h.outbox) hc hs
  all_goals exact .other stream ⟨by simpa using h.outbox, hc⟩

theorem change_carry (t : Transmission) : Change t t.carry := by
  unfold carry
  split
  case isTrue => exact .other _ (.refl _)
  case isFalse he =>
    split
    case isTrue hc => exact .ended (.inl hc)
    case isFalse hc =>
      cases ho : t.stream.outbox
      case cons payload rest =>
        simp only [Duplex.peerTake?, ho]
        exact .carried { t.stream with outbox := rest } payload ho (Bool.eq_false_iff.mpr hc)
          (Bool.eq_false_iff.mpr he) rfl
      case nil =>
        simp only [Duplex.peerTake?, ho]
        split
        case isTrue hs => exact .ended (.inr ⟨hs, ho⟩)
        case isFalse   => exact .other _ (.refl _)

theorem change_step (t : Transmission) (event : Event) : Change t (t.step event) := by
  cases event
  case send payload =>
    simp only [step]
    split
    case isTrue     => exact .other _ (.refl _)
    case isFalse hs => exact change_attempt (.send ..) (Bool.eq_false_iff.mpr hs)
  case resumeSend closeFirst payload =>
    simp only [step]
    split
    case isTrue     => exact .other _ (.refl _)
    case isFalse hs => exact change_attempt (.resumeSend ..) (Bool.eq_false_iff.mpr hs)
  case closeSend  => exact .other _ ⟨rfl, fun _ => rfl⟩
  case close      => exact .other _ (.close _)
  case dropSender => exact .dropped
  case carry      => exact change_carry t
  case receive    => exact .other _ (.receive ..)
  case arrive     => exact .other _ ⟨rfl, id⟩
  case endInbound => exact .other _ ⟨rfl, id⟩

-- What went over and what waits is what was accepted, in that order.
def Conserved (t : Transmission) : Prop := t.accepted = t.delivered ++ t.stream.outbox

theorem Conserved.change (ht : t.Conserved) (h : Change t u) : u.Conserved := by
  cases h
  case accepted stream payload ho _ _ =>
    simp only [Conserved, ho]
    rw [ht, List.append_assoc]
  case carried stream payload ho _ _ _ =>
    simp only [Conserved, List.append_assoc, List.singleton_append]
    rw [ht, ho]
  case ended          => exact ht
  case dropped        => exact ht
  case other stream h => simpa [Conserved, h.outbox] using ht

theorem Conserved.run (ht : t.Conserved) (events : List Event) : (t.run events).Conserved := by
  induction events generalizing t
  case nil => exact ht
  case cons event events hi => exact hi (ht.change (t.change_step event))

-- What an end means: sending was closed, or there is nothing more to go over and never will be.
def Justified (t : Transmission) : Prop :=
  t.ended → t.stream.sendClosed ∨ t.senderGone ∧ t.stream.outbox = []

theorem Justified.change (ht : t.Justified) (h : Change t u) : u.Justified := by
  intro he
  cases h
  case accepted stream payload _ hc hs =>
    refine .inl (hc ((ht he).resolve_right fun ⟨h, _⟩ => ?_))
    simp [hs] at h
  case carried stream payload _ _ hn _ => simp [hn] at he
  case ended h                         => exact h
  case dropped                         => exact (ht he).imp_right fun ⟨_, ho⟩ => ⟨rfl, ho⟩
  case other stream h =>
    exact (ht he).imp h.sendClosed fun ⟨hs, ho⟩ => ⟨hs, h.outbox.trans ho⟩

theorem Justified.run (ht : t.Justified) (events : List Event) : (t.run events).Justified := by
  induction events generalizing t
  case nil => exact ht
  case cons event events hi => exact hi (ht.change (t.change_step event))

theorem Change.closed (h : Change t u) (hc : t.stream.sendClosed) :
    u.stream.sendClosed ∧ u.delivered = t.delivered ∧ ∃ late, u.accepted = t.accepted ++ late := by
  cases h
  case accepted stream payload _ hs _  => exact ⟨hs hc, rfl, [payload], rfl⟩
  case carried stream payload _ hn _ _ => simp [hn] at hc
  case ended                           => exact ⟨hc, rfl, [], by simp⟩
  case dropped                         => exact ⟨hc, rfl, [], by simp⟩
  case other stream h                  => exact ⟨h.sendClosed hc, rfl, [], by simp⟩

theorem run_closed (hc : t.stream.sendClosed) (events : List Event) :
    (t.run events).delivered = t.delivered ∧
      ∃ late, (t.run events).accepted = t.accepted ++ late := by
  induction events generalizing t
  case nil => exact ⟨rfl, [], by simp [run]⟩
  case cons event events hi =>
    obtain ⟨hs, hd, late, ha⟩ := (t.change_step event).closed hc
    obtain ⟨hd', later, ha'⟩ := hi hs
    exact ⟨hd'.trans hd, late ++ later, by rw [← List.append_assoc, ← ha]; exact ha'⟩

theorem Change.stays_ended (h : Change t u) (he : t.ended) : u.ended := by
  cases h
  case ended => rfl
  all_goals exact he

theorem run_ended (he : t.ended) (events : List Event) : (t.run events).ended := by
  induction events generalizing t
  case nil => exact he
  case cons event events hi => exact hi ((t.change_step event).stays_ended he)

-- The first look after the closing sees the end.
theorem run_carry (hc : t.stream.sendClosed) {events : List Event} (h : .carry ∈ events) :
    (t.run events).ended := by
  induction events generalizing t
  case nil => simp at h
  case cons event events hi =>
    obtain rfl | h := List.mem_cons.mp h
    case inl =>
      refine run_ended ?_ events
      simp only [step, carry]
      split
      case isTrue he => exact he
      case isFalse   => rfl
    case inr => exact hi ((t.change_step event).closed hc).1 h

-- Sending is closed after anything that was sent and however much of it has gone over by then, and
-- anything may follow. What has gone over by then is what the peer gets, followed by the end, and
-- it is the beginning of what was accepted. It is all of it if and only if nothing waits in the
-- outbox at that moment and nothing is accepted afterwards.
theorem close_send_delivers_iff (codec : Codec) (capacity : Nat) (before after : List Event) :
    let t := (start (.opened codec capacity)).run before
    let u := t.run (.closeSend :: after)
    (.carry ∈ after → u.ended) ∧
    u.delivered = t.delivered ∧
    u.delivered <+: u.accepted ∧
    (u.delivered = u.accepted ↔ t.stream.outbox = [] ∧ u.accepted = t.accepted) := by
  intro t u
  have hs : (start (.opened codec capacity)).Conserved := rfl
  have ht : t.Conserved := hs.run before
  have hc : (t.step .closeSend).stream.sendClosed := rfl
  obtain ⟨hd, late, ha⟩ := run_closed hc after
  have hd : u.delivered = t.delivered := hd
  have ha : u.accepted = t.accepted ++ late := ha
  refine ⟨run_carry hc, hd, ?_, ?_⟩
  · rw [hd, ha, ht, List.append_assoc]
    exact List.prefix_append ..
  · rw [hd, ha, ht]
    simp [List.append_assoc]

-- The payload is accepted and goes nowhere: the peer sees the end of an empty call.
theorem close_send_loses_payload :
    let u := (start (.opened .json bufferSize)).run [.send [0x31], .closeSend, .carry]
    u.ended ∧ u.accepted = [[0x31]] ∧ u.delivered = [] ∧
      u.stream.error = none ∧ u.stream.cancelled = false ∧ u.stream.peerGone = false := by
  decide

-- Where sending is not closed, but its sender lets go of it, nothing is lost.
theorem dropped_delivers (codec : Codec) (capacity : Nat) (events : List Event) :
    let u := (start (.opened codec capacity)).run events
    u.ended → u.stream.sendClosed = false → u.delivered = u.accepted := by
  intro u he hn
  have hs : (start (.opened codec capacity)).Conserved := rfl
  have hj : (start (.opened codec capacity)).Justified := fun h => by simp [start] at h
  obtain ⟨_, ho⟩ := (hj.run events he).resolve_left (Bool.eq_false_iff.mp hn)
  have hc : u.accepted = u.delivered ++ u.stream.outbox := hs.run events
  rw [hc, ho, List.append_nil]

end Transmission
end CallFabric.Client
