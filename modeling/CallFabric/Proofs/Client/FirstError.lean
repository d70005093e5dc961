import CallFabric.Client.Usage
import CallFabric.Proofs.Client.Closing

namespace CallFabric.Client

def Notice.kept? (n : Notice) : Option Fault := if n.origin.isKept then some n.fault else none

theorem Notice.bind_kept? {origin : Origin} (h : origin.isKept) (fault? : Option Fault) :
    (fault?.map (Notice.mk origin)).bind Notice.kept? = fault? := by
  cases fault?
  case none   => rfl
  case some f => exact if_pos h

namespace Duplex

theorem error_resumeSend (closeFirst : Bool) (d : Duplex) (payload : Bytes) :
    (d.resumeSend closeFirst payload).2.error =
      d.error.or (d.resumeSend closeFirst payload).1.fault? := by
  have ht : (d.trySend closeFirst payload).2.error = d.error := (Quiet.trySend ..).error
  simp only [resumeSend]
  generalize d.trySend closeFirst payload = result at ht
  obtain ⟨outcome, e⟩ := result
  rw [← ht]
  cases outcome
  case failed f => rfl
  all_goals exact (Option.or_none).symm

theorem error_send (d : Duplex) (payload : Bytes) :
    (d.send payload).2.error =
      d.error.or (((d.send payload).1.fault?.map (Notice.mk d.sendOrigin)).bind Notice.kept?) := by
  rw [send, sendOrigin]
  split
  case isTrue  => exact (Option.or_none).symm
  case isFalse => rw [error_resumeSend, Notice.bind_kept? rfl]

theorem error_sendDatum (d : Duplex) (datum : Datum) :
    (d.sendDatum datum).2.error =
      d.error.or (((d.sendDatum datum).1.fault?.map
        (Notice.mk (d.sendDatumOrigin datum))).bind Notice.kept?) := by
  cases he : d.codec.encode datum
  case ok payload =>
    simp only [sendDatum, sendDatumOrigin, he]
    exact d.error_send payload
  case error e =>
    simp only [sendDatum, sendDatumOrigin, he]
    exact (Option.or_none).symm

theorem error_receive (cancelFirst : Bool) (d : Duplex) :
    (d.receive cancelFirst).2.error = d.error.or (d.receive cancelFirst).1.fault? := by
  have ht : (d.tryReceive cancelFirst).2.error = d.error := (Quiet.tryReceive ..).error
  simp only [receive]
  generalize d.tryReceive cancelFirst = result at ht
  obtain ⟨receipt, e⟩ := result
  rw [← ht]
  cases receipt
  case failed f => exact (congrArg error (finish_record_closing e f)).trans (error_close _)
  case ended =>
    exact ((congrArg error (finish_closing e)).trans (error_close e)).trans (Option.or_none).symm
  all_goals exact (Option.or_none).symm

theorem error_receiveDatum (cancelFirst : Bool) (d : Duplex) (shape : Shape) :
    (d.receiveDatum cancelFirst shape).2.error =
      d.error.or (((d.receiveDatum cancelFirst shape).1.fault?.map
        (Notice.mk (d.receive cancelFirst).1.origin)).bind Notice.kept?) := by
  have hr := d.error_receive cancelFirst
  simp only [receiveDatum]
  generalize d.receive cancelFirst = result at hr
  obtain ⟨receipt, e⟩ := result
  cases receipt
  case value payload =>
    -- The message was received, and whatever becomes of it is not recorded.
    simp only [Receipt.fault?, Option.or_none] at hr
    have hn : e.error = d.error.or none := hr.trans (Option.or_none).symm
    cases hd : e.codec.decode shape payload <;> simp only [hd] <;> exact hn
  all_goals exact hr

end Duplex

namespace Usage

variable {u : Usage} {n : Notice}

theorem error_outcome (d : Duplex) (event : Event) :
    (outcome d event).2.error = d.error.or ((outcome d event).1.bind Notice.kept?) := by
  have hq {e : Duplex} (h : e.error = d.error) : e.error = d.error.or none :=
    h.trans (Option.or_none).symm
  cases event
  case send payload       => exact d.error_send payload
  case sendDatum datum    => exact d.error_sendDatum datum
  case receiveDatum       => exact Duplex.error_receiveDatum ..
  case resumeSend closeFirst payload =>
    simp only [outcome]
    rw [Duplex.error_resumeSend, Notice.bind_kept? rfl]
  case receive cancelFirst =>
    simp only [outcome]
    rw [Duplex.error_receive, Notice.bind_kept? rfl]
  case close              => exact hq d.error_close
  case peerTake =>
    simp only [outcome]
    split
    case h_1 h => exact hq (Duplex.Quiet.peerTake h).error
    case h_2   => exact hq rfl
  all_goals exact hq rfl

-- The stream has kept the first of the errors that it can keep.
def Keeps (u : Usage) : Prop := u.stream.error = u.notices.findSome? Notice.kept?

theorem Keeps.step (h : u.Keeps) (event : Event) : (u.step event).Keeps := by
  have ho := error_outcome u.stream event
  rw [h] at ho
  rw [Keeps, Usage.step, List.findSome?_append, ho]
  cases (outcome u.stream event).1 <;> simp

theorem Keeps.run (h : u.Keeps) (events : List Event) : (u.run events).Keeps :=
  List.foldlRecOn events _ h fun _ hu event _ => hu.step event

theorem keeps_opened (codec : Codec) (capacity : Nat) : (opened codec capacity).Keeps := rfl

theorem run_append (u : Usage) (before after : List Event) :
    u.run (before ++ after) = (u.run before).run after :=
  List.foldl_append

theorem notices_run (u : Usage) (events : List Event) : u.notices <+: (u.run events).notices := by
  induction events generalizing u
  case nil => exact List.prefix_rfl
  case cons event events hi =>
    have hs : u.notices <+: (u.step event).notices := List.prefix_append ..
    exact hs.trans (hi (u.step event))

-- There is a moment at which the first error is the only one.
theorem exists_alone (hu : u.notices = []) {events : List Event}
    (h : (u.run events).notices.head? = some n) :
    ∃ before, before <+: events ∧ (u.run before).notices = [n] := by
  induction events generalizing u
  case nil =>
    rw [run, List.foldl_nil, hu] at h
    cases h
  case cons event events hi =>
    have hs : (u.step event).notices = (outcome u.stream event).1.toList := by simp [step, hu]
    cases ho : (outcome u.stream event).1
    case none =>
      obtain ⟨before, hb, hn⟩ := hi (u := u.step event) (by simp [hs, ho]) h
      exact ⟨event :: before, List.cons_prefix_cons.mpr ⟨rfl, hb⟩, hn⟩
    case some m =>
      have hm : (u.step event).notices = [m] := by simp [hs, ho]
      obtain ⟨more, he⟩ := (u.step event).notices_run events
      have hr : (u.run (event :: events)).notices = m :: more := by
        rw [hm] at he
        exact he.symm
      rw [hr] at h
      cases h
      exact ⟨[event], List.cons_prefix_cons.mpr ⟨rfl, List.nil_prefix⟩, hm⟩

-- Whether the first error that a call returned, if there is one, is the one that the stream has.
def KeepsFirst (u : Usage) : Prop := ∀ n, u.notices.head? = some n → u.stream.error = some n.fault

-- After any calls, whatever the peer and others did in between, the stream has the first of the
-- errors of sending and receiving that its calls returned. It has the first error of all, from the
-- moment when it is returned on, if and only if that is one of these.
theorem keeps_first_iff (codec : Codec) (capacity : Nat) (events : List Event) :
    let u := (opened codec capacity).run events
    u.stream.error = u.notices.findSome? Notice.kept? ∧
    ((∀ before, before <+: events → ((opened codec capacity).run before).KeepsFirst) ↔
      ∀ n, u.notices.head? = some n → n.origin.isKept) := by
  intro u
  have hk (events : List Event) : ((opened codec capacity).run events).Keeps :=
    (keeps_opened codec capacity).run events
  refine ⟨hk events, ?mp, ?mpr⟩
  case mp =>
    intro hf n hn
    obtain ⟨before, hb, ha⟩ := exists_alone (u := opened codec capacity) rfl hn
    have he := hf before hb n (by rw [ha]; rfl)
    rw [hk before, ha, List.findSome?_singleton, Notice.kept?] at he
    exact Decidable.byContradiction fun h => by simp [h] at he
  case mpr =>
    rintro hu before ⟨after, rfl⟩ n hn
    obtain ⟨more, he⟩ := ((opened codec capacity).run before).notices_run after
    obtain ⟨rest, hr⟩ := List.head?_eq_some_iff.mp hn
    have hi : n.origin.isKept := hu n (by simp [u, run_append, ← he, hr])
    rw [hk before, hr, List.findSome?_cons_of_isSome, Notice.kept?, if_pos hi]
    simp [Notice.kept?, hi]

-- A send after the sending was closed, and a message that is no text of a number.
theorem first_not_kept :
    let refused := (opened .json 4).run [.closeSend, .send [0x31]]
    let unread := (opened .json 4).run [.arrive (.ok [0x78]), .receiveDatum true .i64]
    refused.notices = [⟨.refusal, Duplex.sendAfterClose⟩] ∧ refused.stream.error = none ∧
      unread.notices.map (·.origin) = [.decoding] ∧ unread.stream.error = none := by
  decide +kernel

end Usage
end CallFabric.Client
