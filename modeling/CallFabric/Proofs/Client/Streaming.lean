import CallFabric.Client.Link
import CallFabric.Proofs.Fault.RoundTrip
import CallFabric.Proofs.Service.Acting

namespace CallFabric.Service

-- What a handler sent, by what happened to it, the latest in front.
def payloads (next : List Signal → Action) : List Signal → List Bytes
  | [] => []
  | .sent :: before =>
    match next before with
    | .send payload => payloads next before ++ [payload]
    | .receive | .finish _ => payloads next before
  | .received _ :: before => payloads next before
  | .receiveFailed _ :: before => payloads next before
  | .sendFailed _ :: before => payloads next before

namespace StreamCall

variable {c : StreamCall}

-- What a step of a handler is, as long as its caller is there.
inductive Goes (c : StreamCall) : StreamCall → Prop
  | finished (completion : Completion Unit) (h : c.next c.history = .finish completion) :
    Goes c { c with result := some (toResult completion) }
  | sent (payload : Bytes) (h : c.next c.history = .send payload) :
    Goes c { c with history := .sent :: c.history, sent := c.sent ++ [payload] }
  | received (signal : Signal) (inbox : List Inbound) (h : signal ≠ .sent) :
    Goes c { c with history := signal :: c.history, inbox }

theorem goes_of_step {c' : StreamCall} (h : c.step? = some c') (hp : c.peerGone = false) :
    c.result = none ∧ Goes c c' := by
  obtain ⟨hr, ha⟩ := acts_of_step h
  refine ⟨hr, ?_⟩
  cases ha
  case finished completion hn => exact .finished completion hn
  case received i rest hi     => exact .received _ rest (by cases i <;> simp [Inbound.signal])
  case ended                  => exact .received _ c.inbox (by simp)
  case sent payload hn        => exact .sent payload hn
  case sendFailed hn hg f     => simp [hp] at hg

-- A handler that has something to do and does not wait for its caller can go on where it has room.
theorem step_isSome (hr : c.result = none) (hn : c.next c.history ≠ .receive) (hc : c.hasRoom) :
    c.step?.isSome := by
  unfold step?
  simp only [hr, Option.isSome_none, Bool.false_eq_true, if_false]
  split
  case h_1   => rfl
  case h_2 h => exact absurd h hn
  case h_3   => split <;> rfl

end StreamCall

theorem payloads_sent {next : List Signal → Action} {before : List Signal} {payload : Bytes}
    (h : next before = .send payload) :
    payloads next (.sent :: before) = payloads next before ++ [payload] := by
  simp [payloads, h]

theorem payloads_other (next : List Signal → Action) (before : List Signal) {signal : Signal}
    (h : signal ≠ .sent) : payloads next (signal :: before) = payloads next before := by
  cases signal
  case sent => exact absurd rfl h
  all_goals rfl

end CallFabric.Service

namespace CallFabric.Client

open Duplex (Receipt SendOutcome)
open Service (Completion StreamCall)

namespace Duplex

variable {d : Duplex}

-- What a send leaves as it is, and what it may record.
structure SendsOnly (d : Duplex) (r : SendOutcome × Duplex) : Prop where
  inbox        : r.2.inbox = d.inbox
  inboundEnded : r.2.inboundEnded = d.inboundEnded
  cancelled    : r.2.cancelled = d.cancelled
  closed       : r.2.closed = d.closed
  error        : r.2.error = d.error ∨ ∃ f, r.1 = .failed f ∧ r.2.error = d.error.or (some f)

theorem SendsOnly.resumeSend (closeFirst : Bool) (d : Duplex) (payload : Bytes) :
    d.SendsOnly (d.resumeSend closeFirst payload) := by
  obtain ⟨outbox, ht⟩ : ∃ outbox, (d.trySend closeFirst payload).2 = { d with outbox } :=
    ⟨_, d.trySend_outbox closeFirst payload⟩
  simp only [Duplex.resumeSend]
  generalize d.trySend closeFirst payload = result at ht
  obtain ⟨outcome, _⟩ := result
  cases ht
  cases outcome
  case failed f => exact ⟨rfl, rfl, rfl, rfl, .inr ⟨f, rfl, rfl⟩⟩
  all_goals exact ⟨rfl, rfl, rfl, rfl, .inl rfl⟩

theorem SendsOnly.send (d : Duplex) (payload : Bytes) : d.SendsOnly (d.send payload) := by
  unfold Duplex.send
  split
  case isTrue  => exact ⟨rfl, rfl, rfl, rfl, .inl rfl⟩
  case isFalse => exact .resumeSend true d payload

theorem receive_value {cancelFirst : Bool} {payload : Bytes} {rest : List (Except Status Bytes)}
    (hc : d.cancelled = false) (hi : d.inbox = .ok payload :: rest) :
    d.receive cancelFirst = (.value payload, { d with inbox := rest }) := by
  simp [receive, tryReceive, takeArrived, hc, hi, Receipt.deeds, finish_nil]

theorem receive_failed {cancelFirst : Bool} {status : Status}
    {rest : List (Except Status Bytes)} (hc : d.cancelled = false)
    (hi : d.inbox = .error status :: rest) :
    d.receive cancelFirst =
      (.failed status.toFault,
        (Duplex.record { d with inbox := rest } status.toFault).close.2) := by
  simp [receive, tryReceive, takeArrived, hc, hi, Receipt.deeds, finish_record_closing]

theorem receive_ended {cancelFirst : Bool} (hc : d.cancelled = false) (hi : d.inbox = [])
    (he : d.inboundEnded) : d.receive cancelFirst = (.ended, d.close.2) := by
  simp [receive, tryReceive, takeArrived, hc, hi, he, Receipt.deeds, finish_closing]

theorem receive_waiting {cancelFirst : Bool} (hc : d.cancelled = false) (hi : d.inbox = [])
    (he : d.inboundEnded = false) : (d.receive cancelFirst).1 = .waiting := by
  simp [receive, tryReceive, takeArrived, hc, hi, he]

-- Nothing will ever be received again.
structure Silent (d : Duplex) : Prop where
  inbox        : d.inbox = []
  inboundEnded : d.inboundEnded
  closed       : d.closed

theorem Silent.receive (hd : d.Silent) (cancelFirst : Bool) :
    ((d.receive cancelFirst).1 = .ended ∨ (d.receive cancelFirst).1 = .failed receiveCancelled) ∧
      (d.receive cancelFirst).2.Silent ∧
      ∀ g, d.error = some g → (d.receive cancelFirst).2.error = some g := by
  have he : (d.receive cancelFirst) = (.ended, d.close.2) ∨
      (d.receive cancelFirst) =
        (.failed receiveCancelled, (d.record receiveCancelled).close.2) := by
    cases hc : d.cancelled <;> cases cancelFirst <;>
      simp [Duplex.receive, tryReceive, takeArrived, hc, hd.inbox, hd.inboundEnded, Receipt.deeds,
        finish_closing, finish_record_closing]
  obtain he | he := he
  case inl =>
    rw [he]
    exact ⟨.inl rfl, ⟨by simpa using hd.inbox, by simpa using hd.inboundEnded, by simp⟩, by simp⟩
  case inr =>
    rw [he]
    refine ⟨.inr rfl, ⟨?_, ?_, by simp⟩, ?_⟩
    · simpa [record] using hd.inbox
    · simpa [record] using hd.inboundEnded
    · intro g hg
      simp [record, hg]

end Duplex

namespace Link

variable {l l' : Link} {completion : Completion Unit}

-- What the handler has sent so far.
def produced (l : Link) : List Bytes := Service.payloads l.call.next l.call.history

-- The handler has returned with this.
structure Returned (l : Link) (completion : Completion Unit) : Prop where
  result : l.call.result = some (StreamCall.toResult completion)
  action : l.call.next l.call.history = .finish completion

-- What a caller is told at the end.
def ending : Completion Unit → Receipt Bytes
  | .value () => .ended
  | .error e => .failed e.toFault
  | .panic p => .failed p.fault

-- What a move is, as long as the caller is there and keeps reading, and whether it delivers.
inductive Change (l : Link) : Bool → Link → Prop
  | served (call : StreamCall) (hs : l.settled = false) (hr : l.call.result = none)
    (h : l.call.Goes call) : Change l false { l with call, settled := settles call.result }
  | posted (f : Fault) (hr : l.call.result = some (.error f)) (hs : l.settled = false) :
    Change l true { l with settled := true }
  | carried (m : Bytes) (rest : List Bytes) (h : l.call.sent = m :: rest) :
    Change l true
      { l with call := { l.call with sent := rest }, stream := l.stream.arrive (.ok m) }
  | finished (hs : l.settled) (hc : l.call.sent = []) (he : l.ended = false) :
    Change l true l.finish
  -- What the caller sends, on its way to the handler.
  | requested (inbox : List Service.Inbound) (inboundEnded : Bool) (outbox : List Bytes)
    (sendClosed peerGone : Bool) :
    Change l false
      { l with
        call   := { l.call with inbox, inboundEnded }
        stream := { l.stream with outbox, sendClosed, peerGone } }
  | sent (outcome : SendOutcome) (stream : Duplex) (h : l.stream.SendsOnly (outcome, stream)) :
    Change l false { l with stream, attempts := l.attempts ++ [.sent outcome] }
  | received (cancelFirst : Bool) (hw : (l.stream.receive cancelFirst).1 ≠ .waiting) :
    Change l true
      { l with
        stream   := (l.stream.receive cancelFirst).2
        attempts := l.attempts ++ [.received (l.stream.receive cancelFirst).1] }

theorem change_afterSend {r : SendOutcome × Duplex} (hr : l.stream.SendsOnly r)
    (h : l.afterSend? r = some l') : Change l false l' := by
  obtain ⟨outcome, stream⟩ := r
  cases outcome
  case waiting => cases h
  all_goals cases h; exact .sent _ stream hr

theorem change_receive {cancelFirst : Bool} (h : l.receive? cancelFirst = some l') :
    Change l true l' := by
  unfold receive? at h
  split at h
  case h_1 => cases h
  case h_2 receipt stream hw hd =>
    cases h
    have hc := Change.received (l := l) cancelFirst
    rw [hd] at hc
    exact hc hw

theorem change_of_step {move : Move} (h : l.step? move = some l') (hm : move.keepsReading)
    (hp : l.call.peerGone = false) : Change l move.delivers l' := by
  cases move
  case serve =>
    simp only [step?, serve?] at h
    split at h
    case isTrue => cases h
    case isFalse hs =>
      obtain ⟨call, hc, rfl⟩ := Option.map_eq_some_iff.mp h
      obtain ⟨hr, hg⟩ := StreamCall.goes_of_step hc hp
      exact .served call (Bool.eq_false_iff.mpr hs) hr hg
  case post =>
    simp only [step?, post?] at h
    split at h
    case h_1 f hr =>
      split at h
      case isTrue hs  => cases h; exact .posted f hr (by simp at hs; exact hs.1)
      case isFalse    => cases h
    case h_2 => cases h
  case giveUp => simp [step?, hp] at h
  case carry =>
    simp only [step?] at h
    split at h
    case h_1 m rest hs => cases h; exact .carried m rest hs
    case h_2           => cases h
  case finish =>
    simp only [step?] at h
    split at h
    case isTrue hs =>
      simp only [Bool.and_eq_true, List.isEmpty_iff, Bool.not_eq_true'] at hs
      cases h
      exact .finished hs.1.1 hs.1.2 hs.2
    case isFalse => cases h
  case submit =>
    simp only [step?, Duplex.peerTake?] at h
    split at h
    case isTrue => cases h
    case isFalse =>
      obtain ⟨⟨payload, stream⟩, ht, rfl⟩ := Option.map_eq_some_iff.mp h
      split at ht
      case h_1 => cases ht; exact .requested ..
      case h_2 => cases ht
  case endRequests =>
    simp only [step?] at h
    split at h
    case isTrue  => cases h; exact .requested ..
    case isFalse => cases h
  case breakOff =>
    simp only [step?] at h
    split at h
    case isTrue  => cases h
    case isFalse => cases h; exact .requested ..
  case hangUp    => cases h; exact .requested ..
  case closeSend => cases h; exact .requested ..
  case send payload => exact change_afterSend (.send ..) h
  case resumeSend => exact change_afterSend (.resumeSend ..) h
  case receive    => exact change_receive h
  all_goals cases hm

-- What the caller was told by then: the messages in order, behind them the ending, and behind that
-- nothing but that the call is over. An error is recorded, unless that of a send that had failed
-- before stands there already.
def Told (l : Link) (completion : Completion Unit) : Prop :=
  ∃ before after,
    l.attempts = before ++ .received (ending completion) :: after ∧
    before.filterMap Attempt.receipt? = l.produced.map .value ∧
    (∀ receipt ∈ after.filterMap Attempt.receipt?,
      receipt = .ended ∨ receipt = .failed Duplex.receiveCancelled) ∧
    ∀ f, ending completion = .failed f →
      ∃ g, l.stream.error = some g ∧ (g = f ∨ .sent (.failed g) ∈ before)

-- Where messages of the handler are while the caller is not told the ending: received, arrived or
-- still waiting with the server, and these three in a row are what the handler sent.
structure Hearing (l : Link) (received arrived : List Bytes) : Prop where
  receipts     : l.receipts = received.map .value
  inbox        : l.stream.inbox = arrived.map .ok ++ if l.ended then failure l.call.result else []
  produced     : received ++ arrived ++ l.call.sent = l.produced
  inboundEnded : l.stream.inboundEnded = l.ended
  cancelled    : l.stream.cancelled = false
  closed       : l.stream.closed = false
  error        : ∀ f, l.stream.error = some f → .sent (.failed f) ∈ l.attempts

-- What every move of a caller who keeps reading keeps.
structure Sound (l : Link) : Prop where
  present  : l.call.peerGone = false
  room     : l.call.room = some Rpc.streamRoom
  returned : ∀ r, l.call.result = some r →
    ∃ completion, r = StreamCall.toResult completion ∧
      l.call.next l.call.history = .finish completion
  settled  : l.settled → l.call.result.isSome
  pending  : l.settled = false → settles l.call.result = false
  ended    : l.ended → l.settled ∧ l.call.sent = []
  caller   : (∃ received arrived, l.Hearing received arrived) ∨
    l.ended ∧ l.stream.Silent ∧ ∃ completion, l.Returned completion ∧ l.Told completion

theorem failure_toResult (completion : Completion Unit) :
    failure (some (StreamCall.toResult completion)) = [] ∧ ending completion = .ended ∨
      ∃ f, failure (some (StreamCall.toResult completion)) = [.error (.ofFault f)] ∧
        ending completion = .failed f := by
  cases completion
  case value => exact .inl ⟨rfl, rfl⟩
  case error => exact .inr ⟨_, rfl, rfl⟩
  case panic => exact .inr ⟨_, rfl, rfl⟩

theorem Told.mono {more : List Attempt} (hl : l.Told completion)
    (ha : l'.attempts = l.attempts ++ more)
    (hm : ∀ receipt ∈ more.filterMap Attempt.receipt?,
      receipt = .ended ∨ receipt = .failed Duplex.receiveCancelled)
    (hp : l'.produced = l.produced)
    (he : ∀ g, l.stream.error = some g → l'.stream.error = some g) : l'.Told completion := by
  obtain ⟨before, after, hb, hr, hafter, hf⟩ := hl
  refine ⟨before, after ++ more, by simp [ha, hb], by rw [hp]; exact hr, ?_, fun f h => ?_⟩
  · intro receipt h
    obtain h | h := List.mem_append.mp (List.filterMap_append ▸ h)
    case inl => exact hafter receipt h
    case inr => exact hm receipt h
  · obtain ⟨g, hg, hs⟩ := hf f h
    exact ⟨g, he g hg, hs⟩

-- While something can still be put on its way, the caller is not told the ending.
theorem Sound.hearing (hl : l.Sound) (he : l.ended = false) :
    ∃ received arrived, l.Hearing received arrived :=
  hl.caller.resolve_right fun ⟨h, _⟩ => by simp [he] at h

theorem Sound.not_ended (hl : l.Sound) (hs : l.settled = false) : l.ended = false :=
  Bool.eq_false_iff.mpr fun he => Bool.eq_false_iff.mp hs (hl.ended he).1

theorem Sound.served {call : StreamCall} (hl : l.Sound) (hs : l.settled = false)
    (hr : l.call.result = none) (h : l.call.Goes call) :
    Sound { l with call, settled := settles call.result } := by
  have he := hl.not_ended hs
  obtain ⟨received, arrived, hh⟩ := hl.hearing he
  cases h
  case finished completion hn =>
    refine ⟨hl.present, hl.room, ?_, ?_, id, by simp [he], .inl ⟨received, arrived, ?_⟩⟩
    · rintro r ⟨⟩
      exact ⟨completion, rfl, hn⟩
    · exact fun _ => rfl
    · exact ⟨hh.receipts, by simpa [he] using hh.inbox, hh.produced, hh.inboundEnded, hh.cancelled,
        hh.closed, hh.error⟩
  case sent payload hn =>
    have hp := Service.payloads_sent hn
    refine ⟨hl.present, hl.room, by simp [hr], by simp [hr, settles], id, by simp [he],
      .inl ⟨received, arrived, ?_⟩⟩
    refine ⟨hh.receipts, by simpa [he] using hh.inbox, ?_, hh.inboundEnded, hh.cancelled,
      hh.closed, hh.error⟩
    calc received ++ arrived ++ (l.call.sent ++ [payload])
      _ = l.produced ++ [payload] := by rw [← List.append_assoc, hh.produced]
      _ = _                       := hp.symm
  case received signal inbox hn =>
    have hp := Service.payloads_other l.call.next l.call.history hn
    refine ⟨hl.present, hl.room, by simp [hr], by simp [hr, settles], id, by simp [he],
      .inl ⟨received, arrived, ?_⟩⟩
    exact ⟨hh.receipts, by simpa [he] using hh.inbox, hh.produced.trans hp.symm, hh.inboundEnded,
      hh.cancelled, hh.closed, hh.error⟩

theorem Sound.posted {f : Fault} (hl : l.Sound) (hr : l.call.result = some (.error f))
    (hs : l.settled = false) : Sound { l with settled := true } := by
  have he := hl.not_ended hs
  obtain ⟨received, arrived, hh⟩ := hl.hearing he
  refine ⟨hl.present, hl.room, hl.returned, by simp [hr], by simp, by simp [he],
    .inl ⟨received, arrived, ?_⟩⟩
  exact ⟨hh.receipts, hh.inbox, hh.produced, hh.inboundEnded, hh.cancelled, hh.closed, hh.error⟩

theorem Sound.carried {m : Bytes} {rest : List Bytes} (hl : l.Sound) (h : l.call.sent = m :: rest) :
    Sound
      { l with call := { l.call with sent := rest }, stream := l.stream.arrive (.ok m) } := by
  have he : l.ended = false := Bool.eq_false_iff.mpr fun he => by simp [(hl.ended he).2] at h
  obtain ⟨received, arrived, hh⟩ := hl.hearing he
  refine ⟨hl.present, hl.room, hl.returned, hl.settled, hl.pending, by simp [he],
    .inl ⟨received, arrived ++ [m], ?_⟩⟩
  refine ⟨hh.receipts, ?_, ?_, hh.inboundEnded, hh.cancelled, hh.closed, hh.error⟩
  · simp [Duplex.arrive, hh.inbox, he]
  · calc received ++ (arrived ++ [m]) ++ rest
      _ = received ++ arrived ++ m :: rest := by simp
      _ = l.produced                       := h ▸ hh.produced

theorem Sound.finished (hl : l.Sound) (hs : l.settled) (hc : l.call.sent = [])
    (he : l.ended = false) : l.finish.Sound := by
  obtain ⟨received, arrived, hh⟩ := hl.hearing he
  refine ⟨hl.present, hl.room, hl.returned, hl.settled, hl.pending, fun _ => ⟨hs, hc⟩,
    .inl ⟨received, arrived, ?_⟩⟩
  exact ⟨hh.receipts, by simp [finish, hh.inbox, he], hh.produced, rfl, hh.cancelled, hh.closed,
    hh.error⟩

theorem Sound.requested (hl : l.Sound) (inbox : List Service.Inbound) (inboundEnded : Bool)
    (outbox : List Bytes) (sendClosed peerGone : Bool) :
    Sound
      { l with
        call   := { l.call with inbox, inboundEnded }
        stream := { l.stream with outbox, sendClosed, peerGone } } := by
  refine ⟨hl.present, hl.room, hl.returned, hl.settled, hl.pending, hl.ended, ?_⟩
  obtain ⟨received, arrived, hh⟩ | ⟨he, hs, completion, hr, ht⟩ := hl.caller
  case inl =>
    exact .inl ⟨received, arrived, hh.receipts, hh.inbox, hh.produced, hh.inboundEnded,
      hh.cancelled, hh.closed, hh.error⟩
  case inr =>
    exact .inr ⟨he, ⟨hs.inbox, hs.inboundEnded, hs.closed⟩, completion, ⟨hr.result, hr.action⟩, ht⟩

theorem Sound.sent {outcome : SendOutcome} {stream : Duplex} (hl : l.Sound)
    (h : l.stream.SendsOnly (outcome, stream)) :
    Sound { l with stream, attempts := l.attempts ++ [.sent outcome] } := by
  refine ⟨hl.present, hl.room, hl.returned, hl.settled, hl.pending, hl.ended, ?_⟩
  obtain ⟨received, arrived, hh⟩ | ⟨he, hs, completion, hr, ht⟩ := hl.caller
  case inl =>
    refine .inl ⟨received, arrived, ?_, h.inbox.trans hh.inbox, hh.produced,
      h.inboundEnded.trans hh.inboundEnded, h.cancelled.trans hh.cancelled,
      h.closed.trans hh.closed, fun f hf => ?_⟩
    · simpa [receipts, Attempt.receipt?, List.filterMap_cons] using hh.receipts
    · obtain he | ⟨g, rfl, he⟩ := h.error
      case inl => exact List.mem_append_left _ (hh.error f (he ▸ hf))
      case inr =>
        obtain hd | ⟨_, hg⟩ := Option.or_eq_some_iff.mp (he.symm.trans hf)
        case inl => exact List.mem_append_left _ (hh.error f hd)
        case inr => cases hg; simp
  case inr =>
    refine .inr ⟨he, ⟨h.inbox.trans hs.inbox, h.inboundEnded.trans hs.inboundEnded,
      h.closed.trans hs.closed⟩, completion, ⟨hr.result, hr.action⟩, ?_⟩
    refine ht.mono rfl (by simp [Attempt.receipt?]) rfl fun g hg => ?_
    obtain he | ⟨f, _, he⟩ := h.error
    case inl => exact he.trans hg
    case inr => exact he.trans (by simp [hg])

-- Where no message has arrived, only the end of the call is something to receive.
theorem Hearing.ended {received : List Bytes} {cancelFirst : Bool} (hh : l.Hearing received [])
    (hw : (l.stream.receive cancelFirst).1 ≠ .waiting) : l.ended := by
  cases he : l.ended
  case true => rfl
  case false =>
    have hi : l.stream.inbox = [] := by simpa [he] using hh.inbox
    exact absurd (Duplex.receive_waiting hh.cancelled hi (hh.inboundEnded.trans he)) hw

-- The last message was received before, so what comes next is the ending.
theorem Hearing.ending {received : List Bytes} (hh : l.Hearing received []) (he : l.ended)
    (hr : l.Returned completion) (cancelFirst : Bool) :
    (l.stream.receive cancelFirst).1 = ending completion ∧
      (l.stream.receive cancelFirst).2.Silent ∧
      ∀ f, ending completion = .failed f →
        (l.stream.receive cancelFirst).2.error = l.stream.error.or (some f) := by
  have hin : l.stream.inboundEnded := hh.inboundEnded.trans he
  have hi := hh.inbox
  simp only [List.map_nil, List.nil_append, he, if_true, hr.result] at hi
  obtain ⟨hf, hend⟩ | ⟨f, hf, hend⟩ := failure_toResult completion
  case inl =>
    rw [hf] at hi
    rw [Duplex.receive_ended hh.cancelled hi hin, hend]
    exact ⟨rfl, ⟨by simpa using hi, by simpa using hin, by simp⟩, by simp⟩
  case inr =>
    rw [hf] at hi
    rw [Duplex.receive_failed hh.cancelled hi, Status.toFault_ofFault, hend]
    refine ⟨rfl, ⟨by simp [Duplex.record], by simpa [Duplex.record] using hin, by simp⟩, ?_⟩
    rintro g ⟨⟩
    simp [Duplex.record]

theorem Sound.received {cancelFirst : Bool} (hl : l.Sound)
    (hw : (l.stream.receive cancelFirst).1 ≠ .waiting) :
    Sound
      { l with
        stream   := (l.stream.receive cancelFirst).2
        attempts := l.attempts ++ [.received (l.stream.receive cancelFirst).1] } := by
  refine ⟨hl.present, hl.room, hl.returned, hl.settled, hl.pending, hl.ended, ?_⟩
  obtain ⟨received, arrived, hh⟩ | ⟨he, hs, completion, hr, ht⟩ := hl.caller
  case inl =>
    cases arrived
    case cons m rest =>
      have hi := hh.inbox
      rw [List.map_cons, List.cons_append] at hi
      rw [Duplex.receive_value hh.cancelled hi]
      refine .inl ⟨received ++ [m], rest, ?_, rfl, ?_, hh.inboundEnded, hh.cancelled, hh.closed,
        fun f hf => List.mem_append_left _ (hh.error f hf)⟩
      · have hr := hh.receipts
        rw [receipts] at hr
        simp [receipts, Attempt.receipt?, hr]
      · calc received ++ [m] ++ rest ++ l.call.sent
          _ = received ++ m :: rest ++ l.call.sent := by simp
          _ = l.produced                           := hh.produced
    case nil =>
      have he := hh.ended hw
      obtain ⟨hs, hc⟩ := hl.ended he
      obtain ⟨r, hr⟩ := Option.isSome_iff_exists.mp (hl.settled hs)
      obtain ⟨completion, rfl, ha⟩ := hl.returned r hr
      obtain ⟨hend, hsilent, hf⟩ := hh.ending he ⟨hr, ha⟩ cancelFirst
      refine .inr ⟨he, hsilent, completion, ⟨hr, ha⟩, l.attempts, [], by simp [hend], ?_, by simp,
        fun f h => ?_⟩
      · have hp := hh.produced
        rw [hc, List.append_nil, List.append_nil] at hp
        exact hp ▸ hh.receipts
      · simp only [hf f h]
        cases hg : l.stream.error
        case none   => exact ⟨f, rfl, .inl rfl⟩
        case some g => exact ⟨g, rfl, .inr (hh.error g hg)⟩
  case inr =>
    obtain ⟨hend, hsilent, herror⟩ := hs.receive cancelFirst
    refine .inr ⟨he, hsilent, completion, ⟨hr.result, hr.action⟩, ?_⟩
    exact ht.mono rfl (by simpa [Attempt.receipt?] using hend) rfl herror

theorem Sound.change {delivers : Bool} (hl : l.Sound) (h : Change l delivers l') : l'.Sound := by
  cases h
  case served call hs hr h        => exact hl.served hs hr h
  case posted f hr hs             => exact hl.posted hr hs
  case carried m rest h           => exact hl.carried h
  case finished hs hc he          => exact hl.finished hs hc he
  case requested                  => exact hl.requested ..
  case sent outcome stream h      => exact hl.sent h
  case received cancelFirst hw    => exact hl.received hw

theorem Sound.step {move : Move} (hl : l.Sound) (hm : move.keepsReading)
    (h : l.step? move = some l') : l'.Sound :=
  hl.change (change_of_step h hm hl.present)

theorem Sound.run {moves : List Move} (hl : l.Sound) (hm : ∀ move ∈ moves, move.keepsReading)
    (h : l.run? moves = some l') : l'.Sound := by
  induction moves generalizing l
  case nil => cases h; exact hl
  case cons move moves hi =>
    obtain ⟨next, hn, h⟩ := Option.bind_eq_some_iff.mp h
    exact hi (hl.step (hm move List.mem_cons_self) hn)
      (fun m h => hm m (List.mem_cons_of_mem _ h)) h

theorem sound_start {d : Service.Descriptor} {codec : Codec} {view : Service.CallView}
    {call : StreamCall} (h : d.openStream codec view = .ok call) (codec' : Codec)
    (capacity : Nat) : (start call (.opened codec' capacity)).Sound := by
  have hc : ∃ next, call = ⟨next, [], [], false, [], none, false, none⟩ := by
    unfold Service.Descriptor.openStream at h
    split at h
    case h_1 => cases h
    case h_2 => cases h; exact ⟨_, rfl⟩
    case h_3 => cases h; exact ⟨_, rfl⟩
  obtain ⟨next, rfl⟩ := hc
  exact ⟨rfl, rfl, nofun, nofun, fun _ => rfl, nofun,
    .inl ⟨[], [], rfl, rfl, rfl, rfl, rfl, rfl, nofun⟩⟩

-- An upper bound for the moves that still deliver something once the handler has returned.
def outstanding (l : Link) : Nat :=
  2 * l.call.sent.length + l.stream.inbox.length + (!l.settled).toNat + 2 * (!l.ended).toNat +
    (!l.stream.closed).toNat

theorem Sound.told (hl : l.Sound) (hr : l.Returned completion) (h : l.outstanding = 0) :
    l.Told completion := by
  obtain ⟨received, arrived, hh⟩ | ⟨_, _, other, hr', ht⟩ := hl.caller
  case inl =>
    have hc := hh.closed
    simp [outstanding, hc] at h
  case inr =>
    have he : completion = other := by simpa [hr.action] using hr'.action
    exact he ▸ ht

theorem Returned.change {delivers : Bool} (hr : l.Returned completion)
    (h : Change l delivers l') : l'.Returned completion ∧ l'.produced = l.produced := by
  cases h
  case served call _ hn _ => exact absurd (hn.symm.trans hr.result) (by simp)
  all_goals exact ⟨⟨hr.result, hr.action⟩, rfl⟩

theorem Sound.outstanding_eq_zero (hl : l.Sound) (he : l.ended) (hs : l.stream.Silent) :
    l.outstanding = 0 := by
  obtain ⟨hset, hc⟩ := hl.ended he
  simp [outstanding, hset, hc, he, hs.inbox, hs.closed]

theorem Sound.outstanding_change {delivers : Bool} (hl : l.Sound) (hr : l.Returned completion)
    (h : Change l delivers l') : l'.outstanding ≤ l.outstanding - delivers.toNat := by
  have hl' := hl.change h
  cases h
  case served call _ hn _ => exact absurd (hn.symm.trans hr.result) (by simp)
  case posted f _ hs =>
    simp only [outstanding, hs, Bool.not_true, Bool.not_false, Bool.toNat_true, Bool.toNat_false]
    omega
  case carried m rest h =>
    simp only [outstanding, h, Duplex.arrive, List.length_cons, List.length_append, List.length_nil,
      Bool.toNat_true]
    omega
  case finished _ _ he =>
    have hf : (failure l.call.result).length ≤ 1 := by unfold failure; split <;> simp
    simp only [outstanding, finish, he, List.length_append, Bool.not_true, Bool.not_false,
      Bool.toNat_true, Bool.toNat_false]
    omega
  case requested => exact Nat.le_refl _
  case sent outcome stream h =>
    simp [outstanding, show stream.inbox = _ from h.inbox, show stream.closed = _ from h.closed]
  case received cancelFirst hw =>
    obtain ⟨received, arrived, hh⟩ | ⟨he, hs, _⟩ := hl.caller
    case inl =>
      cases arrived
      case cons m rest =>
        have hi := hh.inbox
        rw [List.map_cons, List.cons_append] at hi
        simp only [outstanding, Duplex.receive_value hh.cancelled hi, hi, List.length_cons,
          Bool.toNat_true]
        omega
      case nil =>
        have he := hh.ended hw
        rw [hl'.outstanding_eq_zero he (hh.ending he hr cancelFirst).2.1]
        exact Nat.zero_le _
    case inr =>
      rw [hl'.outstanding_eq_zero he (hs.receive cancelFirst).2.1]
      exact Nat.zero_le _

theorem Sound.outstanding_run {moves : List Move} (hl : l.Sound) (hr : l.Returned completion)
    (hm : ∀ move ∈ moves, move.keepsReading) (h : l.run? moves = some l') :
    l'.outstanding ≤ l.outstanding - moves.countP Move.delivers ∧ l'.Returned completion ∧
      l'.produced = l.produced := by
  induction moves generalizing l
  case nil => cases h; exact ⟨Nat.le_refl _, hr, rfl⟩
  case cons move moves hi =>
    obtain ⟨next, hn, h⟩ := Option.bind_eq_some_iff.mp h
    have hc := change_of_step hn (hm move List.mem_cons_self) hl.present
    obtain ⟨hr', hp⟩ := hr.change hc
    obtain ⟨hle, hr'', hp'⟩ :=
      hi (hl.change hc) hr' (fun m h => hm m (List.mem_cons_of_mem _ h)) h
    refine ⟨?_, hr'', hp'.trans hp⟩
    have ho := hl.outstanding_change hr hc
    cases hd : move.delivers <;> simp only [hd, Bool.toNat_true, Bool.toNat_false] at ho <;>
      simp [hd] <;> omega

-- The status of a handler that failed finds room once the messages have gone over.
theorem Sound.postable (hl : l.Sound) (hr : l.Returned completion) (hs : l.settled = false)
    (hc : l.call.sent = []) : (l.step? .post).isSome := by
  have hp := hl.pending hs
  rw [hr.result] at hp
  have hroom : l.call.hasRoom := by simp [StreamCall.hasRoom, hl.room, hc, Rpc.streamRoom]
  cases completion
  case value => cases hp
  case error => simp [step?, post?, hr.result, StreamCall.toResult, hs, hroom]
  case panic => simp [step?, post?, hr.result, StreamCall.toResult, hs, hroom]

theorem Hearing.receivable {received arrived : List Bytes} (hh : l.Hearing received arrived)
    (he : l.ended) : (l.step? (.receive true)).isSome := by
  have hw : (l.stream.receive true).1 ≠ .waiting := by
    have hin := hh.inboundEnded.trans he
    cases hi : l.stream.inbox
    case nil => simp [Duplex.receive_ended hh.cancelled hi hin]
    case cons item rest =>
      cases item
      case ok    => simp [Duplex.receive_value hh.cancelled hi]
      case error => simp [Duplex.receive_failed hh.cancelled hi]
  simp only [step?, receive?]
  rfl

-- As long as the caller is not told, something can be done about it.
theorem Sound.deliverable (hl : l.Sound) (hr : l.Returned completion) :
    l.Told completion ∨ ∃ move, move.delivers ∧ (l.step? move).isSome := by
  obtain ⟨received, arrived, hh⟩ | ⟨he, hs, _⟩ := hl.caller
  case inr => exact .inl (hl.told hr (hl.outstanding_eq_zero he hs))
  case inl =>
    right
    cases hc : l.call.sent
    case cons m rest => exact ⟨.carry, rfl, by simp [step?, hc]⟩
    case nil =>
      cases hs : l.settled
      case false => exact ⟨.post, rfl, hl.postable hr hs hc⟩
      case true =>
        cases he : l.ended
        case false => exact ⟨.finish, rfl, by simp [step?, hs, hc, he]⟩
        case true  => exact ⟨.receive true, rfl, hh.receivable he⟩

-- A handler that has something to do, other than to receive, is not held up for good.
theorem Sound.unstuck (hl : l.Sound) (hr : l.call.result = none)
    (hn : l.call.next l.call.history ≠ .receive) :
    (l.step? .serve).isSome ∨ (l.step? .carry).isSome := by
  cases hc : l.call.sent
  case cons m rest => exact .inr (by simp [step?, hc])
  case nil =>
    have hs : l.settled = false := Bool.eq_false_iff.mpr fun hs => by
      simpa [hr] using hl.settled hs
    have hroom : l.call.hasRoom := by simp [StreamCall.hasRoom, hl.room, hc, Rpc.streamRoom]
    exact .inl (by simpa [step?, serve?, hs] using StreamCall.step_isSome hr hn hroom)

-- A stream handler is opened and its caller keeps reading; it sends and closes its sending as it
-- likes, and every other move of the server, the handler and the transport may come at any time.
-- What was received is the beginning of what the handler sent or, if the handler has returned, all
-- of it and its ending behind it, with nothing but the end of the call or its cancellation after
-- that; an error in the ending is recorded, unless the error of a send that had failed before
-- stands there. Once the handler has returned, there is always something that can be delivered
-- until the caller is told the ending, and after so many such moves, among any others, the caller
-- is told. Before, a handler that does not wait for its caller can go on, at the latest when a
-- message has gone over.
theorem handler_heard {d : Service.Descriptor} {codec : Codec} {view : Service.CallView}
    {call : StreamCall} (ho : d.openStream codec view = .ok call) (codec' : Codec) (capacity : Nat)
    {moves : List Move} (hm : ∀ move ∈ moves, move.keepsReading)
    (hl : (start call (.opened codec' capacity)).run? moves = some l) :
    ((∃ received, received <+: l.produced ∧ l.receipts = received.map .value) ∨
      ∃ completion, l.Returned completion ∧ l.Told completion) ∧
    (∀ completion, l.Returned completion →
      (l.Told completion ∨ ∃ move, move.delivers ∧ (l.step? move).isSome) ∧
      ∀ more l', (∀ move ∈ more, move.keepsReading) → l.run? more = some l' →
        l.outstanding ≤ more.countP Move.delivers →
        l'.Told completion ∧ l'.produced = l.produced) ∧
    (l.call.result = none → l.call.next l.call.history ≠ .receive →
      (l.step? .serve).isSome ∨ (l.step? .carry).isSome) := by
  have hs : l.Sound := (sound_start ho codec' capacity).run hm hl
  refine ⟨?_, fun completion hr => ⟨hs.deliverable hr, fun more l' hmore h hle => ?_⟩, hs.unstuck⟩
  · obtain ⟨received, arrived, hh⟩ | ⟨_, _, completion, hr, ht⟩ := hs.caller
    case inl =>
      refine .inl ⟨received, ?_, hh.receipts⟩
      rw [← hh.produced, List.append_assoc]
      exact List.prefix_append ..
    case inr => exact .inr ⟨completion, hr, ht⟩
  · obtain ⟨hle', hr', hp⟩ := hs.outstanding_run hr hmore h
    exact ⟨(hs.run hmore h).told hr' (by omega), hp⟩

def refusal : Fault := .badRequest "no more"

-- A method that sends so many messages and fails.
def sendsThenFails (n : Nat) : Service.Descriptor :=
  ⟨"Count.Up", [], "", "", .duplex fun _ _ signals =>
    if signals.length < n then .send [0x31] else .fail refusal⟩

-- The first message is received while the status is put behind the second.
theorem handler_heard_through_failure :
    ∃ call l, (sendsThenFails 2).openStream .json default = .ok call ∧
      (start call (.opened .json 4)).run?
        [.serve, .serve, .serve, .carry, .receive true, .post, .carry, .finish, .receive true,
          .receive true] = some l ∧
      l.Returned (.error (.fault refusal)) ∧ l.Told (.error (.fault refusal)) := by
  refine ⟨_, _, rfl, rfl, ⟨rfl, rfl⟩, ?_⟩
  have ho : (sendsThenFails 2).openStream .json default = .ok _ := rfl
  have hm : ∀ move ∈ [Move.serve, .serve, .serve, .carry, .receive true, .post, .carry, .finish,
      .receive true, .receive true], move.keepsReading := by decide
  have told := (handler_heard ho .json 4 hm rfl).2.1 (.error (.fault refusal)) ⟨rfl, rfl⟩
  exact (told.2 [] _ (by simp) rfl (by decide)).1

-- The caller sends when the server takes nothing more, and this failure is the first.
theorem failed_send_stays_recorded :
    ∃ call l, (sendsThenFails 0).openStream .json default = .ok call ∧
      (start call (.opened .json 4)).run?
        [.serve, .post, .hangUp, .send [0x31], .finish, .receive true] = some l ∧
      l.Returned (.error (.fault refusal)) ∧ l.receipts = [.failed refusal] ∧
      l.stream.error = some Duplex.sendAfterEnd ∧ Duplex.sendAfterEnd ≠ refusal := by
  refine ⟨_, _, rfl, rfl, ⟨rfl, rfl⟩, ?_, rfl, by decide⟩
  show [Receipt.failed (Status.ofFault refusal).toFault] = [.failed refusal]
  rw [Status.toFault_ofFault]

end Link
end CallFabric.Client
