import CallFabric.Gateway.Session

namespace CallFabric.Client.Duplex

-- What a receive comes to, and what it takes from what has arrived.
inductive Received (d : Duplex) : Receipt Bytes × Duplex → Prop
  | value (payload rest) (hi : d.inbox = .ok payload :: rest) :
    Received d (.value payload, { d with inbox := rest })
  | failed (f) (status : Option Status) (inbox)
    (hi : d.inbox = status.toList.map .error ++ inbox) : Received d (.failed f, { d with inbox })
  | ended : Received d (.ended, d)
  | waiting : Received d (.waiting, d)

theorem received_takeArrived (d : Duplex) : d.Received d.takeArrived := by
  unfold takeArrived
  split
  case h_1 payload rest hi => exact .value payload rest hi
  case h_2 status rest hi  => exact .failed _ (some status) rest hi
  case h_3 =>
    split
    case isTrue  => exact .ended
    case isFalse => exact .waiting

theorem received_tryReceive (cancelFirst : Bool) (d : Duplex) :
    d.Received (d.tryReceive cancelFirst) := by
  unfold tryReceive
  split
  case isFalse => exact d.received_takeArrived
  case isTrue =>
    split
    case isTrue => exact .failed _ none d.inbox rfl
    case isFalse =>
      split
      case h_1 => exact .failed _ none d.inbox rfl
      case h_2 => exact d.received_takeArrived

end CallFabric.Client.Duplex

namespace CallFabric.Gateway

open Client (Duplex)
open Client.Duplex (Deed Receipt SendOutcome)

def Frame.payload? : Frame → Option Bytes
  | .text t => some (.ofText t)
  | .binary _ | .ping | .pong | .close | .failure => none

def Frame.isBinary : Frame → Bool
  | .binary _ => true
  | .text _ | .ping | .pong | .close | .failure => false

namespace Session

inductive SocketReaderTurn (s : Session) : Turn → Prop
  | stops : SocketReaderTurn s (s.stop .socketReader)
  | reads (t rest) (hh : s.socketReader = .empty) (hs : s.source = .text t :: rest) :
    SocketReaderTurn s (.on { s with
      source := rest, socketReader := .holding (.ofText t), read := s.read ++ [.ofText t] })
  | skips (f rest) (hs : s.source = f :: rest) (hp : f.payload? = none) (hb : f.isBinary = false) :
    SocketReaderTurn s (.on { s with source := rest })
  | refuses (f rest refused) (hs : s.source = f :: rest) (hp : f.payload? = none) :
    SocketReaderTurn s ({ s with source := rest, refused }.stop .socketReader)
  | passes (payload) (hh : s.socketReader = .holding payload)
    (hr : s.toCall.length < queueCapacity) :
    SocketReaderTurn s (.on { s with
      socketReader := .empty, toCall := s.toCall ++ [payload] })

inductive CallWriterTurn (s : Session) : Turn → Prop
  | stops : CallWriterTurn s (s.stop .callWriter)
  | takes (payload rest) (hh : s.callWriter = .empty) (hq : s.toCall = payload :: rest) :
    CallWriterTurn s (.on { s with toCall := rest, callWriter := .holding payload })
  -- Sending is closed already, and what was taken is lost.
  | drops (payload rest) (hh : s.callWriter = .empty) (hq : s.toCall = payload :: rest) :
    CallWriterTurn s ({ s with toCall := rest }.stop .callWriter)
  | hands (payload) (hh : s.callWriter = .holding payload) :
    CallWriterTurn s (.on { s with
      call       := { s.call with outbox := s.call.outbox ++ [payload] }
      callWriter := .empty
      handed     := s.handed ++ [payload] })
  | fails (payload f) (hh : s.callWriter = .holding payload) :
    CallWriterTurn s (.out s (.record f :: parting .callWriter))

inductive CallReaderTurn (s : Session) : Turn → Prop
  | stops : CallReaderTurn s (s.stop .callReader)
  | receives (payload rest) (hh : s.callReader = .empty)
    (hi : s.call.inbox = .ok payload :: rest) :
    CallReaderTurn s (.on { s with
      call       := { s.call with inbox := rest }
      callReader := .holding payload
      received   := s.received ++ [payload] })
  -- The call has no message any more; at most a status was taken from what had arrived.
  | ends (status : Option Status) (inbox last) (hh : s.callReader = .empty)
    (hi : s.call.inbox = status.toList.map .error ++ inbox)
    (hl : last = Duplex.closing ∨ ∃ f, last = .record f :: Duplex.closing) :
    CallReaderTurn s (.out { s with call := { s.call with inbox } } last)
  | passes (payload) (hh : s.callReader = .holding payload)
    (hr : s.toSocket.length < queueCapacity) :
    CallReaderTurn s (.on { s with
      callReader := .empty, toSocket := s.toSocket ++ [payload] })

inductive SocketWriterTurn (s : Session) : Turn → Prop
  | parts (hw : s.socketWriter = .idle) : SocketWriterTurn s (.on s.beginClose)
  | pings (nextPing) (hw : s.socketWriter = .idle) :
    SocketWriterTurn s (.on ({ s with nextPing }.beginWrite .ping))
  | takes (payload rest) (hw : s.socketWriter = .idle) (hq : s.toSocket = payload :: rest) :
    SocketWriterTurn s (.on ({ s with toSocket := rest }.beginWrite (.text payload.lossy)))
  | writes (message) (hw : s.socketWriter = .writing message) (ha : s.accepting) :
    SocketWriterTurn s (.on { s with
      socketWriter := .idle, written := s.written ++ [message] })
  | breaks (message) (hw : s.socketWriter = .writing message) (ha : s.accepting) :
    SocketWriterTurn s (.on s.beginClose)
  | leaves (last) (hw : s.socketWriter = .closing) (ha : s.accepting)
    (hl : last = [] ∨ last = [SocketMessage.close]) :
    SocketWriterTurn s ({ s with written := s.written ++ last }.stop .socketWriter)

variable {s : Session} {t : Turn} {p : Pump}

theorem of_mem_ite {c : Prop} [Decidable c] {u : Turn} (h : t ∈ if c then [u] else []) :
    c ∧ t = u := by
  simpa using h

theorem eq_stop_of_onCancel (h : t ∈ s.onCancel p) : t = s.stop p :=
  (of_mem_ite h).2

theorem socketReaderTurn (h : t ∈ s.socketReaderTurns) : SocketReaderTurn s t := by
  unfold socketReaderTurns at h
  split at h
  case h_1 => exact absurd h List.not_mem_nil
  case h_2 hh =>
    obtain h | h := List.mem_append.mp h
    case inl => exact eq_stop_of_onCancel h ▸ .stops
    case inr =>
      unfold readFrame at h
      split at h <;> rename_i hs
      case h_7 => exact (of_mem_ite h).2 ▸ .stops
      all_goals obtain rfl := List.mem_singleton.mp h
      case h_1       => exact .reads _ _ hh hs
      case h_3 | h_4 => exact .skips _ _ hs rfl rfl
      all_goals exact .refuses _ _ _ hs rfl
  case h_3 payload hh =>
    obtain h | h := List.mem_append.mp h
    case inl => exact eq_stop_of_onCancel h ▸ .stops
    case inr =>
      split at h
      case isTrue  => exact List.mem_singleton.mp h ▸ .stops
      case isFalse =>
        obtain ⟨hr, rfl⟩ := of_mem_ite h
        exact .passes payload hh hr

-- What was not sent leaves the call as it is.
theorem callWriterTurn_of_afterSend {payload : Bytes} (hh : s.callWriter = .holding payload)
    {closeFirst : Bool} (h : t ∈ s.afterSend payload (s.call.trySend closeFirst payload)) :
    CallWriterTurn s t := by
  have ho := s.call.trySend_outbox closeFirst payload
  generalize s.call.trySend closeFirst payload = r at h ho
  obtain ⟨outcome, call⟩ := r
  cases outcome
  case sent =>
    obtain rfl : { s.call with outbox := s.call.outbox ++ [payload] } = call := ho.symm
    exact List.mem_singleton.mp h ▸ .hands payload hh
  case failed f =>
    obtain rfl : call = s.call := by simpa using ho
    exact List.mem_singleton.mp h ▸ .fails payload f hh
  case waiting => exact absurd h List.not_mem_nil

theorem callWriterTurn (h : t ∈ s.callWriterTurns) : CallWriterTurn s t := by
  unfold callWriterTurns at h
  split at h
  case h_1 => exact absurd h List.not_mem_nil
  case h_2 hh =>
    obtain h | h := List.mem_append.mp h
    case inl => exact eq_stop_of_onCancel h ▸ .stops
    case inr =>
      split at h
      case h_1 payload rest hq =>
        dsimp only at h
        split at h
        case isTrue  => exact List.mem_singleton.mp h ▸ .drops payload rest hh hq
        case isFalse => exact List.mem_singleton.mp h ▸ .takes payload rest hh hq
      case h_2 => exact (of_mem_ite h).2 ▸ .stops
  case h_3 payload hh =>
    obtain h | h := List.mem_append.mp h
    case inl => exact callWriterTurn_of_afterSend hh h
    case inr => exact callWriterTurn_of_afterSend hh (List.mem_ite_nil_right.mp h).2

theorem callReaderTurn_of_afterReceive (hh : s.callReader = .empty) {cancelFirst : Bool}
    (h : t ∈ s.afterReceive (s.call.tryReceive cancelFirst)) : CallReaderTurn s t := by
  have hr := s.call.received_tryReceive cancelFirst
  generalize s.call.tryReceive cancelFirst = r at h hr
  cases hr
  case value payload rest hi => exact List.mem_singleton.mp h ▸ .receives payload rest hh hi
  case failed f status inbox hi =>
    exact List.mem_singleton.mp h ▸ .ends status inbox _ hh hi (.inr ⟨f, rfl⟩)
  case ended =>
    exact List.mem_singleton.mp h ▸ .ends none s.call.inbox _ hh rfl (.inl rfl)
  case waiting => exact absurd h List.not_mem_nil

theorem callReaderTurn (h : t ∈ s.callReaderTurns) : CallReaderTurn s t := by
  unfold callReaderTurns at h
  split at h
  case h_1 => exact absurd h List.not_mem_nil
  case h_2 hh =>
    obtain h | h := List.mem_append.mp h
    case inl =>
      obtain h | h := List.mem_append.mp h
      case inl => exact eq_stop_of_onCancel h ▸ .stops
      case inr => exact callReaderTurn_of_afterReceive hh h
    case inr => exact callReaderTurn_of_afterReceive hh (List.mem_ite_nil_right.mp h).2
  case h_3 payload hh =>
    obtain h | h := List.mem_append.mp h
    case inl => exact eq_stop_of_onCancel h ▸ .stops
    case inr =>
      split at h
      case isTrue  => exact List.mem_singleton.mp h ▸ .stops
      case isFalse =>
        obtain ⟨hr, rfl⟩ := of_mem_ite h
        exact .passes payload hh hr

theorem socketWriterTurn (h : t ∈ s.socketWriterTurns) : SocketWriterTurn s t := by
  unfold socketWriterTurns at h
  split at h
  case h_1 => exact absurd h List.not_mem_nil
  case h_2 hw =>
    obtain h | h := List.mem_append.mp h
    case inl =>
      obtain h | h := List.mem_append.mp h
      case inl => exact (of_mem_ite h).2 ▸ .parts hw
      case inr => exact (of_mem_ite h).2 ▸ .pings _ hw
    case inr =>
      split at h
      case h_1 payload rest hq => exact List.mem_singleton.mp h ▸ .takes payload rest hw hq
      case h_2                 => exact (of_mem_ite h).2 ▸ .parts hw
  case h_3 message hw =>
    split at h
    case isTrue => exact absurd h List.not_mem_nil
    case isFalse ha =>
      have ha : s.accepting := by simpa using ha
      split at h
      case isTrue  => exact List.mem_singleton.mp h ▸ .breaks message hw ha
      case isFalse => exact List.mem_singleton.mp h ▸ .writes message hw ha
  case h_4 hw =>
    split at h
    case isTrue => exact absurd h List.not_mem_nil
    case isFalse ha =>
      have ha : s.accepting := by simpa using ha
      obtain rfl := List.mem_singleton.mp h
      split
      case isTrue =>
        have hn : s.written = s.written ++ [] := (List.append_nil _).symm
        exact hn ▸ .leaves [] hw ha (.inl rfl)
      case isFalse => exact .leaves _ hw ha (.inr rfl)

end Session
end CallFabric.Gateway
