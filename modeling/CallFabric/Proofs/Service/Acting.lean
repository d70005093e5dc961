import CallFabric.Service.Call

namespace CallFabric.Service

-- What a handler gets to know of what it takes in.
def Inbound.signal : Inbound → Signal
  | .message payload => .received (some payload)
  | .failure reason  => .receiveFailed (.badRequest ("stream recv: " ++ reason))

namespace StreamCall

variable {c c' : StreamCall}

inductive Acts (c : StreamCall) : StreamCall → Prop
  | finished (completion : Completion Unit) (h : c.next c.history = .finish completion) :
    Acts c { c with result := some (toResult completion) }
  | received (i : Inbound) (rest : List Inbound) (hi : c.inbox = i :: rest) :
    Acts c { c with history := i.signal :: c.history, inbox := rest }
  | ended (hi : c.inbox = []) (he : c.inboundEnded) :
    Acts c { c with history := .received none :: c.history }
  | sent (payload : Bytes) (h : c.next c.history = .send payload) :
    Acts c { c with history := .sent :: c.history, sent := c.sent ++ [payload] }
  | sendFailed (payload : Bytes) (h : c.next c.history = .send payload) (hp : c.peerGone)
    (f : Fault) : Acts c { c with history := .sendFailed f :: c.history }

theorem acts_of_step (h : c.step? = some c') : c.result = none ∧ c.Acts c' := by
  unfold step? at h
  split at h
  case isTrue => cases h
  case isFalse hr =>
    refine ⟨by simpa using hr, ?_⟩
    split at h
    case h_1 completion hn => cases h; exact .finished completion hn
    case h_2 =>
      split at h
      case h_1 hi => cases h; exact .received _ _ hi
      case h_2 hi => cases h; exact .received _ _ hi
      case h_3 hi =>
        split at h
        case isTrue he => cases h; exact .ended hi he
        case isFalse   => cases h
    case h_3 payload hn =>
      split at h
      case isTrue hp => cases h; exact .sendFailed payload hn hp _
      case isFalse =>
        split at h
        case isTrue  => cases h; exact .sent payload hn
        case isFalse => cases h

theorem step_finish {completion : Completion Unit} (hr : c.result = none)
    (h : c.next c.history = .finish completion) :
    c.step? = some { c with result := some (toResult completion) } := by
  simp [step?, hr, h]

theorem step_receive (hr : c.result = none) (h : c.next c.history = .receive) :
    c.step?.isSome ↔ c.inbox ≠ [] ∨ c.inboundEnded := by
  simp only [step?, hr, h]
  cases c.inbox
  case nil          => cases c.inboundEnded <;> simp
  case cons i inbox => cases i <;> simp

end StreamCall
end CallFabric.Service
