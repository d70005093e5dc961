import CallFabric.Proofs.Gateway.Destination
import CallFabric.Proofs.Metadata.Passage
import CallFabric.Proofs.Rpc.Heading

namespace CallFabric

namespace Metadata

-- How headers write the time that is left, if it is said.
def timeoutValue? (left : Option Time) : Option Bytes :=
  left.map fun t => Bytes.ofText (toString t)

theorem carries_timeout (t : Time) : carries timeoutKey (toString t) :=
  carries_of_arrives (arrives_timeout t)

theorem timeout_onward (m : Metadata) (freshId : String) (left : Option Time) :
    (m.onward freshId left).toHeaders.first? timeoutKey =
      (timeoutValue? left).or (m.toHeaders.first? timeoutKey) := by
  have hd : timeoutKey ∉ derivedKeys := by decide
  cases left
  case none   => exact first?_toHeaders_outbound hd m freshId
  case some t => exact first?_toHeaders_insert_self (by decide) (carries_timeout t) _

theorem timeout_callMetadata {hs : Headers} (hl : ∀ p ∈ hs, Text.lower p.1 = p.1)
    (contentType requestId : String) :
    (Gateway.callMetadata hs contentType requestId).toHeaders.first? timeoutKey =
      (hs.joined? timeoutKey).map Bytes.ofText := by
  have hg : (ofHeaders hs).entries.get? timeoutKey = hs.joined? timeoutKey :=
    get?_ofHeaders hl timeoutKey
  rw [Gateway.callMetadata, first?_toHeaders_insert_of_ne (by decide),
    first?_toHeaders_insert_of_ne (by decide), first?_toHeaders_of_sorted (sorted_ofHeaders hs), hg]
  cases hj : hs.joined? timeoutKey
  case none       => rfl
  case some value =>
    have hc : carries timeoutKey value := carries_of_arrives (by
      rw [arrives, Headers.all_isVisible_ofText, Headers.isShown_joined hj]
      decide)
    rw [Option.filter_some, if_pos hc]

end Metadata

namespace Client

open Metadata (timeoutKey timeoutValue?)

variable {c : Client} {ctx : Context} {freshId service endpoint : String} {now : Time}
  {o : Outgoing}

-- A stream says how much time is left as its context has it, if the context has a deadline or there
-- is nothing in its metadata that a transport carries under that name; for otherwise this is what
-- it says.
theorem stream_tells_deadline_iff
    (h : c.streamOutgoing ctx freshId now service endpoint = .ok o) :
    let told := o.metadata.toHeaders.first? timeoutKey
    let due := timeoutValue? (ctx.remaining? now)
    let own := ctx.metadata.toHeaders.first? timeoutKey
    told = due.or own ∧ (told = due ↔ ctx.deadline.isSome ∨ own = none) := by
  intro told due own
  have ht : told = due.or own := by
    rw [← Metadata.timeout_onward ctx.metadata freshId, ← (outgoing_metadata h).1]
  refine ⟨ht, ?_⟩
  rw [ht]
  cases hd : ctx.deadline
  case none =>
    have hn : due = none := by simp [due, timeoutValue?, Context.remaining?, hd]
    simp [hn]
  case some deadline =>
    have hs : due = some (Bytes.ofText (toString (deadline - now))) := by
      simp [due, timeoutValue?, Context.remaining?, hd]
    simp [hs]

-- A second is left, and what the metadata says of it does not matter.
theorem stream_tells_deadline_over_own :
    let codecs := Codec.Registry.empty.register "application/json" .json
    let c := Client.ofConfig {} codecs
    let m := Metadata.ofPairs [("x-content-type", "application/json"), ("Timeout", "5")]
    let ctx := ((Context.new .empty m).1).withTimeout 7 1000000000
    ∃ o, c.streamOutgoing ctx "r" 7 "sso" "Auth.Echo" = .ok o ∧
      o.metadata.toHeaders.first? timeoutKey = some (Bytes.ofText "1000000000") := by
  intro codecs c m ctx
  have hs : (c.streamOutgoing ctx "r" 7 "sso" "Auth.Echo").toOption.isSome := by decide +kernel
  have hd : timeoutValue? (ctx.remaining? 7) = some (Bytes.ofText "1000000000") := by
    decide +kernel
  cases ho : c.streamOutgoing ctx "r" 7 "sso" "Auth.Echo"
  case error e => simp [ho, Except.toOption] at hs
  case ok o    => exact ⟨o, rfl, ((stream_tells_deadline_iff ho).2.mpr (.inl rfl)).trans hd⟩

end Client

namespace Gateway

open Metadata (timeoutKey)

variable {g : Gateway} {c : Client} {o : Occasion} {p : Parts} {t : SessionTarget}
  {rest service endpoint freshId : String} {now : Time} {out : Client.Outgoing}

theorem metadata_answerSession (h : (g.answerSession o p rest).response = .upgrade t) :
    t.metadata = callMetadata p.headers ContentType.json o.freshId := by
  simp only [answerSession] at h
  split at h
  case h_1 => cases h
  case h_2 =>
    split at h
    case h_1 => cases h
    case h_2 =>
      split at h
      case h_1 => cases h
      case h_2 =>
        cases h
        rfl

-- No session has a deadline, so its stream says what was said in the request for the socket.
theorem session_tells_request (hl : ∀ q ∈ p.headers, Text.lower q.1 = q.1)
    (ht : (g.answerSession o p rest).response = .upgrade t)
    (h : c.streamOutgoing (contextOf t.metadata) freshId now service endpoint = .ok out) :
    out.metadata.toHeaders.first? timeoutKey = (p.headers.joined? timeoutKey).map Bytes.ofText := by
  have hd : (contextOf t.metadata).remaining? now = none := rfl
  rw [(Client.outgoing_metadata h).1, Metadata.timeout_onward, hd]
  exact metadata_answerSession ht ▸ Metadata.timeout_callMetadata hl ..

-- Who asks for a socket has set no deadline, but named a time, and a server takes it for one.
theorem session_tells_unset_deadline :
    let p := { socketRequest with
      headers := socketRequest.headers ++ [("timeout", Bytes.ofText "5")] }
    let codecs := Codec.Registry.empty.register "application/json" .json
    let c := Client.ofConfig {} codecs
    let n : Rpc.Network := ⟨[], .octets [127, 0, 0, 1] 9⟩
    let g := Gateway.ofConfig {} (.remote c n)
    let m := callMetadata p.headers ContentType.json "r"
    let arrival? := (c.streamOutgoing (contextOf m) "r" 0 "sso" "Auth.Echo").toOption.map fun o =>
      n.arrival o.path o.metadata []
    (g.answerSession ⟨0, "r", 0⟩ p "sso/Auth.Echo").response =
        .upgrade ⟨"sso", "Auth.Echo", "sso:10000", m⟩ ∧
      (contextOf m).deadline = none ∧
      arrival?.map (·.headers.first? Metadata.timeoutKey) = some (some (Bytes.ofText "5")) ∧
      arrival?.map (·.heading.timeout) = some (some 5) := by
  decide +kernel

end Gateway
end CallFabric
