import CallFabric.Proofs.Service.Acting
import CallFabric.Proofs.Service.Verdict

namespace CallFabric.Service

namespace ServerTask

variable (request : Request) (codec : Codec)

def of (history : List Signal) : ServerTask :=
  history.foldr (fun s (t : ServerTask) => t.take request codec s) start

variable {request codec}

theorem foldr_take_refused (f : Fault) (called : List Datum) (since : List Signal) :
    since.foldr (fun s (t : ServerTask) => t.take request codec s) ⟨.refused f, called⟩ =
      ⟨.refused f, called⟩ := by
  induction since
  case nil             => rfl
  case cons s since hi => rw [List.foldr_cons, hi]; rfl

theorem foldr_take_serving (d : Datum) (called : List Datum) (since : List Signal) :
    since.foldr (fun s (t : ServerTask) => t.take request codec s) ⟨.serving d [], called⟩ =
      ⟨.serving d since, called⟩ := by
  induction since
  case nil             => rfl
  case cons s since hi => rw [List.foldr_cons, hi]; rfl

theorem of_failed (f : Fault) (later : List Signal) :
    of request codec (later ++ [.receiveFailed f]) = ⟨.refused f, []⟩ := by
  rw [of, List.foldr_append]
  exact foldr_take_refused ..

variable {message : Option Bytes}

theorem of_refused {r : Refusal} (h : request.accept codec (message.getD []) = .error r)
    (later : List Signal) :
    of request codec (later ++ [.received message]) = ⟨.refused r.fault, []⟩ := by
  have hs : start.take request codec (.received message) = ⟨.refused r.fault, []⟩ := by
    simp only [take, start, Request.read_refused h]
  rw [of, List.foldr_append, List.foldr_cons, List.foldr_nil, hs, foldr_take_refused]

theorem of_accepted {d : Datum} (h : request.accept codec (message.getD []) = .ok d)
    (later : List Signal) :
    of request codec (later ++ [.received message]) = ⟨.serving d later, [d]⟩ := by
  have hs : start.take request codec (.received message) = ⟨.serving d [], [d]⟩ := by
    simp only [take, start, Request.read_accepted h]
  rw [of, List.foldr_append, List.foldr_cons, List.foldr_nil, hs, foldr_take_serving]

end ServerTask

-- What follows the first signal is what the request comes to.
theorem afterRequest_received (r : Request) (next : Datum → Strategy) (codec : Codec)
    (view : CallView) (message : Option Bytes) (later : List Signal) :
    afterRequest r next codec view (later ++ [.received message]) =
      match r.accept codec (message.getD []) with
      | .error e => .fail e.fault
      | .ok d    => next d codec view later := by
  simp only [afterRequest, List.reverse_append, List.reverse_singleton, List.singleton_append]
  cases ha : r.accept codec (message.getD [])
  case error e => rw [Request.read_refused ha]
  case ok d    => simp only [Request.read_accepted ha, List.reverse_reverse]

theorem afterRequest_failed (r : Request) (next : Datum → Strategy) (codec : Codec)
    (view : CallView) (f : Fault) (later : List Signal) :
    afterRequest r next codec view (later ++ [.receiveFailed f]) = .fail f := by
  simp [afterRequest]

namespace Hosted

variable (request : Request) (next : Datum → Strategy) (codec : Codec) (view : CallView)

-- What the request is read of: the first message, or nothing where none came.
def requestOf : List Inbound → Option Bytes
  | []                    => some []
  | .message payload :: _ => some payload
  | .failure _ :: _       => none

def firstSignal : List Inbound → Signal
  | []     => .received none
  | i :: _ => i.signal

-- What a call comes to once something first came in.
inductive Concludes (h : Hosted) : Verdict Unit → Prop
  | unreceived {message : String} {rest : List Inbound} (hb : h.call.history ≠ [])
      (hp : h.arrived = .failure message :: rest) : Concludes h (.unreceived message)
  | refused {payload : Bytes} {r : Refusal} (hb : h.call.history ≠ [])
      (hp : requestOf h.arrived = some payload) (ha : request.accept codec payload = .error r) :
      Concludes h (.refused r)
  | finished {payload : Bytes} {d : Datum} {completion : Completion Unit}
      (hb : h.call.history ≠ []) (hp : requestOf h.arrived = some payload)
      (ha : request.accept codec payload = .ok d)
      (hn : next d codec view h.call.history.dropLast = .finish completion) :
      Concludes h (.ofCompletion completion)

-- How what came in for a call and what it comes to belong together.
structure Served (h : Hosted) : Prop where
  begins : h.call.history = [] →
    (h.call.step?.isSome ↔ h.arrived ≠ [] ∨ h.call.inboundEnded)
  once   : (ServerTask.of request codec h.call.history).called.length ≤ 1
  called : ∀ d, d ∈ (ServerTask.of request codec h.call.history).called ↔
    h.call.history ≠ [] ∧
      ∃ payload, requestOf h.arrived = some payload ∧ request.accept codec payload = .ok d
  action : h.call.next h.call.history =
    (ServerTask.of request codec h.call.history).action fun d => next d codec view
  single : ∀ v w, h.Concludes request next codec view v → h.Concludes request next codec view w →
    v = w
  result : ∀ r, h.call.result = some r → ∃ v, h.Concludes request next codec view v ∧ v.result = r
  ends   : ∀ v, h.Concludes request next codec view v → h.call.result = none →
    h.call.step? = some { h.call with result := some v.result }
  stays  : ∀ r happenings, h.call.result = some r → (h.run happenings).call.result = some r

-- What holds of a call at any time.
structure Sound (h : Hosted) : Prop where
  next    : h.call.next = afterRequest request next codec view
  waiting : h.call.history = [] → h.call.inbox = h.arrived
  begun   : ∀ later first, h.call.history = later ++ [first] →
    first = firstSignal h.arrived ∧ (h.arrived = [] → h.call.inboundEnded)
  result  : ∀ r, h.call.result = some r →
    ∃ completion, h.call.next h.call.history = .finish completion ∧
      StreamCall.toResult completion = r

variable {request next codec view} {h : Hosted}

theorem result_after {r : Except Fault Unit} (hr : h.call.result = some r) (e : Happening) :
    (h.after e).call.result = some r := by
  cases e
  case serve =>
    have hn : h.call.step? = none := by simp [StreamCall.step?, hr]
    simpa only [Hosted.after, hn, Option.getD_none] using hr
  case arrive     => simp only [Hosted.after]; split <;> exact hr
  case endInbound => exact hr
  case outward    => exact hr

theorem result_run {r : Except Fault Unit} (hr : h.call.result = some r)
    (happenings : List Happening) : (h.run happenings).call.result = some r := by
  induction happenings generalizing h
  case nil                  => exact hr
  case cons e happenings hi => exact hi (result_after hr e)

namespace Sound

theorem signal (hs : h.Sound request next codec view) (hr : h.call.result = none) (s : Signal)
    (inbox : List Inbound) (sent : List Bytes)
    (hf : h.call.history = [] →
      s = firstSignal h.arrived ∧ (h.arrived = [] → h.call.inboundEnded)) :
    Sound request next codec view
      { h with call := { h.call with history := s :: h.call.history, inbox, sent } } where
  next := hs.next
  waiting hn := absurd hn (by simp)
  result r h := by simp [hr] at h
  begun later first he := by
    cases later
    case nil =>
      obtain ⟨rfl, hn⟩ := List.cons.inj he
      exact hf hn
    case cons s' later => exact hs.begun later first (List.cons.inj he).2

theorem next_nil (hs : h.Sound request next codec view) (hn : h.call.history = []) :
    h.call.next h.call.history = .receive := by
  rw [hs.next, hn]
  rfl

theorem after (hs : h.Sound request next codec view) (e : Happening) :
    (h.after e).Sound request next codec view := by
  cases e
  case serve =>
    cases hc : h.call.step?
    case none => simpa only [Hosted.after, hc, Option.getD_none] using hs
    case some c =>
      simp only [Hosted.after, hc, Option.getD_some]
      obtain ⟨hr, ha⟩ := StreamCall.acts_of_step hc
      cases ha
      case finished completion hn =>
        exact ⟨hs.next, hs.waiting, hs.begun, fun r h => ⟨completion, hn, Option.some.inj h⟩⟩
      case received i rest hi =>
        exact hs.signal hr i.signal rest h.call.sent fun hn => by
          rw [← hs.waiting hn, hi]
          exact ⟨rfl, by simp⟩
      case ended hi he =>
        exact hs.signal hr (.received none) h.call.inbox h.call.sent fun hn => by
          rw [← hs.waiting hn, hi]
          exact ⟨rfl, fun _ => he⟩
      case sent payload hn =>
        exact hs.signal hr .sent h.call.inbox (h.call.sent ++ [payload]) fun hh => by
          rw [hs.next_nil hh] at hn
          cases hn
      case sendFailed payload hn _ f =>
        exact hs.signal hr (.sendFailed f) h.call.inbox h.call.sent fun hh => by
          rw [hs.next_nil hh] at hn
          cases hn
  case arrive i =>
    simp only [Hosted.after]
    split
    case isTrue => exact hs
    case isFalse he =>
      refine ⟨hs.next, fun hn => congrArg (· ++ [i]) (hs.waiting hn), fun later first hf => ?_,
        hs.result⟩
      obtain ⟨hf, hn⟩ := hs.begun later first hf
      obtain ⟨j, rest, ha⟩ := List.exists_cons_of_ne_nil (mt hn he)
      refine ⟨?_, by simp⟩
      rw [hf, ha]
      rfl
  case endInbound =>
    exact ⟨hs.next, hs.waiting, fun later first hf => ⟨(hs.begun later first hf).1, fun _ => rfl⟩,
      hs.result⟩
  case outward => exact ⟨hs.next, hs.waiting, hs.begun, hs.result⟩

theorem run (hs : h.Sound request next codec view) (happenings : List Happening) :
    (h.run happenings).Sound request next codec view := by
  induction happenings generalizing h
  case nil                  => exact hs
  case cons e happenings hi => exact hi (hs.after e)

-- What came in first, once it was taken.
theorem cases_of_begun (hs : h.Sound request next codec view) (hb : h.call.history ≠ []) :
    (∃ later message, h.call.history = later ++ [.received message] ∧
      requestOf h.arrived = some (message.getD [])) ∨
    ∃ later reason rest,
      h.call.history = later ++ [.receiveFailed (.badRequest ("stream recv: " ++ reason))] ∧
        h.arrived = .failure reason :: rest := by
  obtain ⟨later, first, he⟩ := List.eq_nil_or_concat h.call.history |>.resolve_left hb
  rw [List.concat_eq_append] at he
  obtain ⟨rfl, -⟩ := hs.begun later first he
  cases ha : h.arrived
  case nil => exact .inl ⟨later, none, by rw [he, ha]; rfl, rfl⟩
  case cons i rest =>
    rw [ha] at he
    cases i
    case message payload => exact .inl ⟨later, some payload, he, rfl⟩
    case failure reason  => exact .inr ⟨later, reason, rest, he, rfl⟩

end Sound

section Begun

variable {later : List Signal} {message : Option Bytes}
  (he : h.call.history = later ++ [.received message])
  (hp : requestOf h.arrived = some (message.getD []))
include he hp

theorem concludes_iff_refused {r : Refusal}
    (ha : request.accept codec (message.getD []) = .error r) {v : Verdict Unit} :
    h.Concludes request next codec view v ↔ v = .refused r := by
  constructor
  case mp =>
    rintro (⟨-, hf⟩ | ⟨-, hq, ha'⟩ | ⟨-, hq, ha'⟩)
    case unreceived => simp [requestOf, hf] at hp
    case refused    => simp_all
    case finished   => simp_all
  case mpr =>
    rintro rfl
    exact .refused (by simp [he]) hp ha

theorem concludes_iff_finished {d : Datum}
    (ha : request.accept codec (message.getD []) = .ok d) {v : Verdict Unit} :
    h.Concludes request next codec view v ↔
      ∃ completion,
        next d codec view later = .finish completion ∧ v = .ofCompletion completion := by
  have hl : h.call.history.dropLast = later := by simp [he]
  constructor
  case mp =>
    rintro (⟨-, hf⟩ | ⟨-, hq, ha'⟩ | ⟨-, hq, ha', hn⟩)
    case unreceived => simp [requestOf, hf] at hp
    case refused    => simp_all
    case finished completion =>
      obtain rfl := Option.some.inj (hp.symm.trans hq)
      obtain rfl := Except.ok.inj (ha.symm.trans ha')
      exact ⟨completion, hl ▸ hn, rfl⟩
  case mpr =>
    rintro ⟨completion, hn, rfl⟩
    exact .finished (by simp [he]) hp ha (hl.symm ▸ hn)

end Begun

theorem concludes_iff_unreceived {reason : String} {rest : List Inbound}
    (hb : h.call.history ≠ []) (hf : h.arrived = .failure reason :: rest) {v : Verdict Unit} :
    h.Concludes request next codec view v ↔ v = .unreceived reason := by
  constructor
  case mp =>
    rintro (⟨-, hf'⟩ | ⟨-, hq, -⟩ | ⟨-, hq, -⟩)
    case unreceived => simp_all
    case refused    => simp [requestOf, hf] at hq
    case finished   => simp [requestOf, hf] at hq
  case mpr =>
    rintro rfl
    exact .unreceived hb hf

namespace Sound

variable (hs : h.Sound request next codec view)
include hs

theorem finishes_iff (r : Except Fault Unit) :
    (∃ completion, h.call.next h.call.history = .finish completion ∧
      StreamCall.toResult completion = r) ↔
    ∃ v, h.Concludes request next codec view v ∧ v.result = r := by
  by_cases hb : h.call.history = []
  case pos =>
    have hn : ∀ v, ¬h.Concludes request next codec view v := by
      rintro v (hv | hv | hv) <;> exact hv hb
    simp [hs.next_nil hb, hn]
  case neg =>
    rw [hs.next]
    obtain ⟨later, message, he, hp⟩ | ⟨later, reason, rest, he, hf⟩ := hs.cases_of_begun hb
    case inl =>
      rw [he, afterRequest_received]
      cases ha : request.accept codec (message.getD [])
      case error e => simp [concludes_iff_refused he hp ha, Action.fail, Verdict.result,
        StreamCall.toResult, HandlerError.toFault]
      case ok d =>
        simp only [concludes_iff_finished he hp ha, Verdict.toResult_eq]
        constructor
        · rintro ⟨completion, hn, hr⟩
          exact ⟨_, ⟨completion, hn, rfl⟩, hr⟩
        · rintro ⟨-, ⟨completion, hn, rfl⟩, hr⟩
          exact ⟨completion, hn, hr⟩
    case inr =>
      rw [he, afterRequest_failed]
      simp [concludes_iff_unreceived hb hf, Action.fail, Verdict.result, StreamCall.toResult,
        HandlerError.toFault, Fault.badRequest, Fault.ofStatus, Fault.transportCode]

theorem concludes_unique {v w : Verdict Unit} (hv : h.Concludes request next codec view v)
    (hw : h.Concludes request next codec view w) : v = w := by
  have hb : h.call.history ≠ [] := by cases hv <;> assumption
  obtain ⟨later, message, he, hp⟩ | ⟨later, reason, rest, he, hf⟩ := hs.cases_of_begun hb
  case inl =>
    cases ha : request.accept codec (message.getD [])
    case error e =>
      rw [concludes_iff_refused he hp ha] at hv hw
      rw [hv, hw]
    case ok d =>
      rw [concludes_iff_finished he hp ha] at hv hw
      obtain ⟨completion, hn, rfl⟩ := hv
      obtain ⟨completion', hn', rfl⟩ := hw
      rw [Action.finish.inj (hn.symm.trans hn')]
  case inr =>
    rw [concludes_iff_unreceived hb hf] at hv hw
    rw [hv, hw]

-- The task is where its signals brought it, and says what the call does next.
theorem task :
    ((ServerTask.of request codec h.call.history).called.length ≤ 1 ∧
      ∀ d, d ∈ (ServerTask.of request codec h.call.history).called ↔
        h.call.history ≠ [] ∧
          ∃ payload, requestOf h.arrived = some payload ∧ request.accept codec payload = .ok d) ∧
    h.call.next h.call.history =
      (ServerTask.of request codec h.call.history).action fun d => next d codec view := by
  rw [hs.next]
  by_cases hb : h.call.history = []
  case pos =>
    rw [hb]
    exact ⟨⟨by simp [ServerTask.of, ServerTask.start], by simp [ServerTask.of, ServerTask.start]⟩,
      rfl⟩
  case neg =>
    obtain ⟨later, message, he, hp⟩ | ⟨later, reason, rest, he, hf⟩ := hs.cases_of_begun hb
    case inl =>
      rw [he, afterRequest_received]
      cases ha : request.accept codec (message.getD [])
      case error e =>
        rw [ServerTask.of_refused ha]
        exact ⟨⟨by simp, by simp [hp, ha]⟩, rfl⟩
      case ok d =>
        rw [ServerTask.of_accepted ha]
        refine ⟨⟨by simp, fun x => ?_⟩, rfl⟩
        simp [hp, ha]
        exact eq_comm
    case inr =>
      rw [he, afterRequest_failed, ServerTask.of_failed]
      exact ⟨⟨by simp, by simp [requestOf, hf]⟩, rfl⟩

theorem served : h.Served request next codec view where
  begins hb := by
    have hr : h.call.result = none := by
      cases hr : h.call.result
      case none   => rfl
      case some r =>
        obtain ⟨completion, hn, -⟩ := hs.result r hr
        rw [hs.next_nil hb] at hn
        cases hn
    rw [StreamCall.step_receive hr (hs.next_nil hb), hs.waiting hb]
  once := hs.task.1.1
  called := hs.task.1.2
  action := hs.task.2
  single _ _ := hs.concludes_unique
  result r hr := (hs.finishes_iff r).mp (hs.result r hr)
  ends v hv hr := by
    obtain ⟨completion, hn, he⟩ := (hs.finishes_iff v.result).mpr ⟨v, hv, rfl⟩
    rw [StreamCall.step_finish hr hn, he]
  stays _ happenings hr := result_run hr happenings

end Sound

theorem sound_host {d : Descriptor} {call : StreamCall}
    (hd : d.handler = .serverStream request next) (ho : d.openStream codec view = .ok call) :
    (host call).Sound request next codec view := by
  simp only [Descriptor.openStream, hd, Except.ok.injEq] at ho
  subst ho
  exact ⟨rfl, fun _ => rfl, fun _ _ he => by simp [host] at he, fun _ hr => by simp [host] at hr⟩

end Hosted

-- A call has one verdict. A unary call hands its handler the request once at most, at whatever
-- times it is looked at, and ends in what the first look finds out at which the handler is done or
-- the tick of the deadline has come, the handler first; looked at in time it ends in the answer
-- that is given at once. A server stream call does the same with what comes in first, whatever
-- happens meanwhile, and no deadline ends it.
theorem dispatched_once :
    (∀ (c : UnaryCall) (polls : List Poll), c.Classified polls) ∧
    (∀ (c : UnaryCall) (handler : CallView → Datum → Work) (view : CallView) (now : Time)
      (times : List Time), millisecond ∣ now → c.Punctual (handler view) now times →
        c.Agrees now handler view times) ∧
    ∀ (d : Descriptor) (request : Request) (next : Datum → Strategy) (codec : Codec)
      (view : CallView) (call : StreamCall) (happenings : List Happening),
      d.handler = .serverStream request next → d.openStream codec view = .ok call →
        ((Hosted.host call).run happenings).Served request next codec view :=
  ⟨UnaryCall.classified, fun _ _ _ _ _ hn hp => UnaryCall.agrees hn hp,
    fun _ _ _ _ _ _ happenings hd ho => ((Hosted.sound_host hd ho).run happenings).served⟩

-- Work of a millisecond under a deadline of two; and a request that came when there was room for
-- one message on its way out.
theorem dispatched_once_in_time :
    let c : UnaryCall := ⟨"A.Later", Demo.idRequest, .json, some (2 * millisecond), []⟩
    let work : Datum → Work := fun _ => ⟨some millisecond, .value (.bool true)⟩
    let times := [0, millisecond]
    let view : CallView := ⟨.empty, true, false⟩
    let d : Descriptor := ⟨"A.Count", [], "CountReq", Demo.streamType,
      .serverStream Demo.countRequest Demo.count⟩
    let call : StreamCall := ⟨afterRequest Demo.countRequest Demo.count .json view, [], [], false,
      [], none, false, none⟩
    let happenings := [.outward [] (some 1) false, .arrive (.message []), .serve, .serve]
    millisecond ∣ 0 ∧ c.Punctual work 0 times ∧
      (c.run (c.pollsAt work 0 times)).stage = .ended (.ok (Bytes.ofText "true")) ∧
      d.handler = .serverStream Demo.countRequest Demo.count ∧ d.openStream .json view = .ok call ∧
      ∃ v, ((Hosted.host call).run happenings).Concludes Demo.countRequest Demo.count .json view v ∧
        v.result = .ok () := by
  intro c work times view d call happenings
  have hn : millisecond ∣ 0 := Nat.dvd_zero _
  have ha : c.request.accept c.codec c.payload = .ok (Demo.idRecord 0) := rfl
  have hd : c.due work 0 millisecond := rfl
  have hp : c.Punctual work 0 times := by
    refine ⟨rfl, fun _ _ => Nat.zero_le _, fun _ _ _ => ⟨millisecond, by simp [times], hd⟩, ?_⟩
    intro t ht _
    obtain rfl | ht := List.mem_cons.mp ht
    case inl => exact .inl rfl
    case inr =>
      obtain rfl := List.mem_singleton.mp ht
      refine .inr fun u _ hu => ?_
      rw [UnaryCall.due_accepted ha, UnaryCall.progress_later rfl (by decide)] at hu
      rcases hu with hu | hu
      · simpa [tick, millisecond] using hu
      · exact Nat.le_of_succ_le (of_decide_eq_true hu)
  have hu := (dispatched_once.2.1 c (fun _ => work) view 0 times hn hp).result
    (.ok (Bytes.ofText "true"))
  have hs := dispatched_once.2.2 d _ _ .json view call happenings rfl rfl
  exact ⟨hn, hp, hu.mpr ⟨_, rfl, rfl⟩, rfl, rfl, hs.result _ rfl⟩

-- The deadline passes in the tick in which the work is done, or passed before a call that is done
-- at once; and a reply that has no form is no panic.
theorem replied_past_deadline :
    let view : CallView := ⟨.empty, true, false⟩
    let payload := Bytes.ofText "\x7b\"millis\":1\x7d"
    (Demo.sleep (.record [("millis", .int 1)])).delay = some millisecond ∧ 1 < 0 + millisecond ∧
    (callUnary "A.Sleep" Demo.sleepRequest (fun _ => Demo.sleep) .json view 0 (some 1)
      payload).bind (·.result.toOption) = some (Bytes.ofText "\x7b\"id\":1\x7d") ∧
    (callUnary "A.Sleep" Demo.sleepRequest (fun _ => Demo.sleep) .json view 5 (some 3)
      []).bind (·.result.toOption) = some (Bytes.ofText "\x7b\"id\":0\x7d") ∧
    (callUnary "A.Bad" Demo.any (fun _ _ => .now (.value Demo.unwritable)) .json view 0 none
      []).map (·.result) = some (.error ⟨-1, 500, "Marshal error: " ++ CodecError.json.message⟩) :=
  ⟨rfl, by decide, by decide +kernel, by decide +kernel, rfl⟩

end CallFabric.Service
