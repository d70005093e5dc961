import CallFabric.Client.Call
import CallFabric.Proofs.Fault.RoundTrip
import CallFabric.Proofs.Pool.Conservation
import CallFabric.Proofs.Rpc.Crossing

namespace CallFabric

namespace Service

-- What a handler that gets to its end makes of a request.
def resultOf (request : Request) (work : Datum → Work) (codec : Codec) (payload : Bytes) :
    Except Fault Bytes :=
  match request.read codec payload with
  | .error f => .error f
  | .ok d => encodeReply codec (work d).completion

-- A unary method that goes by the request alone and is done within a time.
structure Descriptor.Prompt (d : Descriptor) (request : Request) (work : Datum → Work)
    (timeout : Time) : Prop where
  handler : d.handler = .unary request fun _ => work
  delay   : ∀ datum, ∃ delay, (work datum).delay = some delay ∧ delay ≤ timeout

variable {d : Descriptor} {request : Request} {work : Datum → Work} {timeout : Time}

theorem tick_mono {t u : Time} (h : t ≤ u) : tick t ≤ tick u :=
  Nat.div_le_div_right (Nat.sub_le_sub_right (Nat.add_le_add_right h _) _)

theorem Descriptor.Prompt.call (hd : d.Prompt request work timeout) (codec : Codec)
    (view : CallView) (now : Time) (deadline : Option Time) (payload : Bytes)
    (hl : ∀ t, deadline = some t → t = now + timeout ∧ 0 < timeout) :
    ∃ answer measured, d.call codec view now deadline payload = (some answer, measured) ∧
      answer.result = resultOf request work codec payload ∧ answer.time ≤ now + timeout := by
  have hu : ∃ answer,
      callUnary d.name request (fun _ => work) codec view now deadline payload = some answer ∧
        answer.result = resultOf request work codec payload ∧ answer.time ≤ now + timeout := by
    unfold callUnary resultOf
    cases request.read codec payload
    case error f => exact ⟨_, rfl, rfl, Nat.le_add_right ..⟩
    case ok datum =>
      obtain ⟨delay, hw, hle⟩ := hd.delay datum
      have hle : now + delay ≤ now + timeout := Nat.add_le_add_left hle now
      simp only [hw]
      split
      case h_1    => exact ⟨_, rfl, rfl, Nat.le_add_right ..⟩
      case h_2 he => cases he; exact ⟨_, rfl, rfl, hle⟩
      case h_3 he => cases he
      case h_4 he => cases he
      case h_5 he =>
        cases he
        obtain ⟨rfl, hpos⟩ := hl _ rfl
        rw [if_pos ⟨tick_mono hle, Nat.lt_add_of_pos_right hpos⟩]
        exact ⟨_, rfl, rfl, hle⟩
  obtain ⟨answer, ha, hr, ht⟩ := hu
  refine ⟨answer, [measurement d.name answer.result], ?_, hr, ht⟩
  unfold Descriptor.call
  rw [hd.handler]
  simp [ha]

end Service

open Service (Descriptor resultOf)

variable {d : Descriptor} {request : Service.Request} {work : Datum → Service.Work} {timeout : Time}
  {codec : Codec} {payload : Bytes}

theorem Status.codeFor_ne_ok (status : UInt16) : codeFor status ≠ .ok := by
  unfold codeFor
  (repeat' split) <;> simp

namespace Rpc

structure Outcome.Answers (o : Outcome) (result : Except Fault Bytes) : Prop where
  reply : ∀ reply, result = .ok reply → o.messages = [reply] ∧ o.status = .success
  fault : ∀ f, result = .error f → o.messages = [] ∧ o.status = .ofFault f

theorem Server.serve_prompt {s : Server} {a : Arrival} (hd : d.Prompt request work timeout)
    (hp : a.isPlain) (hs : s.select a.path a.heading.contentType = .ok (d, codec))
    (hl : ∀ t, a.heading.timeout = some t → t = timeout ∧ 0 < timeout) (hm : a.messages = [payload])
    (hr : payload.length ≤ s.maxReceived)
    (hlen : ∀ reply, resultOf request work codec payload = .ok reply → reply.length ≤ s.maxSent)
    (patience : Nat) (now : Time) :
    ∃ o, s.serve patience now a = some o ∧ o.Answers (resultOf request work codec payload) ∧
      o.time ≤ now + timeout := by
  have hk : d.kind.isStream = false := by rw [Descriptor.kind, hd.handler]; rfl
  have hfind : [payload].find? (s.maxReceived < ·.length) = none := by simpa using hr
  obtain ⟨answer, measured, hcall, hres, htime⟩ := hd.call codec
    ⟨a.heading.metadata, a.heading.timeout.isSome, false⟩ now
    (a.heading.timeout.map (now + ·)) payload (fun t h => by
      obtain ⟨left, hleft, rfl⟩ := Option.map_eq_some_iff.mp h
      obtain ⟨rfl, hpos⟩ := hl left hleft
      exact ⟨rfl, hpos⟩)
  unfold serve
  simp only [hp, hs, hk, serveUnary, hm, hfind, hcall, Bool.not_true, Bool.false_eq_true, if_false,
    Option.map_some]
  rw [hres]
  cases hres' : resultOf request work codec payload
  case error f => exact ⟨_, rfl, ⟨by simp, by simp⟩, htime⟩
  case ok reply =>
    simp only [if_neg (Nat.not_lt.mpr (hlen reply hres'))]
    exact ⟨_, rfl, ⟨by simp, by simp⟩, htime⟩

end Rpc

namespace Client

open Rpc (Network)

variable {c : Client} {n : Network} {address service endpoint contentType : String}
  {server : Rpc.Server}

-- Whether the client gets a connection to the server at an address.
structure Reaches (c : Client) (n : Network) (address : String) (server : Rpc.Server) : Prop where
  uri    : (Uri.ofText? (Network.addressUri address)).isSome
  server : n.servers.get? address = some server
  pools  : ∃ limits, c.pools.Sound limits

-- Whether no limit stands in the way of a call with this payload and this result.
structure Fits (c : Client) (server : Rpc.Server) (payload : Bytes)
    (result : Except Fault Bytes) : Prop where
  sent          : payload.length ≤ c.maxSent
  received      : payload.length ≤ server.maxReceived
  replySent     : ∀ reply, result = .ok reply → reply.length ≤ server.maxSent
  replyReceived : ∀ reply, result = .ok reply → reply.length ≤ c.maxReceived

theorem sound_dialing {limits : Pool.Limits} (hs : c.pools.Sound limits) (n : Network) (now : Time)
    (address : String) :
    Pool.System.Sound limits { c.pools with dialFailure := n.refusal? address, now } :=
  hs.congr rfl rfl (fun _ => id) fun _ => .refl _

theorem Reaches.acquire (h : c.Reaches n address server) (now : Time) :
    ∃ slot pools, c.acquire n now address = (.ok slot, { c with pools }) := by
  obtain ⟨limits, hs⟩ := h.pools
  have hf : n.refusal? address = none := by
    simp [Network.refusal?, Option.isSome_iff_ne_none.mp h.uri, h.server]
  obtain ⟨number, named, handle, ha⟩ := (sound_dialing hs n now address).acquires hf address
  unfold Client.acquire
  split
  case h_1 he   => exact ⟨_, _, rfl⟩
  case h_2 e _ he => rw [he] at ha; cases ha
  case h_3 he => rw [he] at ha; cases ha

theorem readReply_answers {limit : Nat} {o : Rpc.Outcome} {result : Except Fault Bytes}
    (ho : o.Answers result) (hl : ∀ reply, result = .ok reply → reply.length ≤ limit) :
    readReply limit o = result.mapError .ofFault := by
  cases result
  case error f =>
    obtain ⟨hm, hs⟩ := ho.fault f rfl
    have hc : (Status.ofFault f).code ≠ .ok := Status.codeFor_ne_ok f.status
    simp [readReply, hm, hs, hc, Except.mapError]
  case ok reply =>
    obtain ⟨hm, hs⟩ := ho.reply reply rfl
    simp [readReply, hm, hs, hl reply rfl, Status.success, Except.mapError]

theorem result?_endingOf (result : Except Fault Bytes) :
    (endingOf (result.mapError .ofFault)).result? = some result := by
  cases result
  case error f => simp [Except.mapError, endingOf, Ending.result?, Status.toFault_ofFault]
  case ok      => rfl

-- Whether client and server read the payloads of calls with this metadata in the same way.
structure Understands (c : Client) (server : Rpc.Server) (m : Metadata) (codec : Codec) : Prop where
  sorted : m.entries.Sorted
  named  : ∃ contentType, m.get? Metadata.contentTypeKey = some contentType ∧ contentType ≠ "" ∧
    Metadata.arrives Metadata.contentTypeKey contentType ∧
    c.codecs.lookup contentType = some codec ∧
    server.directory.codecs.lookup contentType = some codec

theorem Understands.codecFor {m : Metadata} (h : c.Understands server m codec) (freshId : String) :
    ∃ contentType, c.codecFor (m.outbound freshId) = .ok (contentType, codec) ∧
      (m.outbound freshId).get? Metadata.contentTypeKey = some contentType ∧
      Metadata.arrives Metadata.contentTypeKey contentType ∧
      server.directory.codecs.lookup contentType = some codec := by
  obtain ⟨contentType, hg, hn, ha, hc, hs⟩ := h.named
  have ho : (m.outbound freshId).get? Metadata.contentTypeKey = some contentType := by
    rw [Metadata.contentType_outbound, if_neg (by simp [Metadata.isEmptyAt, hg, hn]), hg]
  exact ⟨contentType, codecFor_eq_ok.mpr ⟨by rw [ho, Option.getD_some], hc⟩, ho, ha, hs⟩

theorem unaryTimeout_eq {ctx : Context} (c : Client) (h : ctx.deadline = none) (now : Time) :
    c.unaryTimeout ctx now = c.requestTimeout := by
  simp [unaryTimeout, Context.remaining?, h]

theorem unaryOutgoing_eq {ctx : Context} {freshId : String} (hd : ctx.deadline = none)
    (hc : c.codecFor (ctx.metadata.outbound freshId) = .ok (contentType, codec))
    (hp : (Address.methodPath service endpoint).toList.all PathAndQuery.isPathChar) (now : Time) :
    c.unaryOutgoing ctx freshId now service endpoint =
      .ok ⟨(ctx.metadata.outbound freshId).setTimeout c.requestTimeout, contentType, codec,
        Address.methodPath service endpoint, Address.methodPath service endpoint⟩ := by
  have ht := unaryTimeout_eq c hd now
  have hm := PathAndQuery.ofText?_path (Address.methodPath_ne_empty service endpoint) hp
  simp only [unaryOutgoing, outgoing, ht, hc, bind, Except.bind, hm]
  rfl

theorem Understands.served {m : Metadata} {path contentType : String} (n : Network)
    (hm : m.entries.Sorted) (hg : m.get? Metadata.contentTypeKey = some contentType)
    (ha : Metadata.arrives Metadata.contentTypeKey contentType)
    (hl : server.directory.codecs.lookup contentType = some codec)
    (hr : server.directory.resolvePath? path = some d)
    (hd : d.Prompt request work c.requestTimeout) (htime : 0 < c.requestTimeout)
    (hf : c.Fits server payload (resultOf request work codec payload)) (patience : Nat)
    (now : Time) :
    ∃ o, server.serve patience now
        (n.arrival path (m.setTimeout c.requestTimeout) [payload]) = some o ∧
      o.Answers (resultOf request work codec payload) ∧ o.time ≤ now + c.requestTimeout := by
  have hsorted : (m.setTimeout c.requestTimeout).entries.Sorted := Metadata.sorted_insert hm ..
  have hget : (m.setTimeout c.requestTimeout).get? Metadata.contentTypeKey = some contentType :=
    (Metadata.get?_insert_of_ne (by decide) ..).trans hg
  have hct : (n.arrival path (m.setTimeout c.requestTimeout) [payload]).heading.contentType =
      contentType := by
    rw [(Rpc.conveys_arrival ..).contentType hsorted, hget, Option.filter_some, if_pos ha,
      Option.getD_some]
  refine Rpc.Server.serve_prompt hd (Rpc.isPlain_arrival ..) ?_ (fun t ht => ?_) rfl hf.received
    hf.replySent patience now
  · rw [hct]
    simp only [Rpc.Server.select, Network.arrival, hr, hl]
  · rw [Rpc.timeout_arrival n path [payload] hm] at ht
    split at ht
    case isTrue  => exact ⟨(Option.some.inj ht).symm, htime⟩
    case isFalse => cases ht

-- What a call of a method that goes by its request alone and is done in time comes to.
theorem Reaches.result_invokeRaw (h : c.Reaches n address server) {ctx : Context}
    (hctx : ctx.deadline = none) (hu : c.Understands server ctx.metadata codec)
    (hp : (Address.methodPath service endpoint).toList.all PathAndQuery.isPathChar)
    (hr : server.directory.resolvePath? (Address.methodPath service endpoint) = some d)
    (hd : d.Prompt request work c.requestTimeout) (htime : 0 < c.requestTimeout)
    (hf : c.Fits server payload (resultOf request work codec payload)) (patience : Nat)
    (freshId : String) (now : Time) :
    (c.invokeRaw n patience freshId ctx now none address service endpoint payload).result =
      resultOf request work codec payload := by
  obtain ⟨contentType, hc, hg, ha, hs⟩ := hu.codecFor freshId
  have ho := unaryOutgoing_eq hctx hc hp now
  obtain ⟨slot, pools, hacq⟩ := h.acquire now
  obtain ⟨o, hserve, hanswers, hintime⟩ := Understands.served n
    (Metadata.sorted_outbound hu.sorted freshId) hg ha hs hr hd htime hf patience now
  have hstop : ¬now + c.requestTimeout ≤ now := Nat.not_le.mpr (Nat.lt_add_of_pos_right htime)
  have hread := readReply_answers hanswers hf.replyReceived
  simp only [invokeRaw, ho, hacq, unaryTimeout_eq _ hctx, stopOf, exchange, if_neg hstop, h.server,
    hserve, if_neg (Nat.not_lt.mpr hf.sent), if_pos hintime, hread, conclude, result?_endingOf]

section Pools

variable {limits : Pool.Limits} {pools : Pool.System}

theorem sound_act (hs : pools.Sound limits) (slot : Slot) (a : SlotAction) :
    (slot.act pools a).2.Sound limits := by
  cases a
  case distrust =>
    simp only [Slot.act, Slot.distrust]
    split
    case isTrue  => exact hs.step (.setHealth slot.conn .transientFailure)
    case isFalse => exact hs
  case evict =>
    have he := hs.step (.evict slot.address)
    simp only [Pool.System.step] at he
    simp only [Slot.act]
    generalize pools.evict slot.address = r at he ⊢
    obtain ⟨outcome, pools'⟩ := r
    cases outcome <;> exact he
  case release failed => exact hs.release

theorem sound_actAll (hs : pools.Sound limits) (slot : Slot) (actions : List SlotAction) :
    (slot.actAll pools actions).2.Sound limits := by
  simp only [Slot.actAll]
  generalize 0 = removed
  induction actions generalizing pools removed
  case nil               => exact hs
  case cons a actions hi => exact hi (sound_act hs slot a) ..

theorem sound_acquire (hs : c.pools.Sound limits) (n : Network) (now : Time) (address : String) :
    ∃ pools, (c.acquire n now address).2 = { c with pools } ∧ pools.Sound limits := by
  have ha := (sound_dialing hs n now address).step (.acquire address)
  simp only [Pool.System.step] at ha
  unfold Client.acquire
  generalize Pool.System.acquire _ address = r at ha ⊢
  obtain ⟨outcome, pools⟩ := r
  cases outcome <;> exact ⟨pools, rfl, ha⟩

theorem sound_conclude (hs : c.pools.Sound limits) (slot : Slot) (o : Outgoing) (payload : Bytes)
    (called : Called) :
    ∃ pools, (c.conclude slot o payload called).client = { c with pools } ∧ pools.Sound limits := by
  have ha := sound_actAll hs slot (SlotAction.afterUnary called.ending)
  unfold conclude settle
  cases called.ending.result?
  case none        => exact ⟨_, rfl, ha⟩
  case some result => exact ⟨_, rfl, ha.congr rfl rfl (fun _ => id) fun _ => .refl _⟩

theorem sound_invokeRaw (hs : c.pools.Sound limits) (n : Network) (patience : Nat)
    (freshId : String) (ctx : Context) (now : Time) (cancelAt : Option Time)
    (address service endpoint : String) (payload : Bytes) :
    ∃ pools, (c.invokeRaw n patience freshId ctx now cancelAt address service endpoint
      payload).client = { c with pools } ∧ pools.Sound limits := by
  unfold invokeRaw
  split
  case h_1 => exact ⟨c.pools, rfl, hs⟩
  case h_2 o _ =>
    obtain ⟨pools, ha, hp⟩ := sound_acquire hs n now address
    split
    case h_1 he =>
      rw [he] at ha
      exact ⟨pools, ha, hp⟩
    case h_2 slot c' he =>
      rw [he] at ha
      obtain rfl : c' = { c with pools } := ha
      exact sound_conclude hp ..

end Pools

theorem Reaches.after (h : c.Reaches n address server) (patience : Nat) (freshId : String)
    (ctx : Context) (now : Time) (cancelAt : Option Time) (service endpoint : String)
    (payload : Bytes) :
    ∃ pools, (c.invokeRaw n patience freshId ctx now cancelAt address service endpoint
      payload).client = { c with pools } ∧ Reaches { c with pools } n address server := by
  obtain ⟨limits, hs⟩ := h.pools
  obtain ⟨pools, hc, hp⟩ := sound_invokeRaw hs n patience freshId ctx now cancelAt address service
    endpoint payload
  exact ⟨pools, hc, h.uri, h.server, limits, hp⟩

end Client
end CallFabric
