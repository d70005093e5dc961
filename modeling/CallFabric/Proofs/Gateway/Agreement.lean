import CallFabric.Proofs.Client.Calling
import CallFabric.Proofs.Gateway.Answers

namespace CallFabric

open ContentType (BodyKind)

namespace ContentType

theorem normalize_of_isJson {contentType : String} {kind : BodyKind}
    (h : bodyKind? contentType = some kind) (hk : kind.isJson) :
    normalize contentType ∈ [json, form, multipart] := by
  simp only [bodyKind?] at h
  split at h
  case isTrue hn => simp [hn]
  case isFalse =>
    split at h
    case isTrue hn => simp [hn]
    case isFalse =>
      split at h
      case isTrue hn => simp [hn]
      case isFalse =>
        split at h
        case isTrue  => cases h; cases hk
        case isFalse => cases h

end ContentType

namespace Gateway

variable {config : GatewayConfig} {c : Client} {n : Rpc.Network} {server : Rpc.Server}
  {d : Service.Directory} {descriptor : Service.Descriptor} {request : Service.Request}
  {work : Datum → Service.Work} {rest service endpoint : String} {o : Occasion} {r : Request}
  {a : Asked}

theorem method_of_call {mount : String} {p : Parts} (h : Route.of mount p = .call rest) :
    p.method = "POST" := by
  simp only [Route.of] at h
  split at h
  case h_1 => cases h
  case h_2 text _ =>
    split at h
    case isTrue hm => exact hm
    case isFalse =>
      split at h
      case isTrue  => cases hu : Route.unescape? text <;> rw [hu] at h <;> cases h
      case isFalse => split at h <;> cases h

theorem codec_of_mem {t : String}
    (h : t ∈ [ContentType.json, ContentType.form, ContentType.multipart]) :
    Codec.Registry.standard.lookup t = some .json ∧ t ≠ "" ∧
      Metadata.arrives Metadata.contentTypeKey t := by
  revert t
  decide +kernel

theorem Payload.kind_of_extract {limit formLimit : Nat} {source : BodySource} {kind : BodyKind}
    {payload : Bytes} (h : extract limit formLimit source = .ok (kind, payload)) :
    ContentType.bodyKind? ((source.headers.text? "content-type").getD "") = some kind := by
  -- The equation of this definition takes seconds to prove, so it is opened without one.
  delta extract at h
  dsimp only at h
  split at h
  case h_1 => cases h
  case h_2 hk =>
    cases hf : formText formLimit source <;> rw [hf] at h <;> cases h
    exact hk
  case h_3 hk =>
    cases hm : multipartObject formLimit source <;> rw [hm] at h <;> cases h
    exact hk
  case h_4 hk =>
    split at h
    case isTrue  => cases h
    case isFalse => cases h; exact hk

def payloadOf (config : GatewayConfig) (r : Request) : Except PayloadError (BodyKind × Bytes) :=
  Payload.extract config.maxBodySize config.maxBodySize
    ⟨r.parts.method, r.parts.uri.query, r.parts.headers, r.body⟩

-- What a request asks for: all but the id that the call is given is told by the path, the headers
-- and the body.
structure Asked.IsFor (a : Asked) (config : GatewayConfig) (o : Occasion) (r : Request)
    (rest : String) : Prop where
  target      : Address.parseTarget rest = .ok a.target
  payload     : payloadOf config r = .ok (a.kind, a.payload)
  contentType : a.contentType = contentTypeOf r.parts.headers
  metadata    : a.metadata = callMetadata r.parts.headers a.contentType o.freshId

theorem ask_cases (config : GatewayConfig) (r : Request) (rest : String) :
    (∃ f, ∀ o, ask config o r rest = .error f) ∨
      ∀ o, ∃ a, ask config o r rest = .ok a ∧ a.IsFor config o r rest := by
  simp only [ask, bind, Except.bind]
  cases ht : Address.parseTarget rest
  case error e   => exact .inl ⟨e.fault, fun _ => rfl⟩
  case ok target =>
    cases he : Payload.extract config.maxBodySize config.maxBodySize
      ⟨r.parts.method, r.parts.uri.query, r.parts.headers, r.body⟩
    case error e  => exact .inl ⟨e.fault, fun _ => rfl⟩
    case ok found => exact .inr fun _ => ⟨_, rfl, ht, he, rfl, rfl⟩

theorem Asked.IsFor.contentType_mem (ha : a.IsFor config o r rest) (hj : a.kind.isJson) :
    a.contentType ∈ [ContentType.json, ContentType.form, ContentType.multipart] := by
  have hn : a.contentType =
      ContentType.normalize ((r.parts.headers.text? "content-type").getD "") := by
    rw [ha.contentType, contentTypeOf]
    cases r.parts.headers.text? "content-type" <;> rfl
  have hk := Payload.kind_of_extract ha.payload
  rw [hn]
  exact ContentType.normalize_of_isJson hk hj

-- Whether a client has the calls of a service made by the methods of a directory.
structure Backs (config : GatewayConfig) (c : Client) (n : Rpc.Network) (server : Rpc.Server)
    (d : Service.Directory) (service : String) : Prop where
  reaches      : c.Reaches n (remoteAddress config c service) server
  directory    : server.directory = d
  serverCodecs : d.codecs = .standard
  clientCodecs : c.codecs = .standard
  time         : 0 < c.requestTimeout

-- Whether an endpoint is the key of a method of a type that goes by its request alone and is done
-- within a time, and a path can hold its name and the service's.
structure Callable (d : Service.Directory) (target : Address.Target) (request : Service.Request)
    (work : Datum → Service.Work) (timeout : Time) : Prop where
  method   : ∃ descriptor, d.get? target.endpoint = some descriptor ∧
    descriptor.Prompt request work timeout
  typed    : target.endpoint.toList.count '.' = 1
  service  : target.service.toList.all PathAndQuery.isPathChar
  endpoint : target.endpoint.toList.all PathAndQuery.isPathChar

theorem Callable.result_callNative {timeout : Time}
    (hm : Callable d a.target request work timeout)
    (hc : d.codecs.lookup a.contentType = some .json) (now : Time) :
    ∃ h, callNative d now a = some h ∧
      h.result = Service.resultOf request work .json a.payload := by
  obtain ⟨descriptor, hk, hp⟩ := hm.method
  obtain ⟨answer, measured, hcall, hr, -⟩ :=
    hp.call .json ⟨a.metadata, false, false⟩ now none a.payload nofun
  have hs : selectNative d a = .ok (descriptor, .json) := by
    simp [selectNative, hc, Option.filter, Codec.isJson, hk]
  simp only [callNative, hs, hcall, Option.map_some]
  exact ⟨_, rfl, hr⟩

theorem Backs.understands (hb : Backs config c n server d service) (headers : Headers)
    {contentType : String}
    (ht : contentType ∈ [ContentType.json, ContentType.form, ContentType.multipart])
    (requestId : String) :
    c.Understands server (callMetadata headers contentType requestId) .json := by
  obtain ⟨hl, hn, ha⟩ := codec_of_mem ht
  refine ⟨Metadata.sorted_insert (Metadata.sorted_insert (Metadata.sorted_ofHeaders headers) ..) ..,
    contentType, ?_, hn, ha, hb.clientCodecs ▸ hl, ?_⟩
  · rw [callMetadata, Metadata.get?_insert_of_ne (by decide), Metadata.get?_insert, if_pos rfl]
  · rw [hb.directory, hb.serverCodecs]
    exact hl

theorem Backs.result_callRemote (hb : Backs config c n server d a.target.service)
    (hm : Callable d a.target request work c.requestTimeout) (ha : a.IsFor config o r rest)
    (hj : a.kind.isJson)
    (hf : c.Fits server a.payload (Service.resultOf request work .json a.payload)) :
    (callRemote config c n o a).result = Service.resultOf request work .json a.payload := by
  obtain ⟨descriptor, hk, hp⟩ := hm.method
  have hn := Address.isNamed_of_parseTarget ha.target
  have hu : c.Understands server (contextOf a.metadata).metadata .json := by
    rw [show (contextOf a.metadata).metadata = a.metadata from rfl, ha.metadata]
    exact hb.understands r.parts.headers (ha.contentType_mem hj) o.freshId
  have hr : server.directory.resolvePath? (Address.methodPath a.target.service a.target.endpoint) =
      some descriptor := by
    rw [hb.directory, Service.Directory.resolvePath?_methodPath hn.service hn.serviceWhole
      hn.endpoint hn.endpointWhole hk, if_pos hm.typed]
  have hd : (contextOf a.metadata).deadline = none := rfl
  have hi := hb.reaches.result_invokeRaw hd hu
    (Address.all_methodPath (by decide) (by decide) hm.service hm.endpoint) hr hp hb.time hf
    o.patience o.freshId o.now
  have hread : readable c a = .ok := by
    funext reply
    refine if_neg fun hk => ?_
    rw [hk] at hj
    cases hj
  simp only [callRemote, hi, hread]
  cases Service.resultOf request work .json a.payload <;> rfl

theorem Backs.after (hb : Backs config c n server d a.target.service) (o : Occasion) :
    ∃ pools, (callRemote config c n o a).backend = .remote { c with pools } n ∧
      Backs config { c with pools } n server d a.target.service := by
  obtain ⟨pools, hc, hr⟩ := hb.reaches.after o.patience o.freshId (contextOf a.metadata) o.now none
    a.target.service a.target.endpoint a.payload
  refine ⟨pools, ?_, hr, hb.directory, hb.serverCodecs, hb.clientCodecs, hb.time⟩
  simp only [callRemote, hc]

-- A request in JSON, a form or in parts is served by two gateways with the same settings that admit
-- the same requests: one calls the methods of a directory itself, the other has them called by a
-- client that reaches a server with that directory. The endpoint is the key of a unary method, of a
-- type and its method, that goes by its request alone and is done in time; a path can hold the
-- names of service and endpoint; and no limit is in the way. Both answer, at any time, and their
-- answers are the same. The client can go on as before.
theorem remote_answers_as_native (g : Gateway) {r : Request} {target : Address.Target}
    (hroute : Route.of g.config.mount r.parts = .call rest)
    (htarget : Address.parseTarget rest = .ok target)
    (hb : Backs g.config c n server d target.service)
    (hm : Callable d target request work c.requestTimeout)
    (hpayload : ∀ kind payload, payloadOf g.config r = .ok (kind, payload) →
      kind.isJson ∧ c.Fits server payload (Service.resultOf request work .json payload))
    (o o' : Occasion) :
    ∃ e e', { g with backend := .native d }.serve o r = some e ∧
      { g with backend := .remote c n }.serve o' r = some e' ∧ e'.response = e.response ∧
      ∃ pools, e'.gateway = { g with backend := .remote { c with pools } n } ∧
        Backs g.config { c with pools } n server d target.service := by
  have hne : r.parts.method ≠ "HEAD" := by simp [method_of_call hroute]
  have hr : Route.of ({ g with backend := .native d } : Gateway).config.mount r.parts =
    .call rest := hroute
  simp only [serve_of_body hne, answer, hr, guarded]
  cases g.admission r.parts
  case refused f  => exact ⟨_, _, rfl, rfl, rfl, c.pools, rfl, hb⟩
  case panicked p => exact ⟨_, _, rfl, rfl, rfl, c.pools, rfl, hb⟩
  case admitted =>
    obtain ⟨f, hask⟩ | hask := ask_cases g.config r rest
    case inl =>
      simp only [answerCall, hask]
      exact ⟨_, _, rfl, rfl, rfl, c.pools, rfl, hb⟩
    case inr =>
      obtain ⟨a, haok, ha⟩ := hask o
      obtain ⟨a', haok', ha'⟩ := hask o'
      have ht : target = a.target := Except.ok.inj (htarget.symm.trans ha.target)
      have ht' : target = a'.target := Except.ok.inj (htarget.symm.trans ha'.target)
      have hp : a.payload = a'.payload :=
        congrArg Prod.snd (Except.ok.inj (ha.payload.symm.trans ha'.payload))
      have hcodec : d.codecs.lookup a.contentType = some .json :=
        hb.serverCodecs ▸ (codec_of_mem (ha.contentType_mem (hpayload _ _ ha.payload).1)).1
      obtain ⟨called, hnative, hresult⟩ := (ht ▸ hm).result_callNative hcodec o.now
      have hb : Backs g.config c n server d a'.target.service := ht' ▸ hb
      obtain ⟨hj, hf⟩ := hpayload _ _ ha'.payload
      have hremote := hb.result_callRemote (ht' ▸ hm) ha' hj hf
      obtain ⟨pools, hback, hafter⟩ := hb.after o'
      simp only [answerCall, haok, haok', handle, hnative, Option.map_some]
      refine ⟨_, _, rfl, rfl, ?_, pools, congrArg (Gateway.mk _ _ · _) hback, ht' ▸ hafter⟩
      rw [hremote, hresult, hp]

-- A method that replies with what it is asked.
def echo : Service.Directory :=
  ⟨[("Auth.Echo", ⟨"Auth.Echo", [], "any", "any",
    .unary ⟨.any, .unit, fun _ => none⟩ fun _ d => .now (.value d)⟩)], .standard⟩

-- A server with this method, under the address that calls of a service go to.
def echoAt (address : String) : Rpc.Network :=
  ⟨[(address, ⟨echo, 100, 100⟩)], .octets [127, 0, 0, 1] 9⟩

def emptyObject : Bytes := Bytes.ofText "\x7b\x7d"

def emptyRequest (path : String) : Request :=
  ⟨⟨"POST", ⟨none, none, path, none⟩, [("content-type", Bytes.ofText "application/json")], false⟩,
    emptyObject⟩

theorem backs_echoAt {services : Table String} {service address : String}
    (ha : remoteAddress {} (.ofConfig { services } .standard) service = address)
    (hu : (Uri.ofText? (Rpc.Network.addressUri address)).isSome) :
    Backs {} (.ofConfig { services } .standard) (echoAt address) ⟨echo, 100, 100⟩ echo service where
  reaches      := ⟨ha.symm ▸ hu, by simp [ha, echoAt, Table.get?], _, .new (Nat.le_max_right ..)⟩
  directory    := rfl
  serverCodecs := rfl
  clientCodecs := rfl
  time         := show 0 < 10000 * millisecond by decide

-- An empty object, whose echo is one.
theorem remote_answers_as_native_to_echo :
    let g := Gateway.ofConfig {} (.native echo)
    let c := Client.ofConfig {} .standard
    let r := emptyRequest "/rpc/sso/Auth.Echo"
    Route.of g.config.mount r.parts = .call "sso/Auth.Echo" ∧
      Address.parseTarget "sso/Auth.Echo" = .ok ⟨"sso", "Auth.Echo"⟩ ∧
      payloadOf g.config r = .ok (.json, emptyObject) ∧
      Backs g.config c (echoAt "sso:10000") ⟨echo, 100, 100⟩ echo "sso" ∧
      Callable echo ⟨"sso", "Auth.Echo"⟩ ⟨.any, .unit, fun _ => none⟩ (fun d => .now (.value d))
        c.requestTimeout ∧
      ∃ e e', g.serve ⟨0, "r", 0⟩ r = some e ∧
        { g with backend := .remote c (echoAt "sso:10000") }.serve ⟨5, "s", 0⟩ r = some e' ∧
        e'.response = e.response := by
  intro g c r
  have hroute : Route.of g.config.mount r.parts = .call "sso/Auth.Echo" := by decide +kernel
  have htarget : Address.parseTarget "sso/Auth.Echo" = .ok ⟨"sso", "Auth.Echo"⟩ := rfl
  have hpayload : payloadOf g.config r = .ok (.json, emptyObject) := by decide +kernel
  have hb : Backs g.config c (echoAt "sso:10000") ⟨echo, 100, 100⟩ echo "sso" :=
    backs_echoAt (by decide +kernel) (by decide +kernel)
  have hm : Callable echo ⟨"sso", "Auth.Echo"⟩ ⟨.any, .unit, fun _ => none⟩
      (fun d => .now (.value d)) c.requestTimeout :=
    ⟨⟨_, rfl, rfl, fun _ => ⟨0, rfl, Nat.zero_le _⟩⟩, by decide, by decide +kernel,
      by decide +kernel⟩
  have hreply : Service.resultOf ⟨.any, .unit, fun _ => none⟩ (fun d => .now (.value d)) .json
      emptyObject = .ok emptyObject := by decide +kernel
  have hfits (kind : BodyKind) (payload : Bytes) (h : payloadOf g.config r = .ok (kind, payload)) :
      kind.isJson ∧ c.Fits ⟨echo, 100, 100⟩ payload
        (Service.resultOf ⟨.any, .unit, fun _ => none⟩ (fun d => .now (.value d)) .json
          payload) := by
    cases hpayload.symm.trans h
    rw [hreply]
    exact ⟨rfl, by decide +kernel, by decide +kernel, by rintro _ ⟨⟩; decide +kernel,
      by rintro _ ⟨⟩; decide +kernel⟩
  obtain ⟨e, e', he, he', hr, -⟩ :=
    remote_answers_as_native g hroute htarget hb hm hfits ⟨0, "r", 0⟩ ⟨5, "s", 0⟩
  exact ⟨hroute, htarget, hpayload, hb, hm, e, e', he, he', hr⟩

-- Only the gateway with a client asks whether a path can hold the name of the service.
theorem remote_refuses_blank_in_service :
    let g := Gateway.ofConfig {} (.native echo)
    let c := Client.ofConfig { services := [("a b", "sso:1")] } .standard
    let g' := Gateway.ofConfig {} (.remote c (echoAt "sso:1"))
    let r := emptyRequest "/rpc/a%20b/Auth.Echo"
    Address.parseTarget "a b/Auth.Echo" = .ok ⟨"a b", "Auth.Echo"⟩ ∧
      Backs g.config c (echoAt "sso:1") ⟨echo, 100, 100⟩ echo "a b" ∧
      (g.serve ⟨0, "r", 0⟩ r).map (·.response) = some (.reply (.ofJson emptyObject)) ∧
      (g'.serve ⟨0, "r", 0⟩ r).map (·.response) =
        some (.reply (.ofFault (Client.OutgoingError.noPath "/a b.Auth/Echo").fault)) :=
  ⟨rfl, backs_echoAt (by decide +kernel) (by decide +kernel), by decide +kernel,
    by decide +kernel⟩

end Gateway
end CallFabric
