import CallFabric.Proofs.Gateway.Agreement

namespace CallFabric

theorem Text.prefix_trimChars {lead cs : List Char} (h : lead <+: cs)
    (hb : lead.all fun c => !isBlank c) : lead <+: trimChars cs := by
  replace hb : ∀ c ∈ lead, isBlank c = false := by simpa using hb
  cases lead
  case nil => exact List.nil_prefix
  case cons c lead =>
    obtain ⟨rest, rfl⟩ := h
    have hr : (c :: lead).reverse.dropWhile isBlank = (c :: lead).reverse :=
      dropWhile_isBlank fun d hd => hb d (List.mem_reverse.mp hd)
    have hc : ¬isBlank c := by simp [hb c List.mem_cons_self]
    rw [trimChars, List.cons_append, List.dropWhile_cons_of_neg hc, ← List.cons_append, trimEnd,
      List.reverse_append, List.dropWhile_append, hr]
    split <;> simp

theorem Codec.Registry.codecs_standard : standard.codecs =
    [(ContentType.grpc, .messagePack), (ContentType.grpcProto, .messagePack),
      (ContentType.json, .json), (ContentType.octetStream, .messagePack),
      (ContentType.proto, .messagePack), (ContentType.protobuf, .messagePack),
      (ContentType.form, .json), (ContentType.multipart, .json)] := by
  decide +kernel

namespace ContentType

variable {contentType : String}

def IsUpload (contentType : String) : Prop := normalize contentType = multipart

-- As the text is written, and not in its normal form.
def BeginsAsUpload (contentType : String) : Prop := Text.startsWith contentType multipart

theorem startsWith_normalize (h : BeginsAsUpload contentType) :
    Text.startsWith (normalize contentType) multipart := by
  rw [BeginsAsUpload, Text.startsWith, List.isPrefixOf_iff_prefix] at h
  rw [Text.startsWith, List.isPrefixOf_iff_prefix]
  have hm : multipart.toList <+: (mediaType contentType).toList := by
    obtain ⟨rest, hr⟩ := h
    rw [mediaType, String.toList_ofList, ← hr, List.takeWhile_append_of_pos
      (List.all_eq_true.mp (by decide))]
    exact ⟨_, rfl⟩
  rw [normalize, Text.lower, Text.trim, String.toList_ofList, String.toList_ofList]
  exact (Text.prefix_trimChars hm (by decide)).map Text.lowerChar

theorem BeginsAsUpload.isUpload {codec : Codec} (h : BeginsAsUpload contentType)
    (hl : Codec.Registry.standard.lookup contentType = some codec) : IsUpload contentType := by
  have hu : ∀ p ∈ Codec.Registry.standard.codecs, Text.startsWith p.1 multipart →
      p.1 = multipart := by
    rw [Codec.Registry.codecs_standard]
    decide +kernel
  have hp : (normalize contentType, codec) ∈ Codec.Registry.standard.codecs :=
    Table.mem_of_get? hl
  exact hu (normalize contentType, codec) hp (startsWith_normalize h)

end ContentType

def Metadata.sentContentType (m : Metadata) : String :=
  if m.isEmptyAt contentTypeKey then ContentType.standard else (m.get? contentTypeKey).getD ""

theorem Metadata.get?_outbound_contentType (m : Metadata) (freshId : String) :
    (m.outbound freshId).get? contentTypeKey = some m.sentContentType := by
  rw [contentType_outbound, sentContentType]
  split
  case isTrue => rfl
  case isFalse hn =>
    cases hg : m.get? contentTypeKey
    case none => simp [isEmptyAt, hg] at hn
    case some => rfl

namespace Client

open Rpc (Network)

variable {c : Client} {n : Network} {patience : Nat} {freshId : String} {ctx : Context}
  {now : Time} {cancelAt : Option Time} {address service endpoint : String} {payload reply : Bytes}

def Invocation.Audited (i : Invocation) : Prop :=
  ∃ requestId sequence method messages, .succeeded requestId sequence method messages ∈ i.reports

-- What is said of a call that succeeded, if anything is.
def auditOf (m : Metadata) (freshId service endpoint : String) (codec : Codec)
    (payload reply : Bytes) : Report :=
  .succeeded ((if m.isEmptyAt Metadata.requestIdKey then some freshId
      else m.requestId?).getD "") (toString m.nextSequence) (Address.methodPath service endpoint)
    (if codec.isJson then .texts payload.lossy reply.lossy
      else .lengths payload.length reply.length)

theorem acquire_snd (c : Client) (n : Network) (now : Time) (address : String) :
    ∃ pools, (c.acquire n now address).2 = { c with pools } := by
  unfold acquire
  split <;> exact ⟨_, rfl⟩

theorem unaryOutgoing_spec {o : Outgoing}
    (h : c.unaryOutgoing ctx freshId now service endpoint = .ok o) :
    o.contentType = ctx.metadata.sentContentType ∧
      c.codecs.lookup o.contentType = some o.codec ∧
      o.method = Address.methodPath service endpoint ∧
      o.metadata = (ctx.metadata.outbound freshId).setTimeout (c.unaryTimeout ctx now) := by
  simp only [unaryOutgoing, outgoing, bind, Except.bind] at h
  split at h
  case h_1 => cases h
  case h_2 found hc =>
    obtain ⟨contentType, codec⟩ := found
    obtain ⟨ht, hl⟩ := codecFor_eq_ok.mp hc
    rw [Metadata.get?_outbound_contentType, Option.getD_some] at ht
    dsimp only at h
    split at h
    case h_1 => cases h
    case h_2 => cases h; exact ⟨ht.symm, hl, rfl, rfl⟩

theorem settle_of_ok {slot : Slot} {ending : Ending} (h : ending.result? = some (.ok reply)) :
    (c.settle slot (SlotAction.afterUnary ending)).1 = [] := by
  simp only [settle, SlotAction.afterUnary, h]
  rfl

theorem reports_conclude {slot : Slot} {o : Outgoing} {called : Called}
    (h : (c.conclude slot o payload called).result = .ok reply) :
    (c.conclude slot o payload called).reports = (c.report? o payload reply).toList := by
  cases he : called.ending.result?
  case none =>
    simp only [conclude, he] at h
    cases h
  case some result =>
    simp only [conclude, he] at h ⊢
    subst h
    rw [settle_of_ok he]
    rfl

theorem report?_congr {o : Outgoing} {pools : Pool.System} :
    ({ c with pools } : Client).report? o payload reply = c.report? o payload reply := rfl

theorem report?_eq {o : Outgoing} {left : Time} (hm : o.method = Address.methodPath service endpoint)
    (hmd : o.metadata = (ctx.metadata.outbound freshId).setTimeout left) :
    c.report? o payload reply = if c.audits o.contentType then
      some (auditOf ctx.metadata freshId service endpoint o.codec payload reply) else none := by
  have hid : o.metadata.requestId? = if ctx.metadata.isEmptyAt Metadata.requestIdKey then
      some freshId else ctx.metadata.requestId? :=
    hmd ▸ (Metadata.get?_insert_of_ne (by decide) ..).trans (Metadata.requestId_outbound ..)
  have hsq : o.metadata.requestSequence? = some (toString ctx.metadata.nextSequence) :=
    hmd ▸ (Metadata.get?_insert_of_ne (by decide) ..).trans (Metadata.requestSequence_outbound ..)
  rw [report?, auditOf, hm, hid, hsq]
  rfl

theorem reports_invokeRaw (h : (c.invokeRaw n patience freshId ctx now cancelAt address service
    endpoint payload).result = .ok reply) :
    ∃ codec, c.codecs.lookup ctx.metadata.sentContentType = some codec ∧
      (c.invokeRaw n patience freshId ctx now cancelAt address service endpoint payload).reports =
        if c.audits ctx.metadata.sentContentType then
          [auditOf ctx.metadata freshId service endpoint codec payload reply] else [] := by
  unfold invokeRaw at h ⊢
  cases ho : c.unaryOutgoing ctx freshId now service endpoint
  case error e =>
    simp only [ho] at h
    cases h
  case ok o =>
    obtain ⟨ht, hl, hm, hmd⟩ := unaryOutgoing_spec ho
    obtain ⟨pools, hp⟩ := c.acquire_snd n now address
    simp only [ho] at h ⊢
    generalize c.acquire n now address = acquired at h hp ⊢
    obtain ⟨_ | slot, c'⟩ := acquired
    case error => cases h
    case ok =>
      obtain rfl : c' = { c with pools } := hp
      refine ⟨o.codec, ht ▸ hl, ?_⟩
      dsimp only at h ⊢
      rw [reports_conclude h, report?_congr, report?_eq hm hmd, ht]
      split <;> rfl

-- A call that succeeds is reported, with its messages, unless its client reports nothing or its
-- content type, as it is written, begins with that of uploads. So uploads are left out of the
-- reports, and nothing else is, exactly if the content type begins so if and only if its normal
-- form is that of uploads. With the standard codecs only one half is at stake, since whatever
-- begins so is an upload.
theorem audited_iff (h : (c.invokeRaw n patience freshId ctx now cancelAt address service
    endpoint payload).result = .ok reply) :
    let contentType := ctx.metadata.sentContentType
    let i := c.invokeRaw n patience freshId ctx now cancelAt address service endpoint payload
    (∃ codec, c.codecs.lookup contentType = some codec ∧ i.reports =
      if c.audits contentType then
        [auditOf ctx.metadata freshId service endpoint codec payload reply] else []) ∧
    (i.Audited ↔ c.audit ∧ ¬ContentType.BeginsAsUpload contentType) ∧
    (c.audit → ((i.Audited ↔ ¬ContentType.IsUpload contentType) ↔
      (ContentType.BeginsAsUpload contentType ↔ ContentType.IsUpload contentType))) ∧
    (c.audit → c.codecs = .standard → ((i.Audited ↔ ¬ContentType.IsUpload contentType) ↔
      (ContentType.IsUpload contentType → ContentType.BeginsAsUpload contentType))) := by
  intro contentType i
  obtain ⟨codec, hl, hr⟩ := reports_invokeRaw h
  have hi : i.Audited ↔ c.audit ∧ ¬ContentType.BeginsAsUpload contentType := by
    have ha : c.audits contentType ↔ c.audit ∧ ¬ContentType.BeginsAsUpload contentType := by
      simp [audits, ContentType.BeginsAsUpload]
    rw [← ha, Invocation.Audited, hr]
    split
    case isTrue hc  => exact iff_of_true ⟨_, _, _, _, List.mem_singleton_self _⟩ hc
    case isFalse hc => exact iff_of_false (by simp) hc
  refine ⟨⟨codec, hl, hr⟩, hi, fun ha => ?_, fun ha hs => ?_⟩
  case refine_1 =>
    rw [hi, and_iff_right ha]
    exact not_iff_not
  case refine_2 =>
    have hu : ContentType.BeginsAsUpload contentType → ContentType.IsUpload contentType :=
      fun hb => hb.isUpload (hs ▸ hl)
    rw [hi, and_iff_right ha, not_iff_not]
    exact ⟨fun h => h.mpr, fun h => ⟨hu, h⟩⟩

def uploadMetadata (contentType : String) : Metadata :=
  .ofPairs [("request_id", "r"), ("x-content-type", contentType)]

def upload (contentType : String) : Invocation :=
  (Client.ofConfig {} .standard).invokeRaw (Gateway.echoAt "sso:10000") 0 ""
    (Gateway.contextOf (uploadMetadata contentType)) 0 none "sso:10000" "sso" "Auth.Echo"
    Gateway.emptyObject

theorem fits_emptyObject : (Client.ofConfig {} .standard).Fits ⟨Gateway.echo, 100, 100⟩
    Gateway.emptyObject (.ok Gateway.emptyObject) where
  sent          := by decide +kernel
  received      := by decide +kernel
  replySent     := by rintro _ ⟨⟩; decide +kernel
  replyReceived := by rintro _ ⟨⟩; decide +kernel

theorem resolvePath?_echo : Gateway.echo.resolvePath? (Address.methodPath "sso" "Auth.Echo") =
    some ⟨"Auth.Echo", [], "any", "any",
      .unary ⟨.any, .unit, fun _ => none⟩ fun _ d => .now (.value d)⟩ := by
  have hn := Address.isNamed_of_parseTarget
    (show Address.parseTarget "sso/Auth.Echo" = .ok ⟨"sso", "Auth.Echo"⟩ from rfl)
  refine (Service.Directory.resolvePath?_methodPath hn.service hn.serviceWhole hn.endpoint
    hn.endpointWhole rfl).trans (if_pos ?_)
  decide

theorem result_upload {contentType : String}
    (hl : Codec.Registry.standard.lookup contentType = some .json) (hn : contentType ≠ "")
    (ha : Metadata.arrives Metadata.contentTypeKey contentType) :
    (upload contentType).result = .ok Gateway.emptyObject := by
  have hb : Gateway.Backs {} (.ofConfig {} .standard) (Gateway.echoAt "sso:10000")
      ⟨Gateway.echo, 100, 100⟩ Gateway.echo "sso" :=
    Gateway.backs_echoAt (by decide +kernel) (by decide +kernel)
  have hreply : Service.resultOf ⟨.any, .unit, fun _ => none⟩ (fun d => .now (.value d)) .json
      Gateway.emptyObject = .ok Gateway.emptyObject := by decide +kernel
  have hsorted : (uploadMetadata contentType).entries.Sorted :=
    Metadata.sorted_insert (Metadata.sorted_insert List.Pairwise.nil ..) ..
  have hget : (uploadMetadata contentType).get? Metadata.contentTypeKey = some contentType :=
    (Metadata.get?_insert ..).trans (if_pos rfl)
  refine Eq.trans (hb.reaches.result_invokeRaw rfl ⟨hsorted, contentType, hget, hn, ha, hl, hl⟩ ?_
    resolvePath?_echo ⟨rfl, fun _ => ⟨0, rfl, Nat.zero_le _⟩⟩ ?_ ?_ 0 "" 0) hreply
  · decide +kernel
  · decide +kernel
  · rw [hreply]
    exact fits_emptyObject

-- Written in the usual way it is left out of the reports ..
theorem upload_unreported :
    let contentType := "multipart/form-data; boundary=x"
    (Client.ofConfig {} .standard).audit ∧
      (upload contentType).result = .ok Gateway.emptyObject ∧
      (uploadMetadata contentType).sentContentType = contentType ∧
      ContentType.IsUpload contentType ∧ ¬(upload contentType).Audited := by
  intro contentType
  have hl : Codec.Registry.standard.lookup contentType = some .json := by
    rw [Codec.Registry.lookup, Codec.Registry.codecs_standard]
    decide +kernel
  have h : (upload contentType).result = .ok Gateway.emptyObject :=
    result_upload hl (by decide) (by decide +kernel)
  have hs : (uploadMetadata contentType).sentContentType = contentType := by decide +kernel
  have hb : ContentType.BeginsAsUpload contentType := by
    rw [ContentType.BeginsAsUpload]
    decide
  have hu : ContentType.IsUpload contentType := by
    rw [ContentType.IsUpload]
    decide +kernel
  refine ⟨rfl, h, hs, hu, fun ha => ?_⟩
  exact ((audited_iff h).2.1.mp ha).2 (hs.symm ▸ hb)

-- .. and with capitals it is in one, text and all.
theorem upload_reported :
    let contentType := "Multipart/Form-Data; boundary=x"
    (Client.ofConfig {} .standard).audit ∧
      (upload contentType).result = .ok Gateway.emptyObject ∧
      (uploadMetadata contentType).sentContentType = contentType ∧
      (upload contentType).reports =
        [.succeeded "r" "0" "/sso.Auth/Echo" (.texts "\x7b\x7d" "\x7b\x7d")] ∧
      ¬((upload contentType).Audited ↔ ¬ContentType.IsUpload contentType) := by
  intro contentType
  have hj : Codec.Registry.standard.lookup contentType = some .json := by
    rw [Codec.Registry.lookup, Codec.Registry.codecs_standard]
    decide +kernel
  have h : (upload contentType).result = .ok Gateway.emptyObject :=
    result_upload hj (by decide) (by decide +kernel)
  have hs : (uploadMetadata contentType).sentContentType = contentType := by decide +kernel
  have hu : ContentType.IsUpload contentType := by
    rw [ContentType.IsUpload]
    decide +kernel
  have hr : (upload contentType).reports =
      [.succeeded "r" "0" "/sso.Auth/Echo" (.texts "\x7b\x7d" "\x7b\x7d")] := by
    obtain ⟨codec, hl, hr⟩ := reports_invokeRaw h
    obtain rfl := Option.some.inj (hl.symm.trans (hs.symm ▸ hj))
    refine hr.trans ((if_pos ?_).trans ?_)
    · decide +kernel
    · decide +kernel
  refine ⟨rfl, h, hs, hr, fun hi => ?_⟩
  exact hi.mp ⟨_, _, _, _, hr ▸ List.mem_singleton_self _⟩ hu

end Client
end CallFabric
