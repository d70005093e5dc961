import CallFabric.Client.Outgoing
import CallFabric.Proofs.Metadata.Making
import CallFabric.Rpc.Network

namespace CallFabric

namespace Metadata

variable {m : Metadata}

theorem isSome_contentType_outbound (m : Metadata) (freshId : String) :
    ((m.outbound freshId).get? contentTypeKey).isSome := by
  rw [contentType_outbound]
  split
  case isTrue    => rfl
  case isFalse h =>
    rw [Option.isSome_iff_ne_none]
    exact fun hn => h (by simp [isEmptyAt, hn])

-- What a client sends, with the time that it says is left if it says so.
def onward (m : Metadata) (freshId : String) (timeout : Option Time) : Metadata :=
  (timeout.map (m.outbound freshId).setTimeout).getD (m.outbound freshId)

theorem sorted_onward (h : m.entries.Sorted) (freshId : String) (timeout : Option Time) :
    (m.onward freshId timeout).entries.Sorted := by
  cases timeout
  case none   => exact sorted_outbound h freshId
  case some t => exact sorted_insert (sorted_outbound h freshId) ..

theorem contentType_onward (m : Metadata) (freshId : String) (timeout : Option Time) :
    (m.onward freshId timeout).get? contentTypeKey =
      (m.outbound freshId).get? contentTypeKey := by
  cases timeout
  case none   => rfl
  case some t => exact get?_insert_of_ne (by decide) ..

end Metadata

namespace Client

-- It is what every call of a client is sent with.
theorem outgoing_metadata {c : Client} {ctx : Context} {freshId service endpoint : String}
    {timeout : Option Time} {o : Outgoing}
    (h : c.outgoing ctx freshId timeout service endpoint = .ok o) :
    o.metadata = ctx.metadata.onward freshId timeout ∧
      c.codecFor (ctx.metadata.outbound freshId) = .ok (o.contentType, o.codec) := by
  simp only [outgoing, bind, Except.bind] at h
  split at h
  case h_1       => cases h
  case h_2 hc =>
    split at h
    case h_1 => cases h
    case h_2 =>
      cases h
      exact ⟨rfl, hc⟩

theorem codecFor_eq_ok {c : Client} {m : Metadata} {contentType : String} {codec : Codec} :
    c.codecFor m = .ok (contentType, codec) ↔
      (m.get? Metadata.contentTypeKey).getD ContentType.standard = contentType ∧
        c.codecs.lookup contentType = some codec := by
  rw [codecFor]
  constructor
  case mp =>
    intro h
    split at h
    case h_1 hl =>
      cases h
      exact ⟨rfl, hl⟩
    case h_2 => cases h
  case mpr =>
    rintro ⟨rfl, h⟩
    simp [h]

end Client

namespace Rpc

variable {m : Metadata} {a : Arrival}

-- Neither the peer's address nor the time that is left has to do with the content type.
theorem get?_heading (a : Arrival) {key : String}
    (hr : Text.lower Metadata.remoteKey ≠ Text.lower key)
    (ht : Text.lower Metadata.timeoutKey ≠ Text.lower key) :
    a.heading.metadata.get? key = (Metadata.ofHeaders a.headers).get? key := by
  rw [Arrival.heading]
  cases a.peer
  case none      => exact Metadata.get?_erase_of_ne ht
  case some peer => exact (Metadata.get?_erase_of_ne ht).trans (Metadata.get?_insert_of_ne hr ..)

theorem contentType_heading (a : Arrival) :
    a.heading.contentType =
      (((Metadata.ofHeaders a.headers).get? Metadata.contentTypeKey).or
        ((Metadata.ofHeaders a.headers).get? Metadata.plainContentTypeKey)).getD
          ContentType.standard := by
  rw [← get?_heading a (by decide) (by decide), ← get?_heading a (by decide) (by decide)]
  rfl

-- Whether a call arrives with all that a transport carries of its metadata, in any order, and with
-- what the transport adds; what else there is says nothing about the content type.
def Arrival.Conveys (a : Arrival) (m : Metadata) : Prop :=
  ∃ others : Headers, a.headers.Perm (m.toHeaders ++ Network.transportHeaders ++ others) ∧
    ∀ p ∈ others, Text.lower p.1 = p.1 ∧
      p.1 ∉ [Metadata.contentTypeKey, Metadata.plainContentTypeKey]

theorem conveys_arrival (n : Network) (path : String) (m : Metadata) (messages : List Bytes) :
    (n.arrival path m messages).Conveys m :=
  ⟨[], by simp [Network.arrival], by simp⟩

namespace Arrival.Conveys

variable (h : a.Conveys m)
include h

theorem lower {p : String × Bytes} (hp : p ∈ a.headers) : Text.lower p.1 = p.1 := by
  obtain ⟨others, hq, ho⟩ := h
  simp only [hq.mem_iff, List.mem_append] at hp
  rcases hp with (hp | hp) | hp
  · exact Metadata.lower_of_mem_toHeaders hp
  · revert p
    decide
  · exact (ho p hp).1

theorem texts (hm : m.entries.Sorted) {key : String}
    (hk : key ∈ [Metadata.contentTypeKey, Metadata.plainContentTypeKey]) :
    (a.headers.texts key).Perm (((m.entries.get? key).filter (Metadata.arrives key)).toList ++
      Network.transportHeaders.texts key) := by
  obtain ⟨others, hq, ho⟩ := h
  have hnil : others.texts key = [] := Headers.texts_eq_nil fun hn => by
    obtain ⟨p, hp, rfl⟩ := List.mem_map.mp (List.mem_eraseDups.mp hn)
    exact (ho p hp).2 hk
  have ht := Headers.texts_perm hq key
  rwa [Headers.texts_append, Headers.texts_append, hnil, List.append_nil,
    Metadata.texts_toHeaders hm] at ht

theorem get?_contentTypeKey (hm : m.entries.Sorted) :
    (Metadata.ofHeaders a.headers).get? Metadata.contentTypeKey =
      (m.get? Metadata.contentTypeKey).filter (Metadata.arrives Metadata.contentTypeKey) := by
  have hn : Network.transportHeaders.texts Metadata.contentTypeKey = [] := rfl
  have ht := h.texts hm List.mem_cons_self
  rw [hn, List.append_nil] at ht
  rw [Metadata.get?_ofHeaders fun _ hp => h.lower hp]
  exact Headers.joined?_of_perm (by decide) ht

theorem get?_plainContentTypeKey (hm : m.entries.Sorted) :
    (Metadata.ofHeaders a.headers).get? Metadata.plainContentTypeKey = some ContentType.grpc := by
  have hn : Network.transportHeaders.texts Metadata.plainContentTypeKey = [ContentType.grpc] := rfl
  have hr (v : String) : Metadata.arrives Metadata.plainContentTypeKey v = false := rfl
  have ht := h.texts hm (List.mem_cons_of_mem _ List.mem_cons_self)
  rw [hn, Option.filter_eq_none_iff.mpr fun v _ => by simp [hr]] at ht
  rw [Metadata.get?_ofHeaders fun _ hp => h.lower hp]
  exact Headers.joined?_of_perm (by decide) ht

theorem contentType (hm : m.entries.Sorted) :
    a.heading.contentType =
      ((m.get? Metadata.contentTypeKey).filter
        (Metadata.arrives Metadata.contentTypeKey)).getD ContentType.grpc := by
  rw [contentType_heading, h.get?_contentTypeKey hm, h.get?_plainContentTypeKey hm]
  cases Option.filter .. <;> rfl

end Arrival.Conveys

-- Client and server, with the same codecs, select the same one by the same text, where the text is
-- of characters that a header shows. A text that no header holds is left out, and the server goes
-- by what the transport says of every call.
theorem codec_agreed {c : Client} {s : Server} (hs : s.directory.codecs = c.codecs)
    (hm : m.entries.Sorted) (freshId : String) {contentType : String} {codec : Codec}
    (hc : c.codecFor (m.outbound freshId) = .ok (contentType, codec)) (timeout : Option Time)
    (ha : a.Conveys (m.onward freshId timeout)) :
    ((Bytes.ofText contentType).all Headers.isVisible →
      a.heading.contentType = contentType ∧
        s.directory.codecs.lookup a.heading.contentType = some codec) ∧
    (¬(Bytes.ofText contentType).all Headers.isValueOctet →
      a.heading.contentType = ContentType.grpc) := by
  obtain ⟨ht, hl⟩ := Client.codecFor_eq_ok.mp hc
  obtain ⟨text, hg⟩ := Option.isSome_iff_exists.mp (m.isSome_contentType_outbound freshId)
  rw [hg, Option.getD_some] at ht
  subst ht
  -- Nothing but the text decides whether it arrives, since its name is one that a header has.
  have hk (v : String) : Metadata.arrives Metadata.contentTypeKey v =
      (Bytes.ofText v).all Headers.isVisible := rfl
  rw [ha.contentType (Metadata.sorted_onward hm ..), Metadata.contentType_onward, hg, hs]
  constructor
  case left =>
    intro hv
    simp [Option.filter, hk, hv, hl]
  case right =>
    intro hv
    have hn : ¬(Bytes.ofText text).all Headers.isVisible := mt Headers.all_isValueOctet hv
    simp [Option.filter, hk, hn]

-- JSON, with a parameter and blanks around it, in a call that says how much time is left.
theorem codec_agreed_despite_parameter :
    let text := " Application/JSON ; charset=utf-8"
    let m := Metadata.ofPairs [("x-content-type", text)]
    let codecs := Codec.Registry.empty.register "application/json" .json
    let c := Client.ofConfig {} codecs
    let s : Server := ⟨⟨[], codecs⟩, 0, 0⟩
    let n : Network := ⟨[], .octets [127, 0, 0, 1] 9⟩
    let a := n.arrival "/s.Auth/Refresh" (m.onward "r" (some 5)) []
    s.directory.codecs = c.codecs ∧ m.entries.Sorted ∧
      c.codecFor (m.outbound "r") = .ok (text, .json) ∧ a.Conveys (m.onward "r" (some 5)) ∧
      (Bytes.ofText text).all Headers.isVisible ∧
      s.directory.codecs.lookup a.heading.contentType = some .json := by
  intro text m codecs c s n a
  have hm : m.entries.Sorted := by decide
  have hc : c.codecFor (m.outbound "r") = .ok (text, .json) :=
    Client.codecFor_eq_ok.mpr (by decide +kernel)
  have ha : a.Conveys (m.onward "r" (some 5)) := conveys_arrival ..
  have hv : (Bytes.ofText text).all Headers.isVisible := by decide +kernel
  exact ⟨rfl, hm, hc, ha, hv, ((codec_agreed rfl hm "r" hc (some 5) ha).1 hv).2⟩

-- A line feed is a blank where a codec is looked up, but no header holds it.
theorem codec_lost_with_line_feed :
    let m := Metadata.ofPairs [("x-content-type", "application/json\n")]
    let jsonOnly := Codec.Registry.empty.register "application/json" .json
    let codecs := jsonOnly.register "application/grpc" .messagePack
    let c := Client.ofConfig {} codecs
    let s : Server := ⟨⟨[], codecs⟩, 0, 0⟩
    let n : Network := ⟨[], .octets [127, 0, 0, 1] 9⟩
    let a := n.arrival "/s.Auth/Refresh" (m.outbound "r") []
    s.directory.codecs = c.codecs ∧
      c.codecFor (m.outbound "r") = .ok ("application/json\n", .json) ∧
      a.headers = (m.outbound "r").toHeaders ++ Network.transportHeaders ∧
      s.directory.codecs.lookup a.heading.contentType = some .messagePack := by
  intro m jsonOnly codecs c s n a
  have hc : c.codecFor (m.outbound "r") = .ok ("application/json\n", .json) :=
    Client.codecFor_eq_ok.mpr (by decide +kernel)
  have hs : s.directory.codecs.lookup a.heading.contentType = some .messagePack := by
    decide +kernel
  exact ⟨rfl, hc, rfl, hs⟩

end Rpc
end CallFabric
