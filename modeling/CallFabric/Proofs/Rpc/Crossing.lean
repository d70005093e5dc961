import CallFabric.Proofs.Metadata.Passage
import CallFabric.Proofs.Rpc.Heading
import CallFabric.Proofs.Service.Addressing

namespace CallFabric

namespace Text

theorem not_mem_of_mem_splitChars {separator : Char} {cs piece : List Char}
    (h : piece ∈ splitChars separator cs) : separator ∉ piece := by
  induction cs generalizing piece
  case nil =>
    obtain rfl := List.mem_singleton.mp h
    exact List.not_mem_nil
  case cons c cs hi =>
    obtain ⟨first, more, hs⟩ := List.exists_cons_of_ne_nil (splitChars_ne_nil separator cs)
    rw [hs] at hi
    simp only [splitChars, hs] at h
    split at h
    case isTrue =>
      obtain rfl | h := List.mem_cons.mp h
      case inl => exact List.not_mem_nil
      case inr => exact hi h
    case isFalse hc =>
      obtain rfl | h := List.mem_cons.mp h
      case inl => exact not_or.mpr ⟨Ne.symm hc, hi List.mem_cons_self⟩ ∘ List.mem_cons.mp
      case inr => exact hi (List.mem_cons_of_mem _ h)

theorem all_of_splitFirst? {separator : Char} {s before after : String} {p : Char → Bool}
    (hs : s.toList.all p) (h : splitFirst? separator s = some (before, after)) :
    before.toList.all p ∧ after.toList.all p := by
  unfold splitFirst? at h
  split at h
  case h_1 => cases h
  case h_2 found rest hd =>
    cases h
    rw [← List.takeWhile_append_dropWhile (p := (· ≠ separator)) (l := s.toList), hd,
      List.all_append, List.all_cons, Bool.and_eq_true, Bool.and_eq_true] at hs
    rw [String.toList_ofList, String.toList_ofList]
    exact ⟨hs.1, hs.2.2⟩

end Text

namespace PathAndQuery

-- A text of path characters is a path, and nothing but a path.
theorem ofText?_path {s : String} (hn : s ≠ "") (h : s.toList.all isPathChar) :
    ofText? s = some ⟨s, none⟩ := by
  have hout (c : Char) (hc : isPathChar c = false) : c ∉ s.toList := fun hm =>
    Bool.eq_false_iff.mp hc (List.all_eq_true.mp h c hm)
  have htarget : s.toList.takeWhile (· ≠ '#') = s.toList := by
    simpa using Text.takeWhile_of_not_mem (hout '#' (by decide)) []
  have hpath : s.toList.takeWhile (· ≠ '?') = s.toList := by
    simpa using Text.takeWhile_of_not_mem (hout '?' (by decide)) []
  have hquery : s.toList.dropWhile (· ≠ '?') = [] := by
    simpa using Text.dropWhile_of_not_mem (hout '?' (by decide)) []
  have he : s.toList.isEmpty = false := by simpa using hn
  simp only [ofText?, ofChars?, htarget, hpath, hquery, h, he, hout '?' (by decide)]
  simp

end PathAndQuery

namespace Address

variable {service endpoint rest : String}

-- What a path names are two of its segments.
structure Target.IsNamed (t : Target) : Prop where
  service       : t.service ≠ ""
  serviceWhole  : '/' ∉ t.service.toList
  endpoint      : t.endpoint ≠ ""
  endpointWhole : '/' ∉ t.endpoint.toList

theorem isNamed_of_parseTarget {t : Target} (h : parseTarget rest = .ok t) : t.IsNamed := by
  have hwhole (pieces : List (List Char))
      (hp : ∀ piece ∈ pieces, piece ∈ Text.splitChars '/' (rest.toList.dropWhile (· = '/'))) :
      '/' ∉ (String.ofList (pieces.headD [])).toList := by
    cases pieces
    case nil             => simp
    case cons piece more => simpa using Text.not_mem_of_mem_splitChars (hp piece (by simp))
  simp only [parseTarget] at h
  split at h
  case isTrue => cases h
  case isFalse hs =>
    split at h
    case isTrue => cases h
    case isFalse he =>
      cases h
      exact ⟨hs, hwhole _ fun _ => id, he, hwhole _ fun _ => List.mem_of_mem_drop⟩

theorem methodPath_ne_empty (service endpoint : String) : methodPath service endpoint ≠ "" := by
  unfold methodPath
  split
  case isTrue h =>
    rintro rfl
    exact absurd h (by decide)
  case isFalse =>
    split
    case h_1 => split <;> (try split) <;> simp
    case h_2 => simp

theorem all_methodPath {p : Char → Bool} (hslash : p '/') (hdot : p '.') (hs : service.toList.all p)
    (he : endpoint.toList.all p) : (methodPath service endpoint).toList.all p := by
  unfold methodPath
  split
  case isTrue  => exact he
  case isFalse =>
    split
    case h_1 typeName method hsplit =>
      obtain ⟨hb, ha⟩ := Text.all_of_splitFirst? he hsplit
      split
      case isTrue => simp [hslash, hs, he]
      case isFalse =>
        split
        case isTrue  => simp [hslash, hb, ha]
        case isFalse => simp [hslash, hdot, hs, hb, ha]
    case h_2 => simp [hslash, hs, he]

end Address

namespace Rpc

variable (n : Network) (path : String) {m : Metadata} (messages : List Bytes)

-- What arrives under a name that the transport has no use for itself.
theorem get?_ofHeaders_arrival (hm : m.entries.Sorted) {key : String} (hl : Text.lower key = key)
    (hk : Network.transportHeaders.texts key = []) (hc : key ≠ "connection") :
    (Metadata.ofHeaders (n.arrival path m messages).headers).get? key =
      (m.get? key).filter (Metadata.arrives key) := by
  have ht : (n.arrival path m messages).headers.texts key =
      ((m.entries.get? key).filter (Metadata.arrives key)).toList := by
    rw [Network.arrival, Headers.texts_append, hk, List.append_nil, Metadata.texts_toHeaders hm]
  rw [Metadata.get?_ofHeaders fun _ hp => (conveys_arrival n path m messages).lower hp, hl,
    Metadata.get?, hl]
  exact Headers.joined?_of_perm hc (ht ▸ .refl _)

theorem timeout_heading (a : Arrival) :
    a.heading.timeout =
      ((Metadata.ofHeaders a.headers).get? Metadata.timeoutKey).bind fun s =>
        Text.word64? (Text.trim s) := by
  rw [Arrival.heading]
  cases a.peer
  case none      => rfl
  case some peer =>
    exact congrArg (Option.bind · _) (Metadata.get?_insert_of_ne (by decide) ..)

-- A time that is too great to be read is none.
theorem timeout_arrival (hm : m.entries.Sorted) (timeout : Time) :
    (n.arrival path (m.setTimeout timeout) messages).heading.timeout =
      if timeout < 0x10000000000000000 then some timeout else none := by
  have hs : (m.setTimeout timeout).entries.Sorted := Metadata.sorted_insert hm ..
  rw [timeout_heading, get?_ofHeaders_arrival n path messages hs (by decide) (by decide)
    (by decide), Metadata.get?_setTimeout, Option.filter_some,
    if_pos (Metadata.arrives_timeout timeout), Option.bind_some, Text.word64?_trim_toString]

-- Only a field of the transport could say otherwise, and no metadata is sent as one.
theorem isPlain_arrival : (n.arrival path m messages).isPlain := by
  have htransport : ∀ p ∈ Network.transportHeaders, p.1 ≠ encodingHeader := by decide
  have hreserved : Metadata.isForwardable encodingHeader = false := by decide
  have hn : ∀ p ∈ (n.arrival path m messages).headers, p.1 ≠ encodingHeader := by
    intro p hp
    obtain hp | hp := List.mem_append.mp hp
    case inl =>
      obtain ⟨⟨k, v⟩, hq, rfl⟩ := List.mem_map.mp hp
      have hc : Metadata.carries k v := (List.mem_filter.mp hq).2
      rintro rfl
      simp [Metadata.carries, hreserved] at hc
    case inr => exact htransport p hp
  have hf : (n.arrival path m messages).headers.first? encodingHeader = none := by
    rw [Headers.first?, Option.map_eq_none_iff, List.find?_eq_none]
    exact fun p hp => by simpa using hn p hp
  rw [Arrival.isPlain, hf]
  rfl

end Rpc
end CallFabric
