import CallFabric.Proofs.Metadata.Making
import CallFabric.Proofs.Text.Numerals
import CallFabric.Proofs.Text.Utf8

namespace CallFabric

namespace Headers

-- A character that a header shows: those of ASCII from the space on, and the tab.
def isShown (c : Char) : Bool := c = '\t' || (' ' ≤ c && c ≤ '~')

theorem isVisible_of_high {b : UInt8} (h : 0x80 ≤ b) : isVisible b = false := by
  simp only [isVisible, Bool.or_eq_false_iff, Bool.and_eq_false_iff, decide_eq_false_iff_not]
  refine ⟨?_, .inr (UInt8.not_lt.mpr (UInt8.le_trans (by decide) h))⟩
  rintro rfl
  exact absurd h (by decide)

theorem ascii_of_isVisible {b : UInt8} (h : isVisible b) : b < 0x80 :=
  UInt8.not_le.mp fun hb => by simp [isVisible_of_high hb] at h

theorem ofText_charOf {value : Bytes} (h : value.all isVisible) :
    Bytes.ofText (.ofList (value.map Bytes.charOf)) = value :=
  Bytes.ofText_charOf (List.all_eq_true.mpr fun b hb =>
    decide_eq_true (ascii_of_isVisible (List.all_eq_true.mp h b hb)))

theorem visible?_eq (value : Bytes) :
    visible? value =
      if value.all isVisible then some (.ofList (value.map Bytes.charOf)) else none := by
  rw [visible?]
  split
  case isFalse  => rfl
  case isTrue h => rw [← Bytes.text?_ofText, ofText_charOf h]

theorem isShown_of_high {c : Char} (h : 128 ≤ c.toNat) : isShown c = false := by
  have ht : c ≠ '\t' := by
    rintro rfl
    exact absurd h (by decide)
  have hl : ¬c ≤ '~' := by
    simp only [Char.le_def, UInt32.le_iff_toNat_le]
    exact fun hle => absurd (Nat.le_trans h hle) (by decide)
  simp [isShown, ht, hl]

theorem all_isVisible_encode (c : Char) :
    (String.utf8EncodeChar c).all isVisible = isShown c := by
  have ha : ∀ n < 128, isVisible (.ofNat n) = isShown (.ofNat n) := by decide
  obtain ⟨n, hn, rfl, he⟩ | ⟨⟨b, bs, he, hb⟩, hc⟩ := Utf8.encode_ascii_or_high c
  case inl => rw [he, List.all_cons, List.all_nil, Bool.and_true, ha n hn]
  case inr =>
    rw [he, List.all_cons, isVisible_of_high (hb b List.mem_cons_self), isShown_of_high hc,
      Bool.false_and]

theorem all_isVisible_ofText (s : String) :
    (Bytes.ofText s).all isVisible = s.toList.all isShown := by
  rw [Bytes.ofText_eq, List.all_flatMap]
  exact congrArg _ (funext all_isVisible_encode)

theorem all_isShown_toString (n : Nat) : (toString n).toList.all isShown :=
  List.all_eq_true.mpr fun c hc => by
    have hb := Text.bounds_of_mem_toString hc
    simp [isShown, Char.le_def, UInt32.le_iff_toNat_le]
    exact .inr ⟨Nat.le_trans (by decide) hb.1, Nat.le_trans hb.2 (by decide)⟩

theorem isShown_of_visible? {value : Bytes} {s : String} (h : visible? value = some s) :
    s.toList.all isShown := by
  rw [visible?_eq] at h
  split at h
  case isFalse  => cases h
  case isTrue hv =>
    obtain rfl := Option.some.inj h
    rw [← all_isVisible_ofText, ofText_charOf hv, hv]

theorem isShown_join {values : List String} (h : ∀ s ∈ values, s.toList.all isShown) :
    (Text.join "," values).toList.all isShown := by
  induction values
  case nil => rfl
  case cons s values hi =>
    obtain ⟨hs, hv⟩ := List.forall_mem_cons.mp h
    cases values
    case nil       => exact hs
    case cons t ts =>
      rw [Text.join.eq_3 "," s (t :: ts) (by simp), String.toList_append, String.toList_append,
        List.all_append, List.all_append, hs, hi hv]
      rfl

theorem isShown_joined {hs : Headers} {name value : String} (h : hs.joined? name = some value) :
    value.toList.all isShown := by
  rw [joined?] at h
  split at h
  case isTrue  => cases h
  case isFalse =>
    obtain rfl := Option.some.inj h
    refine isShown_join fun s hs => ?_
    obtain ⟨⟨n, v⟩, -, hp⟩ := List.mem_filterMap.mp hs
    by_cases hn : n = name
    case pos => exact isShown_of_visible? ((if_pos hn).symm.trans hp)
    case neg => cases (if_neg hn).symm.trans hp

end Headers

namespace Metadata

variable {m : Metadata} {k v key : String}

-- What there is to a pair that arrives.
structure Travels (key value : String) : Prop where
  -- It is none of the fields that are the transport's own,
  unreserved : key ∉ reserved
  notGrpc    : ¬"grpc-".toList <+: key.toList
  notSocket  : ¬"sec-websocket-".toList <+: key.toList
  -- its name is one that a header has,
  nonempty   : key ≠ ""
  token      : key.toList.all Headers.isTokenChar
  -- for a value that is text and not octets,
  notBinary  : ¬binaryEnding.toList <:+ key.toList
  -- and the value can be shown.
  shown      : value.toList.all Headers.isShown

theorem travels_iff (key value : String) : Travels key value ↔
    key ∉ reserved ∧ ¬"grpc-".toList <+: key.toList ∧ ¬"sec-websocket-".toList <+: key.toList ∧
      key ≠ "" ∧ key.toList.all Headers.isTokenChar ∧ ¬binaryEnding.toList <:+ key.toList ∧
      value.toList.all Headers.isShown where
  mp h := ⟨h.unreserved, h.notGrpc, h.notSocket, h.nonempty, h.token, h.notBinary, h.shown⟩
  mpr h := ⟨h.1, h.2.1, h.2.2.1, h.2.2.2.1, h.2.2.2.2.1, h.2.2.2.2.2.1, h.2.2.2.2.2.2⟩

instance (key value : String) : Decidable (Travels key value) :=
  decidable_of_iff' _ (travels_iff key value)

theorem arrives_iff (hk : Text.lower k = k) : arrives k v ↔ Travels k v := by
  have hr : binaryEnding.toList.reverse.isPrefixOf k.toList.reverse ↔
      binaryEnding.toList <:+ k.toList := by
    rw [List.isPrefixOf_iff_prefix, List.reverse_prefix]
  have he : k.toList.isEmpty ↔ k = "" := by simp
  rw [arrives, Headers.all_isVisible_ofText, travels_iff]
  simp only [isForwardable, isTextKey, Headers.isName, Text.startsWith, Bool.and_eq_true,
    Bool.not_eq_true', ← Bool.not_eq_true, decide_eq_true_eq, hr, he, hk,
    List.isPrefixOf_iff_prefix, and_assoc, true_and]

-- Under a name there is what was sent under it, in whatever order the headers came.
theorem get?_ofHeaders_toHeaders (hm : m.entries.Sorted) {hs : Headers}
    (hp : hs.Perm m.toHeaders) (key : String) :
    (ofHeaders hs).get? key = (m.get? key).filter (arrives (Text.lower key)) := by
  have hl : ∀ p ∈ hs, Text.lower p.1 = p.1 := fun p h => lower_of_mem_toHeaders (hp.mem_iff.mp h)
  have ht := Headers.texts_perm hp (Text.lower key)
  rw [texts_toHeaders hm] at ht
  rw [get?_ofHeaders hl]
  by_cases hc : Text.lower key = "connection"
  case neg => exact Headers.joined?_of_perm hc ht
  case pos =>
    -- Connection control is not collected, and would not arrive.
    have ha (v : String) : arrives "connection" v = false := rfl
    rw [hc, Headers.joined?, if_pos (.inl rfl),
      Option.filter_eq_none_iff.mpr fun v _ => by simp [ha]]

theorem mem_ofHeaders_toHeaders (hm : m.Tidy) {hs : Headers} (hp : hs.Perm m.toHeaders) :
    (k, v) ∈ (ofHeaders hs).entries ↔ (k, v) ∈ m.entries ∧ Travels k v := by
  have hr : (ofHeaders hs).Tidy := (Made.ofHeaders hs).tidy
  have hg : Text.lower k = k → ((k, v) ∈ (ofHeaders hs).entries ↔
      (k, v) ∈ m.entries ∧ arrives k v) := fun hk => by
    have := get?_ofHeaders_toHeaders hm.sorted hp k
    rw [get?, get?, hk] at this
    rw [← hr.sorted.get?_eq_some, ← hm.sorted.get?_eq_some, this, Option.filter_eq_some_iff]
  constructor
  case mp =>
    intro h
    have hk := hr.lower _ h
    exact ((hg hk).mp h).imp_right (arrives_iff hk).mp
  case mpr =>
    rintro ⟨h, ht⟩
    have hk := hm.lower _ h
    exact (hg hk).mpr ⟨h, (arrives_iff hk).mpr ht⟩

theorem takeTimeout_entries (hm : m.entries.Sorted) :
    m.takeTimeout.2.entries = m.entries.filter fun p => p.1 ≠ timeoutKey :=
  Table.erase_eq_filter hm.nodup timeoutKey

theorem get?_setTimeout (m : Metadata) (t : Time) :
    (m.setTimeout t).get? timeoutKey = some (toString t) := by
  rw [setTimeout, get?_insert, if_pos rfl]

theorem arrives_timeout (t : Time) : arrives timeoutKey (toString t) := by
  rw [arrives, Headers.all_isVisible_ofText, Headers.all_isShown_toString]
  decide

theorem takeTimeout_ofHeaders (hm : m.entries.Sorted) (t : Time) {hs : Headers}
    (hp : hs.Perm (m.setTimeout t).toHeaders) :
    (ofHeaders hs).takeTimeout.1 = if t < 0x10000000000000000 then some t else none := by
  have hm' : (m.setTimeout t).entries.Sorted := sorted_insert hm ..
  have hg : (ofHeaders hs).get? timeoutKey = some (toString t) := by
    rw [get?_ofHeaders_toHeaders hm' hp, get?_setTimeout, Option.filter_some]
    exact if_pos (arrives_timeout t)
  rw [takeTimeout, hg, Option.bind_some, Text.word64?_trim_toString]

-- Of what is sent with a time that is left, the receiver holds the pairs that travel, each as it
-- was and no other; it takes off that time, unless it is too great to be read, and keeps all the
-- rest.
theorem crosses_headers (hm : m.Made) (t : Time) {hs : Headers}
    (hp : hs.Perm (m.setTimeout t).toHeaders) :
    (ofHeaders hs).entries = (m.setTimeout t).entries.filter (fun p => Travels p.1 p.2) ∧
    (ofHeaders hs).takeTimeout.1 = (if t < 0x10000000000000000 then some t else none) ∧
    (ofHeaders hs).takeTimeout.2.entries =
      (ofHeaders hs).entries.filter fun p => p.1 ≠ timeoutKey := by
  have hm' : (m.setTimeout t).Tidy := (hm.setTimeout t).tidy
  have hr : (ofHeaders hs).entries.Sorted := sorted_ofHeaders hs
  have he : (ofHeaders hs).entries =
      (m.setTimeout t).entries.filter fun p => Travels p.1 p.2 :=
    hr.ext_mem (hm'.sorted.filter _) fun k v => by
      rw [mem_ofHeaders_toHeaders hm' hp, List.mem_filter, decide_eq_true_eq]
  exact ⟨he, takeTimeout_ofHeaders hm.tidy.sorted t hp, takeTimeout_entries hr⟩

-- A host, octets and a letter beyond ASCII stay behind; the headers come in another order.
theorem crosses_headers_reversed :
    let m := (ofPairs [("Trace", "a\tb"), ("host", "x"), ("seen-bin", "1"), ("note", "é")]).erase "z"
    let hs := (m.setTimeout 1500).toHeaders.reverse
    m.Made ∧ hs.Perm (m.setTimeout 1500).toHeaders ∧
      (ofHeaders hs).takeTimeout = (some 1500, ⟨[("trace", "a\tb")]⟩) := by
  intro m hs
  have hm : m.Made := (Made.ofPairs _).erase "z"
  have hp : hs.Perm (m.setTimeout 1500).toHeaders := List.reverse_perm _
  obtain ⟨he, ht, hr⟩ := crosses_headers hm 1500 hp
  have hk : ((m.setTimeout 1500).entries.filter fun p => Travels p.1 p.2).filter
      (fun p => p.1 ≠ timeoutKey) = [("trace", "a\tb")] := by decide +kernel
  rw [he, hk] at hr
  exact ⟨hm, hp, Prod.ext ht (congrArg Metadata.mk hr)⟩

end Metadata
end CallFabric
