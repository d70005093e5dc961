import CallFabric.Proofs.Codec.Fidelity

namespace CallFabric

namespace Json

variable {v : Json} {ms : List (String × Json)}

theorem forall_mem_sortedMembers {motive : Json → Prop} (h : ∀ p ∈ ms, motive p.2.sorted) :
    ∀ p ∈ sortedMembers [] ms, motive p.2 := by
  intro p hp
  obtain hp | ⟨q, hq, rfl⟩ := mem_sortedMembers hp
  case inl => cases hp
  case inr => exact h q hq

theorem Plain.sorted (v : Json) (h : v.Plain) : v.sorted.Plain := by
  induction v using Json.induct
  case arr xs hi =>
    rw [Json.sorted, sortedItems_eq_map]
    apply plainItems_iff.mpr
    exact List.forall_mem_map.mpr fun x hx => hi x hx (plainItems_iff.mp h x hx)
  case obj ms hi =>
    apply plainMembers_iff.mpr
    exact forall_mem_sortedMembers fun p hp => hi p hp (plainMembers_iff.mp h p hp)
  all_goals exact h

theorem Plain.canonical_sorted (v : Json) (h : v.Plain) : v.sorted.Canonical := by
  induction v using Json.induct
  case float => cases h
  case arr xs hi =>
    rw [Json.sorted, sortedItems_eq_map]
    apply canonicalItems_iff.mpr
    exact List.forall_mem_map.mpr fun x hx => hi x hx (plainItems_iff.mp h x hx)
  case obj ms hi =>
    refine ⟨sorted_sortedMembers List.Pairwise.nil ms, canonicalMembers_iff.mpr ?_⟩
    exact forall_mem_sortedMembers fun p hp => hi p hp (plainMembers_iff.mp h p hp)
  all_goals exact h

theorem Plain.sorted_sorted (h : v.Plain) : v.sorted.sorted = v.sorted :=
  Canonical.sorted _ (h.canonical_sorted v)

-- Of members under one key only the last is left, so the depth may become less.
theorem depth_sorted_le (v : Json) : v.sorted.depth ≤ v.depth := by
  induction v using Json.induct
  case arr xs hi =>
    rw [Json.sorted, sortedItems_eq_map]
    apply Nat.succ_le_succ
    apply depthItems_le_iff.mpr
    exact List.forall_mem_map.mpr fun x hx =>
      Nat.le_trans (hi x hx) (depthItems_le_iff.mp (Nat.le_refl _) x hx)
  case obj ms hi =>
    apply Nat.succ_le_succ
    apply depthMembers_le_iff.mpr
    exact forall_mem_sortedMembers (motive := (depth · ≤ depthMembers ms)) fun p hp =>
      Nat.le_trans (hi p hp) (depthMembers_le_iff.mp (Nat.le_refl _) p hp)
  all_goals exact Nat.le_refl _

-- Members out of order make another text, but one that is read as the same value.
theorem ofText?_text_sorted (h : v.Plain) (hd : v.depth ≤ Written.depthLimit) :
    ofText? v.sorted.text = some v.sorted := by
  rw [ofText?_text (h.sorted v) (Nat.le_trans v.depth_sorted_le hd), h.sorted_sorted]

end Json

namespace Codec

variable {d : Datum} {packed : Bytes}

theorem encode_ne_nil (hp : d.Plain) (hc : messagePack.Holds d)
    (he : messagePack.encode d = .ok packed) : packed ≠ [] := by
  rintro rfl
  cases decodeValue_encode hp hc he

theorem toJsonText_encode (hp : d.Plain) (hc : messagePack.Holds d)
    (he : messagePack.encode d = .ok packed) :
    messagePack.toJsonText packed = .ok d.form.sorted.text := by
  have hn : packed.isEmpty = false := by simpa using encode_ne_nil hp hc he
  simp [toJsonText, hn, decodeValue_encode hp hc he, Except.map]

-- What MessagePack has of a value without floats can be turned into JSON, and is then read as what
-- the JSON of the value is read as, if no more than 127 containers are nested in it and its lengths
-- are below 2³². Of a JSON value there are the same octets either way.
theorem transcoded_reads_alike (hp : d.Plain) (hd : d.form.depth ≤ Json.Written.depthLimit)
    (hf : d.toItem.Fits) :
    ∃ packed text transcoded v,
      messagePack.encode d = .ok packed ∧ json.encode d = .ok text ∧
      messagePack.toJsonText packed = .ok transcoded ∧
      Json.ofText? transcoded = some v ∧ Json.ofText? text = some v ∧
      ∀ x : Json, x.Canonical → d = .json x → transcoded = text := by
  have hc (c : Codec) : c.Holds d := holds_of_depth_le hp hd fun _ => hf
  obtain ⟨packed, he⟩ := exists_encode hp messagePack
  refine ⟨packed, d.form.text, d.form.sorted.text, d.form.sorted, he, encode_json hp,
    toJsonText_encode hp (hc _) he, Json.ofText?_text_sorted hp.form hd,
    Json.ofText?_text hp.form hd, ?bytes⟩
  case bytes =>
    rintro x hx rfl
    exact congrArg Json.text (hx.sorted x)

-- Two cases of a choice, an absent option, octets and a map whose keys are out of order; and a JSON
-- value.
theorem transcoded_reads_alike_out_of_order :
    let d : Datum := .tagged "Open" (.record [("mode", .tag "Fast"), ("who", .absent),
      ("raw", .list [.int 0, .int 255]), ("map", .map [("b", .int (-1)), ("a", .int 65536)])])
    let x : Json := .obj [("a", .arr [.null, .int (-1)]), ("b", .str "é")]
    (∃ packed text transcoded v,
      messagePack.encode d = .ok packed ∧ json.encode d = .ok text ∧
      messagePack.toJsonText packed = .ok transcoded ∧
      Json.ofText? transcoded = some v ∧ Json.ofText? text = some v) ∧
    ∃ packed text, messagePack.encode (.json x) = .ok packed ∧ json.encode (.json x) = .ok text ∧
      messagePack.toJsonText packed = .ok text := by
  intro d x
  have hp : d.Plain := by
    refine .tagged _ (.record ?_)
    simp only [List.forall_mem_cons, List.not_mem_nil, false_imp_iff, implies_true, and_true]
    refine ⟨.tag _, .absent, .list ?raw, .map ?map⟩
    case raw => simp [Datum.Plain.int]
    case map => simp [Datum.Plain.int]
  have hf : d.toItem.Fits := by
    simp only [d, Datum.toItem, Datum.toEntries, Datum.toItems, Datum.key, MessagePack.Item.ofInt]
    simp [MessagePack.Item.Fits, MessagePack.FitsEntries, MessagePack.FitsItems]
    decide
  have hx : x.Canonical := by
    simp only [x, Json.Canonical, Json.CanonicalItems, Json.CanonicalMembers]
    decide
  have hxp : Datum.Plain (.json x) := .json (by
    simp [x, Json.Plain, Json.PlainItems, Json.PlainMembers])
  have hxf : (Datum.json x).toItem.Fits := by
    simp only [x, Datum.toItem, Datum.itemOfJson, Datum.itemsOfJson, Datum.entriesOfJson, Datum.key,
      MessagePack.Item.ofInt]
    simp [MessagePack.Item.Fits, MessagePack.FitsEntries, MessagePack.FitsItems]
    decide
  obtain ⟨packed, text, transcoded, v, he, ht, hj, hv, hw, -⟩ :=
    transcoded_reads_alike hp (by decide) hf
  obtain ⟨packed', text', transcoded', v', he', ht', hj', -, -, hb⟩ :=
    transcoded_reads_alike hxp (by decide) hxf
  obtain rfl := hb x hx rfl
  exact ⟨⟨packed, text, transcoded, v, he, ht, hj, hv, hw⟩, packed', transcoded', he', ht', hj'⟩

end Codec
end CallFabric
