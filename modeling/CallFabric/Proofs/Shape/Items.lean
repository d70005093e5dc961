import CallFabric.Proofs.Shape.Reading

namespace CallFabric

open MessagePack (Item)

namespace Datum

variable {ds : List Datum} {es : List (String × Datum)}

theorem itemsOfJson_eq_map (vs : List Json) : itemsOfJson vs = vs.map itemOfJson := by
  induction vs
  case nil          => rfl
  case cons v vs hi => rw [itemsOfJson, hi, List.map_cons]

theorem entriesOfJson_eq_map (ms : List (String × Json)) :
    entriesOfJson ms = ms.map fun p => (key p.1, itemOfJson p.2) := by
  induction ms
  case nil          => rfl
  case cons p ms hi => rw [entriesOfJson, hi, List.map_cons]

theorem toItems_eq (h : ∀ d ∈ ds, d.toItem = itemOfJson d.form) :
    toItems ds = itemsOfJson (ds.map form) := by
  induction ds
  case nil => rfl
  case cons d ds hi =>
    obtain ⟨hd, hs⟩ := List.forall_mem_cons.mp h
    rw [toItems, hd, hi hs, List.map_cons, itemsOfJson]

theorem toEntries_eq (h : ∀ e ∈ es, e.2.toItem = itemOfJson e.2.form) :
    toEntries es = entriesOfJson (formMembers es) := by
  induction es
  case nil => rfl
  case cons e es hi =>
    obtain ⟨he, hs⟩ := List.forall_mem_cons.mp h
    rw [toEntries, he, hi hs, formMembers, formMembers, List.map_cons, entriesOfJson]

-- The MessagePack form is that of the JSON form.
theorem Plain.toItem_eq {d : Datum} (h : d.Plain) : d.toItem = itemOfJson d.form := by
  induction h
  case list h hi          => rw [toItem, form_list h, itemOfJson, toItems_eq hi]
  case tuple h hi         => rw [toItem, form_tuple h, itemOfJson, toItems_eq hi]
  case map h hi           => rw [toItem, form_map h, itemOfJson, toEntries_eq hi]
  case record h hi        => rw [toItem, form_record h, itemOfJson, toEntries_eq hi]
  case present hi         => exact hi
  case tagged name _ h hi => rw [toItem, form_tagged name h, itemOfJson, hi]; rfl
  all_goals rfl

theorem itemOfJson_eq_nil {v : Json} : itemOfJson v = .nil ↔ v = .null := by
  cases v
  case int i => simp only [itemOfJson, Item.ofInt]; split <;> simp
  all_goals simp [itemOfJson, key]

theorem itemOfJson_eq_unsigned {v : Json} {n : Nat} : itemOfJson v = .unsigned n ↔ v = .int n := by
  cases v
  case int i =>
    simp only [itemOfJson, Item.ofInt, Json.int.injEq]
    split
    case isTrue hi  => simp; omega
    case isFalse hi => simp; omega
  all_goals simp [itemOfJson, key]

theorem text?_key (s : String) : Shape.textOf? (key s) = some s :=
  Bytes.text?_ofText s

mutual

theorem toJson?_itemOfJson : (v : Json) → v.Plain → (itemOfJson v).toJson? = some v.sorted
  | .null, _ | .bool _, _ => rfl
  | .int i, _ => by
    rw [itemOfJson, Item.ofInt]
    split
    case isTrue    => rfl
    case isFalse h => rw [Item.toJson?, Int.toNat_of_nonneg (Int.not_lt.mp h)]; rfl
  | .float _, h => h.elim
  | .str s, _ => congrArg (Option.map _) (Bytes.text?_ofText s)
  | .arr vs, h => by
    rw [itemOfJson, Item.toJson?, toItems?_itemsOfJson vs h]
    rfl
  | .obj ms, h => by
    rw [itemOfJson, Item.toJson?, toMembers?_entriesOfJson ms h]
    rfl

theorem toItems?_itemsOfJson : (vs : List Json) → Json.PlainItems vs →
    Item.toItems? (itemsOfJson vs) = some (Json.sortedItems vs)
  | [], _ => rfl
  | v :: vs, h => by
    have hv := toJson?_itemOfJson v h.1
    have hi := toItems?_itemsOfJson vs h.2
    simp [itemsOfJson, Item.toItems?, hv, hi, Json.sortedItems]

theorem toMembers?_entriesOfJson : (ms : List (String × Json)) → Json.PlainMembers ms →
    (first : Bool) → (seen : List (String × Json)) →
    Item.toMembers? first seen (entriesOfJson ms) = some (Json.sortedMembers seen ms)
  | [], _, _, _ => rfl
  | (k, v) :: ms, h, first, seen => by
    have hk : Item.key? first (key k) = some k := Bytes.text?_ofText k
    have hv := toJson?_itemOfJson v h.1
    have hi := toMembers?_entriesOfJson ms h.2
    simp [entriesOfJson, Item.toMembers?, hk, hv, hi, Json.sortedMembers]

end

end Datum

namespace Shape

variable {s : Shape} {d : Datum}

theorem nameOf?_key (names : List String) (s : String) :
    nameOf? names (Datum.key s) = some (some s) :=
  congrArg some (Bytes.text?_ofText s)

theorem namedEntries?_map (names : List String) (f : Datum → Item) (es : List (String × Datum)) :
    namedEntries? names (es.map fun e => (Datum.key e.1, f e.2)) =
      some (es.map fun e => (e.1, f e.2)) := by
  induction es
  case nil          => rfl
  case cons e es hi => simp [namedEntries?, nameOf?_key, hi]

theorem ofItem?_option {i : Item} (h : i ≠ .nil) :
    ofItem? (.option s) i = (ofItem? s i).map .present := by
  cases i
  case nil => exact absurd rfl h
  all_goals rfl

theorem item_map_form (ds : List Datum) :
    Datum.itemOfJson (.arr (ds.map Datum.form)) =
      .array (ds.map fun d => Datum.itemOfJson d.form) := by
  rw [Datum.itemOfJson, Datum.itemsOfJson_eq_map, List.map_map]
  rfl

theorem item_formMembers (es : List (String × Datum)) :
    Datum.itemOfJson (.obj (Datum.formMembers es)) =
      .map (es.map fun e => (Datum.key e.1, Datum.itemOfJson e.2.form)) := by
  rw [Datum.itemOfJson, Datum.entriesOfJson_eq_map, Datum.formMembers, List.map_map]
  rfl

def Format.item : Format Item := ⟨Datum.itemOfJson, fun _ => ofItem?⟩

theorem Format.lawful_item : Format.item.Lawful where
  unit _     := rfl
  bool _ _   := rfl
  null _ _   := rfl
  text _ s   := congrArg (Option.map _) (Datum.text?_key s)
  any _ _ hc hp _ :=
    congrArg (Option.map _) ((Datum.toJson?_itemOfJson _ hp).trans (congrArg some (hc.sorted _)))
  present _ _ _ _ hv := ofItem?_option (mt Datum.itemOfJson_eq_nil.mp hv)
  int _ least greatest i hl hg _ := by
    show ofItem? (.int least greatest) (Item.ofInt i) = _
    rw [Item.ofInt]
    split
    case isTrue     => exact if_pos ⟨hl, hg⟩
    case isFalse hn =>
      rw [ofItem?, Int.toNat_of_nonneg (Int.not_lt.mp hn)]
      exact if_pos ⟨hl, hg⟩
  tag _ cases name hc := by
    show ofItem? (.choice cases) (Datum.key name) = _
    simp [Datum.key, ofItem?, nameOf?, Bytes.text?_ofText, bareCase?_eq hc, Datum.settled]
  list _ item ds hp h := by
    cases hp with | list hp =>
    have hm : ∀ d ∈ ds, ofItem? item (Datum.itemOfJson d.form) = some d.settled := h
    show ofItem? (.list item) (Datum.itemOfJson (Datum.list ds).form) = _
    rw [Datum.Plain.form_list hp, item_map_form, ofItem?, elements?, Option.bind_some, mapM_map hm,
      Option.map_some, Datum.settled, Datum.settledItems_eq_map]
  map _ value es hs hp h := by
    cases hp with | map hp =>
    have hm : ∀ e ∈ es, ofItem? value (Datum.itemOfJson e.2.form) = some e.2.settled := h
    show ofItem? (.map value) (Datum.itemOfJson (Datum.map es).form) = _
    rw [Datum.Plain.form_map hp, item_formMembers, ofItem?,
      mapM_map (k := fun e => (e.1, e.2.settled)) fun e he => by simp [Datum.text?_key, hm e he],
      Option.map_some, Table.ofList_of_sorted (hs.map _), Datum.settled,
      Datum.settledMembers_eq_map]
  tuple _ parts ds hl hp h := by
    cases hp with | tuple hp =>
    have hm : ∀ p ∈ parts.zip ds, ofItem? p.1 (Datum.itemOfJson p.2.form) = some p.2.settled := h
    show ofItem? (.tuple parts) (Datum.itemOfJson (Datum.tuple ds).form) = _
    rw [Datum.Plain.form_tuple hp, item_map_form, ofItem?, partsOfItems?_eq,
      partsBy_map (f := fun d => Datum.itemOfJson d.form) hl hm, Option.map_some, Datum.settled,
      Datum.settledItems_eq_map]
  record _ fields ds hn hk hp h := by
    cases hp with | record hp =>
    have hu : (Table.keys ds).Nodup := hk ▸ hn
    have hm : ∀ k s d, (k, s) ∈ fields → (k, d) ∈ ds → fieldBy ofItem?
        (ds.map fun e => (e.1, Datum.itemOfJson e.2.form)) k s = some d.settled := by
      intro k s d hf hd
      rw [fieldBy_of_get? (Table.get?_map_of_mem hu hd fun d => Datum.itemOfJson d.form)]
      exact h k s d hf hd
    have hf : distinctFields fields (ds.map fun e => (e.1, Datum.itemOfJson e.2.form)) :=
      distinctFields_of_nodup
        ((Table.keys_map (fun d => Datum.itemOfJson d.form) ds).symm ▸ hu) fields
    show ofItem? (.record fields) (Datum.itemOfJson (Datum.record ds).form) = _
    rw [Datum.Plain.form_record hp, item_formMembers, ofItem?,
      namedEntries?_map _ fun d => Datum.itemOfJson d.form]
    simp only [hf, if_true]
    rw [fieldsOfItems?_eq, fieldsBy_map hk hm, Option.map_some, Datum.settled,
      Datum.settledMembers_eq_map]
  tagged _ cases name s d hc hu _ hp h := by
    have hr : ofItem? s (Datum.itemOfJson d.form) = some d.settled := h
    show ofItem? (.choice cases) (Datum.itemOfJson (Datum.tagged name d).form) = _
    simp [Datum.Plain.form_tagged name hp, Datum.itemOfJson, Datum.entriesOfJson, ofItem?,
      nameOf?_key, caseOfItem?_eq hc hu, hr, Datum.settled]

theorem Has.ofItem?_form (h : s.Has d) (hp : d.Plain) :
    s.ofItem? (Datum.itemOfJson d.form) = some d.settled :=
  Format.lawful_item.returns h hp _ (Nat.le_refl _)

end Shape
end CallFabric
