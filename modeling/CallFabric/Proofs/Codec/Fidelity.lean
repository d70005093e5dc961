import CallFabric.Demo.Behaviour
import CallFabric.Proofs.Codec.RoundTrip

namespace CallFabric

namespace Shape

variable {s : Shape} {d : Datum} {n : Nat}

-- A value of the shape may be written as an absent option is.
def mayBeNull : Shape → Bool
  | .unit | .any | .option _ => true
  | _ => false

theorem Has.isNull_eq_false (h : s.Has d) (hs : s.mayBeNull = false) : d.isNull = false := by
  cases h
  case unit | any | absent | present => cases hs
  all_goals rfl

inductive Faithful : Shape → Prop
  | unit : Faithful .unit
  | bool : Faithful .bool
  | int (least greatest : Int) : Faithful (.int least greatest)
  | float : Faithful .float
  | text : Faithful .text
  | any : Faithful .any
  | list {item : Shape} (h : Faithful item) : Faithful (.list item)
  | map {value : Shape} (h : Faithful value) : Faithful (.map value)
  | option {value : Shape} (h : Faithful value) (hn : value.mayBeNull = false) :
    Faithful (.option value)
  | tuple {parts : List Shape} (h : ∀ p ∈ parts, Faithful p) : Faithful (.tuple parts)
  | record {fields : List (String × Shape)} (h : ∀ p ∈ fields, Faithful p.2) :
    Faithful (.record fields)
  | choice {cases : List (String × Shape)} (h : ∀ p ∈ cases, Faithful p.2) :
    Faithful (.choice cases)

theorem settledItems_eq_self {ds : List Datum} (h : ∀ d ∈ ds, d.settled = d) :
    Datum.settledItems ds = ds := by
  rw [Datum.settledItems_eq_map]
  exact (List.map_congr_left h).trans (List.map_id ds)

theorem settledMembers_eq_self {es : List (String × Datum)} (h : ∀ e ∈ es, e.2.settled = e.2) :
    Datum.settledMembers es = es := by
  rw [Datum.settledMembers_eq_map]
  exact (List.map_congr_left fun e he => congrArg (Prod.mk e.1) (h e he)).trans (List.map_id es)

theorem Faithful.settled (hs : s.Faithful) (h : s.Has d) : d.settled = d := by
  induction h
  case list hi =>
    cases hs with | list hs =>
    rw [Datum.settled, settledItems_eq_self fun d hd => hi d hd hs]
  case map hi =>
    cases hs with | map hs =>
    rw [Datum.settled, settledMembers_eq_self fun e he => hi e he hs]
  case present h hi =>
    cases hs with | option hs hn =>
    rw [Datum.settled, h.isNull_eq_false hn, hi hs]
    rfl
  case tuple hl h hi =>
    cases hs with | tuple hs =>
    refine congrArg _ (settledItems_eq_self fun d hd => ?_)
    obtain ⟨s, hp⟩ := Has.exists_part hl hd
    exact hi _ hp (hs s (List.of_mem_zip hp).1)
  case record hk h hi =>
    cases hs with | record hs =>
    refine congrArg _ (settledMembers_eq_self fun e he => ?_)
    obtain ⟨s, hf⟩ := Has.exists_field hk he
    exact hi _ s _ hf he (hs _ hf)
  case tagged hc hu h hi =>
    cases hs with | choice hs =>
    exact congrArg _ (hi (hs _ (Table.mem_of_get? hc)))
  all_goals rfl

-- So many containers at most are nested in its values, none of which is a JSON value.
inductive Nests : Shape → Nat → Prop
  | unit (n : Nat) : Nests .unit n
  | bool (n : Nat) : Nests .bool n
  | int (least greatest : Int) (n : Nat) : Nests (.int least greatest) n
  | float (n : Nat) : Nests .float n
  | text (n : Nat) : Nests .text n
  | list {item : Shape} {n : Nat} (h : Nests item n) : Nests (.list item) (n + 1)
  | map {value : Shape} {n : Nat} (h : Nests value n) : Nests (.map value) (n + 1)
  | option {value : Shape} {n : Nat} (h : Nests value n) : Nests (.option value) n
  | tuple {parts : List Shape} {n : Nat} (h : ∀ p ∈ parts, Nests p n) : Nests (.tuple parts) (n + 1)
  | record {fields : List (String × Shape)} {n : Nat} (h : ∀ p ∈ fields, Nests p.2 n) :
    Nests (.record fields) (n + 1)
  | choice {cases : List (String × Shape)} {n : Nat} (h : ∀ p ∈ cases, Nests p.2 n) :
    Nests (.choice cases) (n + 1)

theorem depth_arr_le {ds : List Datum} (h : ∀ d ∈ ds, d.form.depth ≤ n) :
    (Json.arr (ds.map Datum.form)).depth ≤ n + 1 :=
  Nat.succ_le_succ (Json.depthItems_le_iff.mpr (List.forall_mem_map.mpr h))

theorem depth_formMembers_le {es : List (String × Datum)} (h : ∀ e ∈ es, e.2.form.depth ≤ n) :
    (Json.obj (Datum.formMembers es)).depth ≤ n + 1 :=
  Nat.succ_le_succ (Json.depthMembers_le_iff.mpr (List.forall_mem_map.mpr h))

theorem Nests.depth_form_le (hs : s.Nests n) (h : s.Has d) (hp : d.Plain) : d.form.depth ≤ n := by
  induction h generalizing n
  case any   => cases hs
  case float => cases hp
  case list hi =>
    cases hs with | list hs =>
    cases hp with | list hp =>
    exact Datum.Plain.form_list hp ▸ depth_arr_le fun d hd => hi d hd hs (hp d hd)
  case map hi =>
    cases hs with | map hs =>
    cases hp with | map hp =>
    exact Datum.Plain.form_map hp ▸ depth_formMembers_le fun e he => hi e he hs (hp e he)
  case present hi =>
    cases hs with | option hs =>
    cases hp with | present hp =>
    exact hi hs hp
  case tuple hl h hi =>
    cases hs with | tuple hs =>
    cases hp with | tuple hp =>
    refine Datum.Plain.form_tuple hp ▸ depth_arr_le fun d hd => ?_
    obtain ⟨s, hm⟩ := Has.exists_part hl hd
    exact hi _ hm (hs s (List.of_mem_zip hm).1) (hp d hd)
  case record hk h hi =>
    cases hs with | record hs =>
    cases hp with | record hp =>
    refine Datum.Plain.form_record hp ▸ depth_formMembers_le fun e he => ?_
    obtain ⟨s, hf⟩ := Has.exists_field hk he
    exact hi _ s _ hf he (hs _ hf) (hp e he)
  case tagged name s d hc hu h hi =>
    cases hs with | choice hs =>
    cases hp with | tagged _ hp =>
    rw [Datum.Plain.form_tagged _ hp]
    exact @depth_formMembers_le _ [(name, d)]
      (List.forall_mem_singleton.mpr (hi (hs _ (Table.mem_of_get? hc)) hp))
  all_goals exact Nat.zero_le n

end Shape

namespace Datum

open MessagePack (Item)

theorem depth_key (s : String) : (key s).depth = 0 := rfl

mutual

-- As many containers are nested in one format as in the other.
theorem depth_itemOfJson : (v : Json) → (itemOfJson v).depth = v.depth
  | .null | .bool _ | .float _ | .str _ => rfl
  | .int i => by
    rw [itemOfJson, Item.ofInt]
    split <;> rfl
  | .arr vs => congrArg (· + 1) (depth_itemsOfJson vs)
  | .obj ms => congrArg (· + 1) (depth_entriesOfJson ms)

theorem depth_itemsOfJson : (vs : List Json) →
    MessagePack.depthItems (itemsOfJson vs) = Json.depthItems vs
  | [] => rfl
  | v :: vs => by
    rw [itemsOfJson, MessagePack.depthItems, depth_itemOfJson v, depth_itemsOfJson vs,
      Json.depthItems]

theorem depth_entriesOfJson : (ms : List (String × Json)) →
    MessagePack.depthEntries (entriesOfJson ms) = Json.depthMembers ms
  | [] => rfl
  | (k, v) :: ms => by
    rw [entriesOfJson, MessagePack.depthEntries, depth_key, Nat.zero_max, depth_itemOfJson v,
      depth_entriesOfJson ms, Json.depthMembers]

end

end Datum

namespace Codec

variable {s : Shape} {d : Datum}

-- What JSON has room for MessagePack has too, as far as lengths go.
theorem holds_of_depth_le (hp : d.Plain) (hd : d.form.depth ≤ Json.Written.depthLimit) {c : Codec}
    (hf : c = .messagePack → d.toItem.Fits) : c.Holds d := by
  cases c
  case json => exact hd
  case messagePack =>
    refine ⟨hf rfl, ?_⟩
    rw [hp.toItem_eq, Datum.depth_itemOfJson]
    exact Nat.le_trans hd (by decide)

-- A value without floats comes back as it was, in both formats and whatever it is made of, where
-- its shape is faithful, no more than 127 containers are nested in it, as its shape may say
-- already, and the lengths in it are below 2³².
theorem decode_encode_faithful (c : Codec) (hs : s.Faithful) (h : s.Has d) (hp : d.Plain)
    (hd : s.Nests Json.Written.depthLimit ∨ d.form.depth ≤ Json.Written.depthLimit)
    (hf : c = .messagePack → d.toItem.Fits) :
    ∃ payload, c.encode d = .ok payload ∧ c.decode s payload = .ok d := by
  have hd := hd.elim (fun hn => hn.depth_form_le h hp) id
  obtain ⟨payload, he⟩ := exists_encode hp c
  have hr := decode_encode h hp (holds_of_depth_le hp hd hf) he
  rw [hs.settled h] at hr
  exact ⟨payload, he, hr⟩

theorem profile_comes_back : ∃ payload,
    messagePack.encode (.record [("id", .int (-0x8000000000000000)), ("name", .text "Zoë"),
      ("tags", .list [.text "", .text "a"]), ("avatar", .list [.int 0, .int 255])]) = .ok payload ∧
    messagePack.decode Demo.profile payload =
      .ok (.record [("id", .int (-0x8000000000000000)), ("name", .text "Zoë"),
        ("tags", .list [.text "", .text "a"]), ("avatar", .list [.int 0, .int 255])]) := by
  have hs : Demo.profile.Faithful := .record (by
    simp only [List.forall_mem_cons, List.not_mem_nil, false_imp_iff, implies_true, and_true]
    exact ⟨.int _ _, .text, .list .text, .list (.int _ _)⟩)
  have hn : Demo.profile.Nests Json.Written.depthLimit := .record (by
    simp only [List.forall_mem_cons, List.not_mem_nil, false_imp_iff, implies_true, and_true]
    exact ⟨.int _ _ _, .text _, .list (.text _), .list (.int _ _ _)⟩)
  refine decode_encode_faithful .messagePack hs (.record (by decide) rfl ?has) (.record ?plain)
    (.inl hn) fun _ => ?fits
  case has =>
    intro k s d hk hd
    simp only [List.mem_cons, List.not_mem_nil, or_false, Prod.mk.injEq] at hk hd
    obtain ⟨rfl, rfl⟩ | ⟨rfl, rfl⟩ | ⟨rfl, rfl⟩ | ⟨rfl, rfl⟩ := hk <;> simp at hd <;> subst hd
    · exact .int (by decide) (by decide)
    · exact .text _
    · exact .list (by simp [Shape.Has.text])
    · refine .list (List.forall_mem_cons.mpr ⟨.int ?_ ?_, List.forall_mem_singleton.mpr ?_⟩)
      case refine_3 => exact .int (by decide) (by decide)
      all_goals decide
  case plain =>
    simp only [List.forall_mem_cons, List.not_mem_nil, false_imp_iff, implies_true, and_true]
    refine ⟨.int (by decide) (by decide), .text _, .list ?tags, .list ?avatar⟩
    case tags   => simp [Datum.Plain.text]
    case avatar => simp [Datum.Plain.int]
  case fits =>
    simp only [Datum.toItem, Datum.toEntries, Datum.toItems, Datum.key, MessagePack.Item.ofInt]
    simp [MessagePack.Item.Fits, MessagePack.FitsEntries, MessagePack.FitsItems]
    decide

end Codec
end CallFabric
