import CallFabric.Proofs.Json.Reading
import CallFabric.Shape.OfJson

namespace CallFabric

namespace Shape

-- A map's keys ascend, a record has every field once and in order, and of a choice's cases with one
-- name the first counts.
inductive Has : Shape → Datum → Prop
  | unit : Has .unit .unit
  | bool (b : Bool) : Has .bool (.bool b)
  | int {least greatest i : Int} (hl : least ≤ i) (hg : i ≤ greatest) :
    Has (.int least greatest) (.int i)
  | float (x : Binary64) : Has .float (.float x)
  | text (s : String) : Has .text (.text s)
  | any {v : Json} (h : v.Canonical) : Has .any (.json v)
  | list {item : Shape} {ds : List Datum} (h : ∀ d ∈ ds, Has item d) : Has (.list item) (.list ds)
  | map {value : Shape} {es : List (String × Datum)} (hs : Table.Sorted es)
    (h : ∀ e ∈ es, Has value e.2) : Has (.map value) (.map es)
  | absent (value : Shape) : Has (.option value) .absent
  | present {value : Shape} {d : Datum} (h : Has value d) : Has (.option value) (.present d)
  | tuple {parts : List Shape} {ds : List Datum} (hl : parts.length = ds.length)
    (h : ∀ p ∈ parts.zip ds, Has p.1 p.2) : Has (.tuple parts) (.tuple ds)
  | record {fields : List (String × Shape)} {ds : List (String × Datum)}
    (hn : (Table.keys fields).Nodup) (hk : Table.keys ds = Table.keys fields)
    (h : ∀ k s d, (k, s) ∈ fields → (k, d) ∈ ds → Has s d) : Has (.record fields) (.record ds)
  | tag {cases : List (String × Shape)} {name : String} (hc : Table.get? name cases = some .unit) :
    Has (.choice cases) (.tag name)
  | tagged {cases : List (String × Shape)} {name : String} {s : Shape} {d : Datum}
    (hc : Table.get? name cases = some s) (hu : s.isUnit = false) (h : Has s d) :
    Has (.choice cases) (.tagged name d)

end Shape

namespace Datum

-- No floats, and integers that sixty-four bits hold, signed or not.
inductive Plain : Datum → Prop
  | unit : Plain .unit
  | bool (b : Bool) : Plain (.bool b)
  | int {i : Int} (hl : -0x8000000000000000 ≤ i) (hg : i < 0x10000000000000000) : Plain (.int i)
  | text (s : String) : Plain (.text s)
  | json {v : Json} (h : v.Plain) : Plain (.json v)
  | list {ds : List Datum} (h : ∀ d ∈ ds, Plain d) : Plain (.list ds)
  | map {es : List (String × Datum)} (h : ∀ e ∈ es, Plain e.2) : Plain (.map es)
  | absent : Plain .absent
  | present {d : Datum} (h : Plain d) : Plain (.present d)
  | tuple {ds : List Datum} (h : ∀ d ∈ ds, Plain d) : Plain (.tuple ds)
  | record {es : List (String × Datum)} (h : ∀ e ∈ es, Plain e.2) : Plain (.record es)
  | tag (name : String) : Plain (.tag name)
  | tagged (name : String) {d : Datum} (h : Plain d) : Plain (.tagged name d)

-- Written as what an absent option is written as.
def isNull : Datum → Bool
  | .unit | .absent | .json .null => true
  | .present d => d.isNull
  | _ => false

mutual

-- Present options that are written as absent ones become absent.
def settled : Datum → Datum
  | .list items => .list (settledItems items)
  | .tuple parts => .tuple (settledItems parts)
  | .map entries => .map (settledMembers entries)
  | .record fields => .record (settledMembers fields)
  | .present d => if d.isNull then .absent else .present d.settled
  | .tagged name d => .tagged name d.settled
  | d => d

def settledItems : List Datum → List Datum
  | [] => []
  | d :: ds => d.settled :: settledItems ds

def settledMembers : List (String × Datum) → List (String × Datum)
  | [] => []
  | (k, d) :: ds => (k, d.settled) :: settledMembers ds

end

theorem settledItems_eq_map (ds : List Datum) : settledItems ds = ds.map settled := by
  induction ds
  case nil          => rfl
  case cons d ds hi => rw [settledItems, hi, List.map_cons]

theorem settledMembers_eq_map (ds : List (String × Datum)) :
    settledMembers ds = ds.map fun e => (e.1, e.2.settled) := by
  induction ds
  case nil          => rfl
  case cons e ds hi => rw [settledMembers, hi, List.map_cons]

-- The JSON form; `null` stands for that of a value without one.
def form (d : Datum) : Json := d.toJson?.getD .null

def Formed (d : Datum) : Prop := d.toJson? = some d.form

variable {d : Datum} {v : Json} {ds : List Datum} {es : List (String × Datum)}

theorem form_eq (h : d.toJson? = some v) : d.form = v := by
  rw [form, h, Option.getD_some]

theorem formed_of_eq (h : d.toJson? = some v) : d.Formed :=
  h.trans (congrArg some (form_eq h).symm)

def formMembers (es : List (String × Datum)) : List (String × Json) :=
  es.map fun e => (e.1, e.2.form)

theorem toItems?_eq (h : ∀ d ∈ ds, d.Formed) : toItems? ds = some (ds.map form) := by
  induction ds
  case nil => rfl
  case cons d ds hi =>
    obtain ⟨hd : d.toJson? = _, hs⟩ := List.forall_mem_cons.mp h
    simp [toItems?, hd, hi hs]

theorem toMembers?_eq (h : ∀ e ∈ es, e.2.Formed) : toMembers? es = some (formMembers es) := by
  induction es
  case nil => rfl
  case cons e es hi =>
    obtain ⟨he : e.2.toJson? = _, hs⟩ := List.forall_mem_cons.mp h
    simp [toMembers?, he, hi hs, formMembers]

theorem toJson?_list (h : ∀ d ∈ ds, d.Formed) : (list ds).toJson? = some (.arr (ds.map form)) := by
  rw [toJson?, toItems?_eq h, Option.map_some]

theorem toJson?_map (h : ∀ e ∈ es, e.2.Formed) :
    (map es).toJson? = some (.obj (formMembers es)) := by
  rw [toJson?, toMembers?_eq h, Option.map_some]

theorem toJson?_tagged (name : String) (h : d.Formed) :
    (tagged name d).toJson? = some (.obj [(name, d.form)]) := by
  rw [toJson?, show d.toJson? = _ from h, Option.map_some]

namespace Plain

theorem formed (h : d.Plain) : d.Formed := by
  induction h
  case list hi                => exact formed_of_eq (toJson?_list hi)
  case tuple hi               => exact formed_of_eq (toJson?_list hi)
  case map hi                 => exact formed_of_eq (toJson?_map hi)
  case record hi              => exact formed_of_eq (toJson?_map hi)
  case present hi             => exact hi
  case tagged name _ _ hi     => exact formed_of_eq (toJson?_tagged name hi)
  all_goals exact formed_of_eq rfl

theorem form_list (h : ∀ d ∈ ds, d.Plain) : (Datum.list ds).form = Json.arr (ds.map Datum.form) :=
  form_eq (toJson?_list fun d hd => (h d hd).formed)

theorem form_tuple (h : ∀ d ∈ ds, d.Plain) : (Datum.tuple ds).form = Json.arr (ds.map Datum.form) :=
  form_list h

theorem form_map (h : ∀ e ∈ es, e.2.Plain) : (Datum.map es).form = Json.obj (formMembers es) :=
  form_eq (toJson?_map fun e he => (h e he).formed)

theorem form_record (h : ∀ e ∈ es, e.2.Plain) :
    (Datum.record es).form = Json.obj (formMembers es) :=
  form_map h

theorem form_tagged (name : String) (h : d.Plain) :
    (Datum.tagged name d).form = Json.obj [(name, d.form)] :=
  form_eq (toJson?_tagged name h.formed)

theorem plain_map_form (hi : ∀ d ∈ ds, d.form.Plain) : (Json.arr (ds.map Datum.form)).Plain :=
  Json.plainItems_iff.mpr (List.forall_mem_map.mpr hi)

theorem plain_formMembers (hi : ∀ e ∈ es, e.2.form.Plain) : (Json.obj (formMembers es)).Plain :=
  Json.plainMembers_iff.mpr (List.forall_mem_map.mpr hi)

theorem form (h : d.Plain) : d.form.Plain := by
  induction h
  case int hl hg          => exact ⟨hl, hg⟩
  case json h             => exact h
  case list h hi          => exact form_list h ▸ plain_map_form hi
  case tuple h hi         => exact form_tuple h ▸ plain_map_form hi
  case map h hi           => exact form_map h ▸ plain_formMembers hi
  case record h hi        => exact form_record h ▸ plain_formMembers hi
  case present hi         => exact hi
  case tagged name _ h hi => exact form_tagged name h ▸ ⟨hi, trivial⟩
  all_goals exact trivial

theorem isNull_iff (h : d.Plain) : d.isNull ↔ d.form = .null := by
  induction h
  case json v h           => cases v <;> simp [isNull, Datum.form, toJson?]
  case list h hi          => simp [isNull, form_list h]
  case tuple h hi         => simp [isNull, form_tuple h]
  case map h hi           => simp [isNull, form_map h]
  case record h hi        => simp [isNull, form_record h]
  case present hi         => exact hi
  case tagged name _ h hi => simp [isNull, form_tagged name h]
  all_goals simp [isNull, Datum.form, toJson?]

end Plain

end Datum

namespace Shape.Has

variable {s : Shape} {d : Datum}

-- Every part of a tuple has the shape at its place.
theorem exists_part {parts : List Shape} {ds : List Datum} (hl : parts.length = ds.length)
    (hd : d ∈ ds) : ∃ s, (s, d) ∈ parts.zip ds := by
  rw [← List.map_snd_zip (Nat.le_of_eq hl.symm)] at hd
  obtain ⟨p, hp, rfl⟩ := List.mem_map.mp hd
  exact ⟨p.1, hp⟩

-- Every field of a record has the shape under its name.
theorem exists_field {fields : List (String × Shape)} {ds : List (String × Datum)}
    (hk : Table.keys ds = Table.keys fields) {e : String × Datum} (he : e ∈ ds) :
    ∃ s, (e.1, s) ∈ fields :=
  Table.mem_keys_iff.mp (hk ▸ Table.mem_keys_iff.mpr ⟨e.2, he⟩)

theorem formed (h : s.Has d) : d.Formed := by
  induction h
  case list hi         => exact Datum.formed_of_eq (Datum.toJson?_list hi)
  case map hi          => exact Datum.formed_of_eq (Datum.toJson?_map hi)
  case present hi      => exact hi
  case tagged name _ _ _ _ _ hi => exact Datum.formed_of_eq (Datum.toJson?_tagged name hi)
  case tuple hl _ hi =>
    refine Datum.formed_of_eq (Datum.toJson?_list fun d hd => ?_)
    obtain ⟨s, hs⟩ := exists_part hl hd
    exact hi _ hs
  case record hk _ hi =>
    refine Datum.formed_of_eq (Datum.toJson?_map fun e he => ?_)
    obtain ⟨s, hs⟩ := exists_field hk he
    exact hi _ s _ hs he
  all_goals exact Datum.formed_of_eq rfl

end Shape.Has

end CallFabric
