import CallFabric.Proofs.Shape.Assembly

namespace CallFabric

namespace Datum

variable {ds : List Datum} {es : List (String × Datum)}

theorem sorted_map_form (ds : List Datum) :
    (Json.arr (ds.map form)).sorted = .arr (ds.map fun d => d.form.sorted) := by
  rw [Json.sorted, Json.sortedItems_eq_map, List.map_map]
  rfl

theorem keys_formMembers (es : List (String × Datum)) :
    Table.keys (formMembers es) = Table.keys es :=
  Table.keys_map form es

theorem sorted_formMembers (h : Table.Sorted es) :
    (Json.obj (formMembers es)).sorted = .obj (es.map fun e => (e.1, e.2.form.sorted)) := by
  rw [formMembers, Json.sorted_obj_of_sorted (h.map form), List.map_map]
  rfl

theorem get?_formMembers (hn : (Table.keys es).Nodup) {k : String} {d : Datum} (h : (k, d) ∈ es) :
    Table.get? k (Json.sortedMembers [] (formMembers es)) = some d.form.sorted := by
  rw [Json.get?_sortedMembers ((keys_formMembers es).symm ▸ hn), formMembers, Table.get?_map,
    Table.get?_of_mem hn h]
  rfl

theorem sorted_eq_null {v : Json} : v.sorted = .null ↔ v = .null := by
  cases v <;> simp [Json.sorted]

end Datum

namespace Shape

variable {s : Shape} {d : Datum} {ds : List Datum} {es : List (String × Datum)}

-- How a form is written, and how a value of a shape is read where so many containers may be nested.
structure Format (α : Type) where
  write : Json → α
  read  : Nat → Shape → α → Option Datum

namespace Format

-- The value is read back, settled, with room for `n` nested containers.
def Returns {α : Type} (f : Format α) (n : Nat) (s : Shape) (d : Datum) : Prop :=
  f.read n s (f.write d.form) = some d.settled

-- One law for each kind of shape: a value is read back if its parts are.
structure Lawful {α : Type} (f : Format α) : Prop where
  unit    : ∀ n, f.Returns n .unit .unit
  bool    : ∀ n b, f.Returns n .bool (.bool b)
  int     : ∀ n {least greatest i : Int}, least ≤ i → i ≤ greatest → (Datum.int i).Plain →
    f.Returns n (.int least greatest) (.int i)
  text    : ∀ n s, f.Returns n .text (.text s)
  any     : ∀ n {v : Json}, v.Canonical → v.Plain → v.depth ≤ n → f.Returns n .any (.json v)
  null    : ∀ n s, f.read n (.option s) (f.write .null) = some .absent
  present : ∀ n s {v : Json}, v.Plain → v ≠ .null →
    f.read n (.option s) (f.write v) = (f.read n s (f.write v)).map .present
  list    : ∀ n {item : Shape} {ds : List Datum}, (Datum.list ds).Plain →
    (∀ d ∈ ds, f.Returns n item d) → f.Returns (n + 1) (.list item) (.list ds)
  map     : ∀ n {value : Shape} {es : List (String × Datum)}, Table.Sorted es →
    (Datum.map es).Plain → (∀ e ∈ es, f.Returns n value e.2) →
    f.Returns (n + 1) (.map value) (.map es)
  tuple   : ∀ n {parts : List Shape} {ds : List Datum}, parts.length = ds.length →
    (Datum.tuple ds).Plain → (∀ p ∈ parts.zip ds, f.Returns n p.1 p.2) →
    f.Returns (n + 1) (.tuple parts) (.tuple ds)
  record  : ∀ n {fields : List (String × Shape)} {ds : List (String × Datum)},
    (Table.keys fields).Nodup → Table.keys ds = Table.keys fields → (Datum.record ds).Plain →
    (∀ k s d, (k, s) ∈ fields → (k, d) ∈ ds → f.Returns n s d) →
    f.Returns (n + 1) (.record fields) (.record ds)
  tag     : ∀ n {cases : List (String × Shape)} {name : String},
    Table.get? name cases = some .unit → f.Returns n (.choice cases) (.tag name)
  tagged  : ∀ n {cases : List (String × Shape)} {name : String} {s : Shape} {d : Datum},
    Table.get? name cases = some s → s.isUnit = false → s.Has d → d.Plain → f.Returns n s d →
    f.Returns (n + 1) (.choice cases) (.tagged name d)

theorem Lawful.returns {α : Type} {f : Format α} (hf : f.Lawful) (h : s.Has d) (hp : d.Plain)
    (n : Nat) (hd : d.form.depth ≤ n) : f.Returns n s d := by
  induction h generalizing n
  case unit      => exact hf.unit n
  case bool b    => exact hf.bool n b
  case int hl hg => exact hf.int n hl hg hp
  case float     => cases hp
  case text s    => exact hf.text n s
  case any h     => cases hp with | json hp => exact hf.any n h hp hd
  case absent s  => exact hf.null n s
  case tag hc    => exact hf.tag n hc
  case present s d h hi =>
    cases hp with | present hp =>
    cases hn : d.isNull
    case true =>
      have hv : (Datum.present d).form = .null := hp.isNull_iff.mp hn
      rw [Returns, hv, hf.null, Datum.settled, if_pos hn]
    case false =>
      have hv : d.form ≠ .null := fun hv => Bool.eq_false_iff.mp hn (hp.isNull_iff.mpr hv)
      have hr := hf.present n s hp.form hv
      rw [show f.read n s _ = _ from hi hp n hd] at hr
      exact hr.trans (by rw [Datum.settled, hn]; rfl)
  case list h hi =>
    cases hp with | list hp =>
    rw [Datum.Plain.form_list hp] at hd
    obtain ⟨n, rfl, hn⟩ := Json.exists_of_depth_arr_le hd
    exact hf.list n (.list hp) fun d hd => hi d hd (hp d hd) n (hn _ (List.mem_map_of_mem hd))
  case map hs h hi =>
    cases hp with | map hp =>
    rw [Datum.Plain.form_map hp] at hd
    obtain ⟨n, rfl, hn⟩ := Json.exists_of_depth_obj_le hd
    exact hf.map n hs (.map hp) fun e he =>
      hi e he (hp e he) n (hn (e.1, e.2.form) (List.mem_map_of_mem he))
  case tuple hl h hi =>
    cases hp with | tuple hp =>
    rw [Datum.Plain.form_tuple hp] at hd
    obtain ⟨n, rfl, hn⟩ := Json.exists_of_depth_arr_le hd
    refine hf.tuple n hl (.tuple hp) fun p hm => ?_
    have hd := (List.of_mem_zip hm).2
    exact hi p hm (hp _ hd) n (hn _ (List.mem_map_of_mem hd))
  case record hk hks h hi =>
    cases hp with | record hp =>
    rw [Datum.Plain.form_record hp] at hd
    obtain ⟨n, rfl, hn⟩ := Json.exists_of_depth_obj_le hd
    exact hf.record n hk hks (.record hp) fun k s d hs hd =>
      hi k s d hs hd (hp _ hd) n (hn (k, d.form) (List.mem_map_of_mem hd))
  case tagged hc hu h hi =>
    cases hp with | tagged _ hp =>
    rw [Datum.Plain.form_tagged _ hp] at hd
    obtain ⟨n, rfl, hn⟩ := Json.exists_of_depth_obj_le hd
    exact hf.tagged n hc hu h hp (hi hp n (hn _ List.mem_cons_self))

end Format

theorem ofJson?_option {v : Json} (h : v ≠ .null) :
    ofJson? (.option s) v = (ofJson? s v).map .present := by
  cases v
  case null => exact absurd rfl h
  all_goals rfl

-- Only a record and a tuple have a form to keep.
theorem Has.payloadForm (h : s.Has d) (hp : d.Plain) : payloadForm s d.form.sorted := by
  cases h
  case tuple  => cases hp with | tuple hp => rw [Datum.Plain.form_tuple hp]; rfl
  case record => cases hp with | record hp => rw [Datum.Plain.form_record hp]; rfl
  all_goals rfl

def Format.json : Format Json := ⟨Json.sorted, fun _ => ofJson?⟩

theorem Format.lawful_json : Format.json.Lawful where
  unit _     := rfl
  bool _ _   := rfl
  text _ _   := rfl
  null _ _   := rfl
  tag _ _ _  := bareCase?_eq
  int _ _ _ _ hl hg _ := if_pos ⟨hl, hg⟩
  any _ _ hc _ _ := congrArg (some ∘ Datum.json) (hc.sorted _)
  present _ _ _ _ hv := ofJson?_option (mt Datum.sorted_eq_null.mp hv)
  list _ item ds hp h := by
    cases hp with | list hp =>
    have hm : ∀ d ∈ ds, ofJson? item d.form.sorted = some d.settled := h
    show ofJson? (.list item) (Datum.list ds).form.sorted = _
    rw [Datum.Plain.form_list hp, Datum.sorted_map_form, ofJson?, mapM_map hm, Option.map_some,
      Datum.settled, Datum.settledItems_eq_map]
  map _ value es hs hp h := by
    cases hp with | map hp =>
    have hm : ∀ e ∈ es, (ofJson? value e.2.form.sorted).map (fun d => (e.1, d)) =
        some (e.1, e.2.settled) := fun e he => congrArg (Option.map _) (h e he)
    show ofJson? (.map value) (Datum.map es).form.sorted = _
    rw [Datum.Plain.form_map hp, Datum.sorted_formMembers hs, ofJson?, mapM_map hm,
      Option.map_some, Datum.settled, Datum.settledMembers_eq_map]
  tuple _ parts ds hl hp h := by
    cases hp with | tuple hp =>
    have hm : ∀ p ∈ parts.zip ds, ofJson? p.1 p.2.form.sorted = some p.2.settled := h
    show ofJson? (.tuple parts) (Datum.tuple ds).form.sorted = _
    rw [Datum.Plain.form_tuple hp, Datum.sorted_map_form, ofJson?, partsOfJson?_eq,
      partsBy_map (f := fun d => d.form.sorted) hl hm, Option.map_some, Datum.settled,
      Datum.settledItems_eq_map]
  record _ fields ds hn hk hp h := by
    cases hp with | record hp =>
    have hm : ∀ k s d, (k, s) ∈ fields → (k, d) ∈ ds →
        fieldBy ofJson? (Json.sortedMembers [] (Datum.formMembers ds)) k s = some d.settled := by
      intro k s d hf hd
      rw [fieldBy_of_get? (Datum.get?_formMembers (hk ▸ hn) hd)]
      exact h k s d hf hd
    show ofJson? (.record fields) (Datum.record ds).form.sorted = _
    rw [Datum.Plain.form_record hp, Json.sorted, ofJson?, fieldsOfJson?_eq, fieldsBy_map hk hm,
      Option.map_some, Datum.settled, Datum.settledMembers_eq_map]
  tagged _ cases name _ d hc hu hd hp h := by
    show ofJson? (.choice cases) (Datum.tagged name d).form.sorted = _
    rw [Datum.Plain.form_tagged name hp]
    refine (caseOfJson?_eq hc hu _).trans ?_
    rw [if_pos (hd.payloadForm hp)]
    exact congrArg (Option.map _) h

theorem Has.ofJson?_form (h : s.Has d) (hp : d.Plain) :
    s.ofJson? d.form.sorted = some d.settled :=
  Format.lawful_json.returns h hp _ (Nat.le_refl _)

open Json (Written escaped)

theorem textKeys?_map (f : Datum → Written) (es : List (String × Datum)) :
    textKeys? (es.map fun e => (escaped e.1, f e.2)) = some (es.map fun e => (e.1, f e.2)) :=
  mapM_map fun e _ => congrArg (Option.map _) (Json.Written.text?_escaped e.1)

theorem distinctFields_of_nodup {α : Type} {members : List (String × α)}
    (h : (Table.keys members).Nodup) (fields : List (String × Shape)) :
    distinctFields fields members := by
  refine List.all_eq_true.mpr fun p _ => decide_eq_true ?_
  have hc := List.nodup_iff_count.mp h p.1
  rw [Table.keys, List.count, List.countP_map, List.countP_eq_length_filter] at hc
  exact hc

theorem ofWritten?_option {depth : Nat} {w : Written} (h : w ≠ .null) :
    ofWritten? (.option s) depth w = (ofWritten? s depth w).map .present := by
  cases w
  case null => exact absurd rfl h
  all_goals rfl

theorem written_map_form (ds : List Datum) :
    (Json.arr (ds.map Datum.form)).written = .array (ds.map fun d => d.form.written) := by
  rw [Json.written, Json.writtenItems_eq_map, List.map_map]
  rfl

theorem written_formMembers (es : List (String × Datum)) :
    (Json.obj (Datum.formMembers es)).written =
      .object (es.map fun e => (escaped e.1, e.2.form.written)) := by
  rw [Json.written, Json.writtenMembers_eq_map, Datum.formMembers, List.map_map]
  rfl

theorem written_eq_null {v : Json} (h : v.Plain) : v.written = .null ↔ v = .null := by
  cases v <;> simp_all [Json.written, Json.Plain]

def Format.text : Format Written := ⟨Json.written, fun n s => s.ofWritten? n⟩

theorem Format.lawful_text : Format.text.Lawful where
  unit _     := rfl
  bool _ _   := rfl
  null _ _   := rfl
  text _ s   := congrArg (Option.map _) (Json.Written.text?_escaped s)
  tag _ _ _ hc :=
    (congrArg (Option.bind · _) (Json.Written.text?_escaped _)).trans (bareCase?_eq hc)
  int n least greatest i hl hg hp := by
    cases hp with | int hp₁ hp₂ =>
    have hw : (Datum.int i).form.written = .number (Json.numeral i) := rfl
    show ofWritten? (.int least greatest) n (Datum.int i).form.written = _
    simp [hw, ofWritten?, Json.value?_numeral hp₁ hp₂, intIn?, hl, hg, Datum.settled]
  any n _ hc hp hd :=
    congrArg (Option.map _) ((Json.toJson?_written _ hp n hd).trans (congrArg some (hc.sorted _)))
  present _ _ _ hp hv := ofWritten?_option (mt (written_eq_null hp).mp hv)
  list n item ds hp h := by
    cases hp with | list hp =>
    have hm : ∀ d ∈ ds, ofWritten? item n d.form.written = some d.settled := h
    show ofWritten? (.list item) (n + 1) (Datum.list ds).form.written = _
    rw [Datum.Plain.form_list hp, written_map_form, ofWritten?, mapM_map hm, Option.map_some,
      Datum.settled, Datum.settledItems_eq_map]
  map n value es hs hp h := by
    cases hp with | map hp =>
    have hm : ∀ e ∈ es, ofWritten? value n e.2.form.written = some e.2.settled := h
    show ofWritten? (.map value) (n + 1) (Datum.map es).form.written = _
    rw [Datum.Plain.form_map hp, written_formMembers, ofWritten?,
      mapM_map (k := fun e => (e.1, e.2.settled)) fun e he => by
        simp [Json.Written.text?_escaped, hm e he],
      Option.map_some, Table.ofList_of_sorted (hs.map _), Datum.settled,
      Datum.settledMembers_eq_map]
  tuple n parts ds hl hp h := by
    cases hp with | tuple hp =>
    have hm : ∀ p ∈ parts.zip ds, ofWritten? p.1 n p.2.form.written = some p.2.settled := h
    show ofWritten? (.tuple parts) (n + 1) (Datum.tuple ds).form.written = _
    rw [Datum.Plain.form_tuple hp, written_map_form, ofWritten?, partsOfWritten?_eq,
      partsBy_map (f := fun d => d.form.written) hl hm, Option.map_some, Datum.settled,
      Datum.settledItems_eq_map]
  record n fields ds hn hk hp h := by
    cases hp with | record hp =>
    have hu : (Table.keys ds).Nodup := hk ▸ hn
    have hm : ∀ k s d, (k, s) ∈ fields → (k, d) ∈ ds → fieldBy (ofWritten? · n)
        (ds.map fun e => (e.1, e.2.form.written)) k s = some d.settled := by
      intro k s d hf hd
      rw [fieldBy_of_get? (Table.get?_map_of_mem hu hd fun d => d.form.written)]
      exact h k s d hf hd
    have hf : distinctFields fields (ds.map fun e => (e.1, e.2.form.written)) :=
      distinctFields_of_nodup ((Table.keys_map (fun d => d.form.written) ds).symm ▸ hu) fields
    show ofWritten? (.record fields) (n + 1) (Datum.record ds).form.written = _
    rw [Datum.Plain.form_record hp, written_formMembers, ofWritten?,
      textKeys?_map fun d => d.form.written]
    simp only [hf, if_true]
    rw [fieldsOfWritten?_eq, fieldsBy_map hk hm, Option.map_some, Datum.settled,
      Datum.settledMembers_eq_map]
  tagged n cases name s d hc hu _ hp h := by
    have hr : ofWritten? s n d.form.written = some d.settled := h
    show ofWritten? (.choice cases) (n + 1) (Datum.tagged name d).form.written = _
    simp [Datum.Plain.form_tagged name hp, Json.written, Json.writtenMembers, ofWritten?,
      Json.Written.text?_escaped, caseOfWritten?_eq hc hu, hr, Datum.settled]

theorem Has.ofWritten?_form (h : s.Has d) (hp : d.Plain) (depth : Nat)
    (hd : d.form.depth ≤ depth) : s.ofWritten? depth d.form.written = some d.settled :=
  Format.lawful_text.returns h hp depth hd

end Shape
end CallFabric
