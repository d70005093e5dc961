import CallFabric.Proofs.Json.Covering
import CallFabric.Proofs.Shape.Reading

namespace CallFabric.Shape

open Json (Covers)

variable {s : Shape} {d : Datum}

theorem mapM_inv {α β : Type} {f : α → Option β} {ms : List (String × α)}
    {es : List (String × β)}
    (h : (ms.mapM fun m : String × α => (f m.2).map fun x => (m.1, x)) = some es) :
    Table.keys ms = Table.keys es ∧ ∀ k, (Table.get? k ms).bind f = Table.get? k es := by
  induction ms generalizing es
  case nil =>
    obtain rfl := Option.some.inj h
    exact ⟨rfl, fun _ => rfl⟩
  case cons m ms hi =>
    rw [List.mapM_cons] at h
    obtain ⟨e, he, h⟩ := Option.bind_eq_some_iff.mp h
    obtain ⟨x, hx, rfl⟩ := Option.map_eq_some_iff.mp he
    obtain ⟨rest, hr, h⟩ := Option.bind_eq_some_iff.mp h
    obtain rfl := Option.some.inj h
    obtain ⟨hk, hg⟩ := hi hr
    refine ⟨congrArg (m.1 :: ·) hk, fun k => ?_⟩
    rw [Table.get?, Table.get?]
    split
    case isTrue  => exact hx
    case isFalse => exact hg k

def members (es : List (String × Datum)) : List (String × Json) :=
  Json.sortedMembers [] (Datum.formMembers es)

theorem sorted_members (es : List (String × Datum)) : Table.Sorted (members es) :=
  Json.sorted_sortedMembers List.Pairwise.nil _

theorem exists_of_mem_members {es : List (String × Datum)} {k : String} {v : Json}
    (h : (k, v) ∈ members es) : ∃ d, (k, d) ∈ es ∧ v = d.form.sorted := by
  obtain hn | ⟨q, hq, he⟩ := Json.mem_sortedMembers h
  · cases hn
  · obtain ⟨e, hm, rfl⟩ := List.mem_map.mp hq
    obtain ⟨rfl, rfl⟩ := Prod.mk.inj he
    exact ⟨e.2, hm, rfl⟩

variable {ds es : List (String × Datum)}

theorem Has.form_record {fields : List (String × Shape)}
    (h : (Shape.record fields).Has (.record es)) :
    (Datum.record es).form = .obj (Datum.formMembers es) := by
  cases h with | record _ hk h =>
  refine Datum.form_eq (Datum.toJson?_map fun e hm => ?_)
  obtain ⟨s, hs⟩ := exists_field hk hm
  exact (h _ s _ hs hm).formed

-- Members cover others once they have their keys and every one covers the one below it, for which
-- it may be used what the two make together.
theorem covers_members (hn : (Table.keys ds).Nodup)
    (hk : ∀ k e, (k, e) ∈ es → k ∈ Table.keys ds)
    (hc : ∀ k d e, (k, d) ∈ ds → (k, e) ∈ es →
      Table.get? k (Json.overlayMembers (members es) (members ds)) =
        some (e.form.sorted.overlay d.form.sorted) →
      Covers d.form.sorted e.form.sorted) :
    Covers (.obj (members ds)) (.obj (members es)) := by
  refine .members (fun k low hm => ?_) fun k low up hm hg => ?_
  case refine_1 =>
    obtain ⟨e, he, -⟩ := exists_of_mem_members hm
    obtain ⟨d, hd⟩ := Table.mem_keys_iff.mp (hk k e he)
    exact Option.isSome_of_eq_some (Datum.get?_formMembers hn hd)
  case refine_2 =>
    have ho := Json.get?_overlay (sorted_members ds) (sorted_members es) hm hg
    obtain ⟨e, he, rfl⟩ := exists_of_mem_members hm
    obtain ⟨d, hd, rfl⟩ := exists_of_mem_members (Table.mem_of_get? hg)
    exact hc k d e hd he ho

theorem overlayMembers_single (k : String) (up low : Json) :
    Json.overlayMembers [(k, low)] [(k, up)] = [(k, low.overlay up)] := by
  simp [Json.overlayMembers, Table.get?, Table.insert]

-- Of two cases of a choice the lower one stays beside the upper.
theorem eq_of_ofJson?_choice {cases : List (String × Shape)} {name below : String} {up low : Json}
    {d : Datum} (h : ofJson? (.choice cases)
      (.obj (Json.overlayMembers [(below, low)] [(name, up)])) = some d) : below = name := by
  rcases Decidable.em (below = name) with heq | hne
  · exact heq
  rw [Json.overlayMembers_cons, Json.overlayMembers, Table.insert, if_neg hne] at h
  split at h <;> exact absurd h (by simp [ofJson?, Table.insert])

theorem covers_single {up low : Json} (k : String) (h : Covers up low) :
    Covers (.obj [(k, up)]) (.obj [(k, low)]) := by
  refine .members (fun l v hm => ?_) fun l v w hm hg => ?_
  case refine_1 =>
    obtain ⟨rfl, -⟩ := Prod.mk.inj (List.mem_singleton.mp hm)
    exact Option.isSome_of_eq_some (if_pos rfl)
  case refine_2 =>
    obtain ⟨rfl, rfl⟩ := Prod.mk.inj (List.mem_singleton.mp hm)
    obtain rfl : up = w := Option.some.inj ((if_pos rfl).symm.trans hg)
    exact h

-- The value is read back over another of the shape only if it covers it.
def CoversWhenRead (s : Shape) (d : Datum) : Prop :=
  ∀ e, s.Has e → s.ofJson? (e.form.sorted.overlay d.form.sorted) = some d →
    Covers d.form.sorted e.form.sorted

namespace CoversWhenRead

theorem map {value : Shape} (hs : Table.Sorted ds) (hp : (Datum.map ds).Plain)
    (h : ∀ p ∈ ds, CoversWhenRead value p.2) : CoversWhenRead (.map value) (.map ds) := by
  intro e he hr
  cases hp with | map hp =>
  cases he with | @map _ es hs' he =>
  rw [Datum.form_eq (Datum.toJson?_map fun e hm => (he e hm).formed),
    Datum.Plain.form_map hp] at hr ⊢
  obtain ⟨ds', hm, heq⟩ := Option.map_eq_some_iff.mp hr
  obtain rfl := (Datum.map.inj heq).symm
  obtain ⟨hk, hg⟩ := mapM_inv hm
  refine covers_members hs.nodup (fun k e hm => ?_) fun k d e hd hm ho => ?_
  case refine_1 =>
    have hl := Table.mem_keys_iff.mpr ⟨_, Table.mem_of_get? (Datum.get?_formMembers hs'.nodup hm)⟩
    exact hk ▸ Json.mem_keys_overlayMembers (sorted_members ds).nodup hl
  case refine_2 =>
    have hr := (congrArg (Option.bind · (ofJson? value)) ho).symm.trans (hg k)
    rw [Table.get?_of_mem hs.nodup hd] at hr
    exact h _ hd e (he _ hm) hr

theorem present (h : CoversWhenRead s d) : CoversWhenRead (.option s) (.present d) := by
  intro e he hr
  cases he
  case absent => exact .lower rfl
  case present e he =>
    have hv : e.form.sorted.overlay d.form.sorted ≠ .null := by
      intro hv
      exact absurd (hv ▸ hr : ofJson? (.option _) .null = _) (by simp [ofJson?])
    obtain ⟨d', hd, heq⟩ := Option.map_eq_some_iff.mp ((ofJson?_option hv).symm.trans hr)
    obtain rfl := Datum.present.inj heq
    exact h e he hd

theorem record {fields : List (String × Shape)} (hn : (Table.keys fields).Nodup)
    (hk : Table.keys ds = Table.keys fields) (hp : (Datum.record ds).Plain)
    (h : ∀ k s d, (k, s) ∈ fields → (k, d) ∈ ds → CoversWhenRead s d) :
    CoversWhenRead (.record fields) (.record ds) := by
  intro e he hr
  cases hp with | record hp =>
  cases he with | @record _ es hn' hk' he =>
  rw [Has.form_record (.record hn' hk' he), Datum.Plain.form_record hp] at hr ⊢
  obtain ⟨ds', hm, heq⟩ := Option.map_eq_some_iff.mp hr
  obtain rfl := (Datum.record.inj heq).symm
  have hm : fieldsBy ofJson? (Json.overlayMembers (members es) (members ds)) fields = some ds :=
    (fieldsOfJson?_eq fields _).symm.trans hm
  refine covers_members (hk ▸ hn) (fun k e hm => ?_) fun k d e hd he' ho => ?_
  case refine_1 => exact hk ▸ hk' ▸ Table.mem_keys_iff.mpr ⟨e, hm⟩
  case refine_2 =>
    obtain ⟨s, hs⟩ := Has.exists_field hk hd
    have hfb := fieldBy_of_fieldsBy hm hn hs hd
    rw [fieldBy_of_get? ho] at hfb
    exact h k s d hs hd e (he k s e hs he') hfb

theorem tagged {cases : List (String × Shape)} {name : String}
    (hc : Table.get? name cases = some s) (hu : s.isUnit = false)
    (hp : d.Plain) (h : CoversWhenRead s d) :
    CoversWhenRead (.choice cases) (.tagged name d) := by
  intro e he hr
  cases he with
  | tag _ => exact .lower rfl
  | @tagged _ below _ e hc' _ he =>
    rw [Datum.form_eq (Datum.toJson?_tagged below he.formed), Datum.Plain.form_tagged name hp]
      at hr ⊢
    obtain rfl := eq_of_ofJson?_choice hr
    obtain rfl := Option.some.inj (hc'.symm.trans hc)
    have ho := congrArg (ofJson? (.choice cases) ∘ Json.obj)
      (overlayMembers_single below d.form.sorted e.form.sorted)
    have hr := (caseOfJson?_eq hc hu _).symm.trans (ho.symm.trans hr)
    split at hr
    case isFalse => cases hr
    case isTrue  =>
      obtain ⟨d', hd, heq⟩ := Option.map_eq_some_iff.mp hr
      obtain rfl := ((Datum.tagged.inj heq).2).symm
      exact covers_single below (h e he hd)

end CoversWhenRead

theorem Has.coversWhenRead (h : s.Has d) (hp : d.Plain) : CoversWhenRead s d := by
  induction h
  case float   => cases hp
  case any hd  =>
    intro e he hr
    cases he with | any he =>
    refine (Json.overlay_eq_iff (Json.ordered_sorted _) (Json.ordered_sorted _)).mp ?_
    exact (Datum.json.inj (Option.some.inj hr)).trans (hd.sorted _).symm
  case list    =>
    cases hp with | list hp =>
    rw [CoversWhenRead, Datum.Plain.form_list hp]
    exact fun _ _ _ => .upper rfl
  case tuple   =>
    cases hp with | tuple hp =>
    rw [CoversWhenRead, Datum.Plain.form_tuple hp]
    exact fun _ _ _ => .upper rfl
  case map hs h hi =>
    cases hp with | map hp =>
    exact .map hs (.map hp) fun p hm => hi p hm (hp p hm)
  case present hi =>
    cases hp with | present hp =>
    exact (hi hp).present
  case record hn hk h hi =>
    cases hp with | record hp =>
    exact .record hn hk (.record hp) fun k s d hs hd => hi k s d hs hd (hp _ hd)
  case tagged hc hu h hi =>
    cases hp with | tagged _ hp =>
    exact .tagged hc hu hp (hi hp)
  all_goals exact fun _ _ _ => .upper rfl

-- No maps, no cases that carry anything and no JSON values, except in lists and tuples, which are
-- replaced as a whole.
inductive Rigid : Shape → Prop
  | unit : Rigid .unit
  | bool : Rigid .bool
  | int (least greatest : Int) : Rigid (.int least greatest)
  | text : Rigid .text
  | list (item : Shape) : Rigid (.list item)
  | tuple (parts : List Shape) : Rigid (.tuple parts)
  | option {value : Shape} (h : Rigid value) : Rigid (.option value)
  | record {fields : List (String × Shape)} (h : ∀ p ∈ fields, Rigid p.2) : Rigid (.record fields)
  | choice {cases : List (String × Shape)} (h : ∀ p ∈ cases, p.2 = .unit) : Rigid (.choice cases)

theorem Rigid.covers {e : Datum} (hs : s.Rigid) (h : s.Has d) (hp : d.Plain) (he : s.Has e) :
    Covers d.form.sorted e.form.sorted := by
  induction hs generalizing d e
  case list =>
    cases hp
    case list hp => exact .upper (by rw [Datum.Plain.form_list hp]; rfl)
    all_goals cases h
  case tuple =>
    cases hp
    case tuple hp => exact .upper (by rw [Datum.Plain.form_tuple hp]; rfl)
    all_goals cases h
  case option hi =>
    cases h with
    | absent => exact .upper rfl
    | @present _ d h =>
      cases hp with | present hp =>
      cases he with
      | absent          => exact .lower rfl
      | @present _ e he => exact @hi d e h hp he
  case record hi =>
    cases h with | record hn hk h =>
    cases hp with | record hp =>
    cases he with | record hn' hk' he =>
    rw [Has.form_record (.record hn' hk' he), Datum.Plain.form_record hp]
    refine covers_members (hk ▸ hn) (fun k e hm => ?_) fun k d e hd he' _ => ?_
    case refine_1 => exact hk ▸ hk' ▸ Table.mem_keys_iff.mpr ⟨e, hm⟩
    case refine_2 =>
      obtain ⟨s, hs⟩ := Has.exists_field hk hd
      exact hi _ hs (h k s d hs hd) (hp _ hd) (he k s e hs he')
  case choice hu =>
    cases h with
    | tag _ => exact .upper rfl
    | tagged hc hn _ =>
      obtain rfl := hu _ (Table.mem_of_get? hc)
      cases hn
  all_goals (cases h; exact .upper rfl)

end CallFabric.Shape
