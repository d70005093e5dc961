import CallFabric.Proofs.Json.Covering

namespace CallFabric.Json

-- A value contains another that is no object if it is the same, and an object if it has every
-- member of it, with a value that contains the other's.
inductive Contains : Json → Json → Prop
  | value {v : Json} (h : v.isObject = false) : Contains v v
  | members {vs ps : List (String × Json)}
    (hs : ∀ k p, (k, p) ∈ ps → (Table.get? k vs).isSome)
    (hc : ∀ k p v, (k, p) ∈ ps → Table.get? k vs = some v → Contains v p) :
    Contains (.obj vs) (.obj ps)

-- The value that a path of keys leads to, through objects.
def at? (v : Json) : List String → Option Json
  | []          => some v
  | key :: path => (v.member? key).bind (·.at? path)

variable {b p v : Json} {lows ups : List (String × Json)} {path : List String}

-- Values without repeated keys are in order on every path.
theorem Canonical.ordered (v : Json) (h : v.Canonical) : v.Ordered := by
  have ho := v.ordered_sorted
  rwa [Canonical.sorted v h] at ho

theorem ordered_of_get? {k : String} (h : ∀ q ∈ lows, q.2.Ordered)
    (hg : Table.get? k lows = some v) : v.Ordered :=
  h _ (Table.mem_of_get? hg)

theorem ordered_overlay (hb : b.Ordered) (hp : p.Ordered) : (b.overlay p).Ordered := by
  induction hp generalizing b
  case value h => exact (overlay_eq_of_not_object h b).symm ▸ .value h
  case members ups hs h hi =>
    cases hb
    case value hb => exact (overlay_over hb _).symm ▸ .members hs h
    case members lows hls hl =>
      have ho := sorted_overlayMembers hls ups
      refine .members ho fun ⟨k, v⟩ hm => ?_
      have hg := Table.get?_of_mem ho.nodup hm
      rw [get?_overlayMembers lows hs.nodup] at hg
      cases hu : Table.get? k ups <;> rw [hu] at hg
      case none => exact ordered_of_get? hl hg
      case some up =>
        obtain rfl := Option.some.inj hg
        cases hk : Table.get? k lows
        case none     => exact ordered_of_get? h hu
        case some low => exact hi _ (Table.mem_of_get? hu) (ordered_of_get? hl hk)

theorem Ordered.contains (h : v.Ordered) : v.Contains v := by
  induction h
  case value h => exact .value h
  case members hs _ hi =>
    refine .members (fun k p hm => ?_) fun k p v hm hg => ?_
    case refine_1 => rw [Table.get?_of_mem hs.nodup hm]; rfl
    case refine_2 =>
      rw [Table.get?_of_mem hs.nodup hm] at hg
      exact Option.some.inj hg ▸ hi _ hm

theorem contains_overlay (hp : p.Ordered) (b : Json) : (b.overlay p).Contains p := by
  induction hp generalizing b
  case value h => exact (overlay_eq_of_not_object h b).symm ▸ .value h
  case members ups hs h hi =>
    cases b
    case obj lows =>
      have hg (k : String) (up : Json) (hm : (k, up) ∈ ups) :
          Table.get? k (overlayMembers lows ups) = some (laidOver up (Table.get? k lows)) := by
        rw [get?_overlayMembers lows hs.nodup, Table.get?_of_mem hs.nodup hm]
        rfl
      refine .members (fun k up hm => ?_) fun k up v hm hv => ?_
      case refine_1 => rw [hg k up hm]; rfl
      case refine_2 =>
        obtain rfl := Option.some.inj ((hg k up hm).symm.trans hv)
        cases Table.get? k lows
        case none     => exact (h _ hm).contains
        case some low => exact hi _ hm low
    all_goals exact (Ordered.members hs h).contains

theorem Contains.overlay_eq (hb : b.Ordered) (hp : p.Ordered) (hc : b.Contains p) :
    b.overlay p = b := by
  induction hb generalizing p
  case value h =>
    cases hc
    case value   => exact overlay_over h _
    case members => cases h
  case members lows hls hl hi =>
    cases hc
    case value h => cases h
    case members ups hs hc =>
      cases hp
      case value h => cases h
      case members hus hu =>
        refine congrArg obj ((sorted_overlayMembers hls ups).ext hls fun k => ?_)
        rw [get?_overlayMembers lows hus.nodup]
        cases hg : Table.get? k ups
        case none => rfl
        case some up =>
          have hm := Table.mem_of_get? hg
          obtain ⟨low, hlow⟩ := Option.isSome_iff_exists.mp (hs k up hm)
          have he : low.overlay up = low :=
            hi _ (Table.mem_of_get? hlow) (ordered_of_get? hu hg) (hc k up low hm hlow)
          rw [hlow]
          exact congrArg some he

theorem mem_keys_overlayMembers_iff (hn : (Table.keys ups).Nodup) {k : String} :
    k ∈ Table.keys (overlayMembers lows ups) ↔ k ∈ Table.keys lows ∨ k ∈ Table.keys ups := by
  have hg := get?_overlayMembers lows hn k
  rw [Table.mem_keys_iff_isSome, Table.mem_keys_iff_isSome, Table.mem_keys_iff_isSome, hg]
  cases Table.get? k ups <;> simp

theorem get?_overlayMembers_of_not_mem (hn : (Table.keys ups).Nodup) {k : String}
    (hk : k ∉ Table.keys ups) : Table.get? k (overlayMembers lows ups) = Table.get? k lows := by
  rw [get?_overlayMembers lows hn, Table.get?_eq_none hk]
  rfl

theorem exists_of_member? {k : String} (h : b.member? k = some v) :
    ∃ ms, b = .obj ms ∧ Table.get? k ms = some v := by
  cases b
  case obj ms => exact ⟨ms, rfl, h⟩
  all_goals cases h

theorem Ordered.at? (h : v.Ordered) (hv : v.at? path = some b) : b.Ordered := by
  induction path generalizing v
  case nil => exact Option.some.inj hv ▸ h
  case cons k path hi =>
    obtain ⟨w, hw, hpath⟩ := Option.bind_eq_some_iff.mp hv
    obtain ⟨ms, rfl, hg⟩ := exists_of_member? hw
    cases h
    case value h      => cases h
    case members _ hm => exact hi (ordered_of_get? hm hg) hpath

-- At a path that both values have the result is what their values there make.
theorem at?_overlay {low up : Json} (hp : p.Ordered) (hb : b.at? path = some low)
    (hu : p.at? path = some up) : (b.overlay p).at? path = some (low.overlay up) := by
  induction path generalizing b p
  case nil =>
    obtain rfl := Option.some.inj hb
    obtain rfl := Option.some.inj hu
    rfl
  case cons k path hi =>
    obtain ⟨b', hb', hlow⟩ := Option.bind_eq_some_iff.mp hb
    obtain ⟨p', hp', hup⟩ := Option.bind_eq_some_iff.mp hu
    obtain ⟨lows, rfl, hl⟩ := exists_of_member? hb'
    obtain ⟨ups, rfl, hg⟩ := exists_of_member? hp'
    cases hp
    case value h => cases h
    case members hs h =>
      have hm : (Json.overlay (.obj lows) (.obj ups)).member? k = some (b'.overlay p') := by
        rw [Json.overlay, member?, get?_overlayMembers lows hs.nodup, hg, hl]
        rfl
      rw [Json.at?, hm, Option.bind_some]
      exact hi (ordered_of_get? h hg) hlow hup

-- What is laid over a value is contained in the result, and the result is that value exactly if it
-- contained the other before; so laying a value over itself changes nothing, nor does laying it
-- over a second time. Wherever a path leads to objects in both, the result has there the keys of
-- the two and no others, and under a key that the upper one lacks what the lower one had.
theorem overlay_joins (hb : b.Ordered) (hp : p.Ordered) :
    (b.overlay p).Contains p ∧ (b.overlay p = b ↔ b.Contains p) ∧
    b.overlay b = b ∧ (b.overlay p).overlay p = b.overlay p ∧
    ∀ path lows ups, b.at? path = some (.obj lows) → p.at? path = some (.obj ups) →
      ∃ ms, (b.overlay p).at? path = some (.obj ms) ∧ (Table.keys ms).Nodup ∧
        (∀ k, k ∈ Table.keys ms ↔ k ∈ Table.keys lows ∨ k ∈ Table.keys ups) ∧
        ∀ k, k ∉ Table.keys ups → Table.get? k ms = Table.get? k lows := by
  have hm := contains_overlay hp b
  refine ⟨hm, ⟨fun h => h ▸ hm, Contains.overlay_eq hb hp⟩, hb.contains.overlay_eq hb hb,
    hm.overlay_eq (ordered_overlay hb hp) hp, fun path lows ups hl hu => ?_⟩
  have hls : Table.Sorted lows := by
    cases hb.at? hl
    case value h      => cases h
    case members hs _ => exact hs
  have hus : Table.Sorted ups := by
    cases hp.at? hu
    case value h      => cases h
    case members hs _ => exact hs
  exact ⟨_, at?_overlay hp hl hu, (sorted_overlayMembers hls ups).nodup,
    fun k => mem_keys_overlayMembers_iff hus.nodup,
    fun k => get?_overlayMembers_of_not_mem hus.nodup⟩

-- An object two levels deep, with one member replaced by an object, one added and two kept.
theorem overlay_joins_nested :
    let b := Json.obj [("a", .obj [("x", .int 1), ("y", .int 2)]), ("b", .null)]
    let p := Json.obj [("a", .obj [("y", .obj [("z", .null)])]), ("c", .int 3)]
    let m := Json.obj [("a", .obj [("x", .int 1), ("y", .obj [("z", .null)])]), ("b", .null),
      ("c", .int 3)]
    b.Ordered ∧ p.Ordered ∧ b.overlay p = m ∧ m.Contains p ∧ ¬ b.Contains p ∧
      m.overlay p = m ∧ ∃ ms, m.at? ["a"] = some (.obj ms) ∧ Table.get? "x" ms = some (.int 1) := by
  intro b p m
  have hb : b.Ordered := Canonical.ordered b (by
    simp only [b, Canonical, CanonicalMembers]
    decide)
  have hp : p.Ordered := Canonical.ordered p (by
    simp only [p, Canonical, CanonicalMembers]
    decide)
  have hm : b.overlay p = m := by decide +kernel
  obtain ⟨hc, hs, -, hr, ha⟩ := overlay_joins hb hp
  obtain ⟨ms, hat, -, -, hk⟩ := ha ["a"] _ _ rfl rfl
  rw [hm] at hc hs hr hat
  refine ⟨hb, hp, hm, hc, fun h => absurd (hs.mpr h) (by decide), hr, ms, hat, ?_⟩
  exact hk "x" (by decide)

end CallFabric.Json
