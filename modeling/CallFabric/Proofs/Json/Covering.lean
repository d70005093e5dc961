import CallFabric.Json.Overlay
import CallFabric.Proofs.Json.Order

namespace CallFabric.Json

-- Objects that stand in objects alone have their members in order.
inductive Ordered : Json → Prop
  | value {v : Json} (h : v.isObject = false) : Ordered v
  | members {ms : List (String × Json)} (hs : Table.Sorted ms) (h : ∀ p ∈ ms, Ordered p.2) :
    Ordered (.obj ms)

-- What the upper value lacks of the lower one's members, on any path of objects: nothing.
inductive Covers : Json → Json → Prop
  | upper {upper lower : Json} (h : upper.isObject = false) : Covers upper lower
  | lower {upper lower : Json} (h : lower.isObject = false) : Covers upper lower
  | members {ups lows : List (String × Json)}
    (hs : ∀ k low, (k, low) ∈ lows → (Table.get? k ups).isSome)
    (hc : ∀ k low up, (k, low) ∈ lows → Table.get? k ups = some up → Covers up low) :
    Covers (.obj ups) (.obj lows)

variable {ms ups lows : List (String × Json)}

theorem mem_sortedMembers {seen : List (String × Json)} {p : String × Json}
    (h : p ∈ sortedMembers seen ms) : p ∈ seen ∨ ∃ q ∈ ms, p = (q.1, q.2.sorted) := by
  induction ms generalizing seen
  case nil => exact .inl h
  case cons q ms hi =>
    obtain hp | ⟨r, hr, hp⟩ := hi h
    · obtain hp | hp := Table.eq_or_mem_of_mem_insert hp
      · exact .inr ⟨q, List.mem_cons_self, hp⟩
      · exact .inl hp
    · exact .inr ⟨r, List.mem_cons_of_mem _ hr, hp⟩

theorem ordered_sorted (v : Json) : v.sorted.Ordered := by
  induction v using Json.induct
  case obj ms hi =>
    refine .members (sorted_sortedMembers (List.Pairwise.nil) ms) fun p hp => ?_
    obtain hp | ⟨q, hq, rfl⟩ := mem_sortedMembers hp
    · cases hp
    · exact hi q hq
  all_goals exact .value rfl

-- A member laid over the one that stands under its key, if any does.
def laidOver (up : Json) (low : Option Json) : Json :=
  low.elim up fun low => low.overlay up

theorem overlayMembers_cons (k : String) (up : Json) (ups lows : List (String × Json)) :
    overlayMembers lows ((k, up) :: ups) =
      overlayMembers (Table.insert k (laidOver up (Table.get? k lows)) lows) ups := by
  rw [overlayMembers]
  cases Table.get? k lows <;> rfl

theorem sorted_overlayMembers (h : Table.Sorted lows) (ups : List (String × Json)) :
    Table.Sorted (overlayMembers lows ups) := by
  induction ups generalizing lows
  case nil           => exact h
  case cons p ups hi =>
    rw [overlayMembers_cons]
    exact hi (h.insert _ _)

theorem get?_overlayMembers (lows : List (String × Json)) (hn : (Table.keys ups).Nodup)
    (key : String) :
    Table.get? key (overlayMembers lows ups) =
      (Table.get? key ups).elim (Table.get? key lows) fun up =>
        some (laidOver up (Table.get? key lows)) := by
  induction ups generalizing lows
  case nil => rfl
  case cons p ups hi =>
    obtain ⟨k, up⟩ := p
    obtain ⟨hk, hn⟩ := List.nodup_cons.mp hn
    rw [overlayMembers_cons, hi _ hn, Table.get?_insert, Table.get?]
    rcases Decidable.em (k = key) with rfl | hne
    · simp [Table.get?_eq_none hk]
    · simp [hne]

theorem mem_keys_overlayMembers {k : String} (hn : (Table.keys ups).Nodup)
    (h : k ∈ Table.keys lows) : k ∈ Table.keys (overlayMembers lows ups) := by
  have hg := get?_overlayMembers lows hn k
  cases hu : Table.get? k ups
  case some up =>
    rw [hu] at hg
    exact Table.mem_keys_iff.mpr ⟨_, Table.mem_of_get? hg⟩
  case none =>
    rw [hu, Option.elim_none] at hg
    cases hl : Table.get? k lows
    case none     => exact absurd h (Table.not_mem_of_get? hl)
    case some low => exact Table.mem_keys_iff.mpr ⟨low, Table.mem_of_get? (hg.trans hl)⟩

theorem overlay_eq_of_not_object {up : Json} (h : up.isObject = false) (low : Json) :
    low.overlay up = up := by
  cases up
  case obj => cases h
  all_goals rfl

theorem overlay_over {low : Json} (h : low.isObject = false) (up : Json) : low.overlay up = up := by
  cases up
  case obj =>
    cases low
    case obj => cases h
    all_goals rfl
  all_goals rfl

theorem get?_overlay {k : String} {up low : Json} (hu : Table.Sorted ups) (hl : Table.Sorted lows)
    (hm : (k, low) ∈ lows) (hg : Table.get? k ups = some up) :
    Table.get? k (overlayMembers lows ups) = some (low.overlay up) := by
  rw [get?_overlayMembers lows hu.nodup, hg, Table.get?_of_mem hl.nodup hm]
  rfl

-- An upper value stays as it is over exactly those that it covers.
theorem overlay_eq_iff {up low : Json} (hu : up.Ordered) (hl : low.Ordered) :
    low.overlay up = up ↔ Covers up low := by
  induction hu generalizing low
  case value h => exact ⟨fun _ => .upper h, fun _ => overlay_eq_of_not_object h low⟩
  case members ups hs h hi =>
    cases hl
    case value h => exact ⟨fun _ => .lower h, fun _ => overlay_over h _⟩
    case members lows hls hl =>
      constructor
      case mp =>
        intro he
        have he : overlayMembers lows ups = ups := obj.inj he
        refine .members (fun k low hk => ?_) fun k low up hk hg => ?_
        case refine_1 =>
          have hg := get?_overlayMembers lows hs.nodup k
          rw [he, Table.get?_of_mem hls.nodup hk] at hg
          cases hu : Table.get? k ups
          case none => simp [hu] at hg
          case some => rfl
        case refine_2 =>
          have ho := get?_overlay hs hls hk hg
          rw [he, hg] at ho
          exact (hi _ (Table.mem_of_get? hg) (hl _ hk)).mp (Option.some.inj ho).symm
      case mpr =>
        intro hc
        cases hc
        case upper h => cases h
        case lower h => cases h
        case members hg hc =>
          refine congrArg obj ((sorted_overlayMembers hls ups).ext hs fun k => ?_)
          rw [get?_overlayMembers lows hs.nodup]
          cases hu : Table.get? k ups
          case none =>
            cases hlow : Table.get? k lows
            case none     => rfl
            case some low => simpa [hu] using hg k low (Table.mem_of_get? hlow)
          case some up =>
            cases hlow : Table.get? k lows
            case none     => rfl
            case some low =>
              have hm := Table.mem_of_get? hlow
              exact congrArg some ((hi _ (Table.mem_of_get? hu) (hl _ hm)).mpr (hc k low up hm hu))

end CallFabric.Json
