import CallFabric.Json.Basic
import CallFabric.Proofs.Table

namespace CallFabric.Json

-- Induction over a value, its elements and its members.
theorem induct {motive : Json → Prop} (null : motive .null) (bool : ∀ b, motive (.bool b))
    (int : ∀ i, motive (.int i)) (float : ∀ x, motive (.float x)) (str : ∀ s, motive (.str s))
    (arr : ∀ xs, (∀ x ∈ xs, motive x) → motive (.arr xs))
    (obj : ∀ ms, (∀ p ∈ ms, motive p.2) → motive (.obj ms)) (v : Json) : motive v := by
  refine @Json.rec motive (fun xs => ∀ x ∈ xs, motive x) (fun ms => ∀ p ∈ ms, motive p.2)
    (fun p => motive p.2) null bool int float str arr obj ?nil ?cons ?noMembers ?members ?member v
  case nil       => exact List.forall_mem_nil _
  case cons      => exact fun x xs hx hxs => List.forall_mem_cons.mpr ⟨hx, hxs⟩
  case noMembers => exact List.forall_mem_nil _
  case members   => exact fun p ms hp hms => List.forall_mem_cons.mpr ⟨hp, hms⟩
  case member    => exact fun _ _ h => h

theorem sortedItems_eq_map (xs : List Json) : sortedItems xs = xs.map sorted := by
  induction xs
  case nil          => rfl
  case cons x xs hi => rw [sortedItems, hi, List.map_cons]

variable {seen ms : List (String × Json)}

theorem sorted_sortedMembers (h : Table.Sorted seen) (ms : List (String × Json)) :
    Table.Sorted (sortedMembers seen ms) := by
  induction ms generalizing seen
  case nil          => exact h
  case cons p ms hi => exact hi (h.insert p.1 p.2.sorted)

theorem get?_sortedMembers (hn : (Table.keys ms).Nodup) (key : String) :
    Table.get? key (sortedMembers seen ms) =
      ((Table.get? key ms).map sorted).or (Table.get? key seen) := by
  induction ms generalizing seen
  case nil          => rfl
  case cons p ms hi =>
    obtain ⟨k, v⟩ := p
    obtain ⟨hk, hn⟩ := List.nodup_cons.mp hn
    rw [sortedMembers, hi hn, Table.get?_insert, Table.get?]
    rcases Decidable.em (k = key) with rfl | hne
    · simp [Table.get?_eq_none hk]
    · simp [hne]

theorem sortedMembers_of_sorted (h : Table.Sorted (seen ++ ms)) :
    sortedMembers seen ms = seen ++ ms.map fun p => (p.1, p.2.sorted) := by
  induction ms generalizing seen
  case nil          => simp [sortedMembers]
  case cons p ms hi =>
    obtain ⟨k, v⟩ := p
    have hk : ∀ q ∈ seen, q.1 < k := fun q hq =>
      (List.pairwise_append.mp h).2.2 q hq (k, v) List.mem_cons_self
    have he : Table.insert k v.sorted seen = seen ++ [(k, v.sorted)] :=
      Table.Sorted.insert_last hk _
    have hs : Table.Sorted (seen ++ [(k, v.sorted)] ++ ms) := by
      rw [Table.sorted_iff] at h ⊢
      simpa [Table.keys] using h
    rw [sortedMembers, he, hi hs]
    simp

theorem sorted_obj_of_sorted (h : Table.Sorted ms) :
    (obj ms).sorted = .obj (ms.map fun p => (p.1, p.2.sorted)) :=
  congrArg obj (@sortedMembers_of_sorted [] ms h)

theorem canonicalItems_iff {xs : List Json} : CanonicalItems xs ↔ ∀ x ∈ xs, x.Canonical := by
  induction xs
  case nil          => simp [CanonicalItems]
  case cons x xs hi => rw [CanonicalItems, hi, List.forall_mem_cons]

theorem canonicalMembers_iff : CanonicalMembers ms ↔ ∀ p ∈ ms, p.2.Canonical := by
  induction ms
  case nil          => simp [CanonicalMembers]
  case cons p ms hi => rw [CanonicalMembers, hi, List.forall_mem_cons]

theorem Canonical.sorted (v : Json) (h : v.Canonical) : v.sorted = v := by
  induction v using Json.induct
  case arr xs hi =>
    have hx := canonicalItems_iff.mp h
    rw [Json.sorted, sortedItems_eq_map]
    exact congrArg _ ((List.map_congr_left fun x hm => hi x hm (hx x hm)).trans (List.map_id xs))
  case obj ms hi =>
    have hx := canonicalMembers_iff.mp h.2
    rw [sorted_obj_of_sorted h.1]
    refine congrArg _ ((List.map_congr_left fun p hm => ?_).trans (List.map_id ms))
    exact congrArg (Prod.mk p.1) (hi p hm (hx p hm))
  all_goals rfl

end CallFabric.Json
