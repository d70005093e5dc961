import CallFabric.Table

namespace CallFabric.Table

variable {α β : Type} {t : Table α} {k key : String} {v : α}

theorem mem_keys_iff : key ∈ t.keys ↔ ∃ v, (key, v) ∈ t := by
  simp [keys]

theorem get?_eq_none (h : key ∉ t.keys) : t.get? key = none := by
  cases hg : t.get? key
  case none   => rfl
  case some v => exact absurd (mem_keys_iff.mpr ⟨v, mem_of_get? hg⟩) h

theorem not_mem_of_get? (h : t.get? key = none) : key ∉ t.keys := by
  induction t
  case nil => exact List.not_mem_nil
  case cons p t hi =>
    rw [get?] at h
    split at h
    case isTrue      => cases h
    case isFalse hne => exact fun hm => (List.mem_cons.mp hm).elim (Ne.symm hne) (hi h)

theorem mem_keys_iff_isSome : key ∈ t.keys ↔ (t.get? key).isSome := by
  rw [Option.isSome_iff_ne_none]
  exact ⟨fun h hn => not_mem_of_get? hn h, fun h => Decidable.not_not.mp (mt get?_eq_none h)⟩

theorem get?_of_mem (hn : t.keys.Nodup) (h : (key, v) ∈ t) : t.get? key = some v := by
  induction t
  case nil => cases h
  case cons p t hi =>
    obtain ⟨k, w⟩ := p
    obtain ⟨hk, hn⟩ := List.nodup_cons.mp hn
    cases h
    case head => exact if_pos rfl
    case tail h =>
      have hne : k ≠ key := by
        rintro rfl
        exact hk (mem_keys_iff.mpr ⟨v, h⟩)
      exact (if_neg hne).trans (hi hn h)

theorem get?_map (f : α → β) (t : Table α) (key : String) :
    get? key (t.map fun p => (p.1, f p.2)) = (t.get? key).map f := by
  induction t
  case nil => rfl
  case cons p t hi =>
    rw [List.map_cons, get?, get?, hi]
    split <;> rfl

theorem get?_mapValues (f : α → β) (t : Table α) (key : String) :
    (t.mapValues f).get? key = (t.get? key).map f :=
  get?_map f t key

theorem get?_map_of_mem (hn : t.keys.Nodup) (h : (key, v) ∈ t) (f : α → β) :
    get? key (t.map fun p => (p.1, f p.2)) = some (f v) := by
  rw [get?_map, get?_of_mem hn h, Option.map_some]

theorem keys_map (f : α → β) (t : Table α) : keys (t.map fun p => (p.1, f p.2)) = t.keys := by
  simp [keys]

theorem erase_eq_filter (hn : t.keys.Nodup) (key : String) :
    t.erase key = t.filter fun p => p.1 ≠ key := by
  induction t
  case nil => rfl
  case cons p t hi =>
    obtain ⟨k, v⟩ := p
    obtain ⟨hk, hn⟩ := List.nodup_cons.mp hn
    rw [erase]
    by_cases he : k = key
    case neg => rw [if_neg he, hi hn, List.filter_cons_of_pos (by simpa using he)]
    case pos =>
      subst he
      -- The key is in no other pair, so that all the others stay.
      have hf : t.filter (fun p => p.1 ≠ k) = t := List.filter_eq_self.mpr fun p hp => by
        simpa using ne_of_mem_of_not_mem (List.mem_map_of_mem hp) hk
      rw [if_pos rfl, List.filter_cons_of_neg (by simp), hf]

-- The pairs under one key are one at most.
theorem filter_key (hn : t.keys.Nodup) (key : String) :
    t.filter (fun p => p.1 = key) = ((t.get? key).map (key, ·)).toList := by
  induction t
  case nil => rfl
  case cons p t hi =>
    obtain ⟨k, v⟩ := p
    obtain ⟨hk, hn⟩ := List.nodup_cons.mp hn
    rw [List.filter_cons, hi hn, get?]
    by_cases he : k = key
    case neg => simp [he]
    case pos =>
      subst he
      have hg : get? k t = none := get?_eq_none hk
      simp [hg]

theorem filterMap_key (hn : t.keys.Nodup) (f : α → Bool) :
    t.filterMap (fun p => if p.1 = key ∧ f p.2 then some p.2 else none) =
      ((t.get? key).filter f).toList := by
  have hf : (fun p : String × α => if p.1 = key ∧ f p.2 then some p.2 else none) =
      fun p => if decide (p.1 = key) then (if f p.2 then some p.2 else none) else none := by
    funext p
    by_cases hp : p.1 = key <;> simp [hp]
  rw [hf, ← List.filterMap_filter, filter_key hn]
  cases t.get? key
  case none   => rfl
  case some v => cases h : f v <;> simp [h, Option.filter]

theorem find?_key (hn : t.keys.Nodup) (f : α → Bool) :
    t.find? (fun p => p.1 = key && f p.2) = ((t.get? key).filter f).map (key, ·) := by
  have hf : (fun p : String × α => p.1 = key && f p.2) =
      fun p => decide (decide (p.1 = key) = true ∧ f p.2 = true) := by
    funext p
    simp
  rw [hf, ← List.find?_filter, filter_key hn]
  cases t.get? key
  case none   => rfl
  case some v => cases h : f v <;> simp [h, Option.filter]

-- A search that no pair under a key ends does not depend on what is inserted there.
theorem find?_insert_of_ne {p : String × α → Bool} (h : ∀ v, p (k, v) = false) (t : Table α)
    (v : α) : (t.insert k v).find? p = t.find? p := by
  induction t
  case nil => exact List.find?_cons_of_neg (by simp [h])
  case cons q t hi =>
    obtain ⟨l, w⟩ := q
    rw [Table.insert]
    split
    case isTrue he =>
      subst he
      rw [List.find?_cons_of_neg (by simp [h]), List.find?_cons_of_neg (by simp [h])]
    case isFalse =>
      split
      case isTrue  => exact List.find?_cons_of_neg (by simp [h])
      case isFalse => rw [List.find?_cons, List.find?_cons, hi]

-- One that only pairs under this key end finds what is inserted.
theorem find?_insert_self {p : String × α → Bool} (h : p (k, v))
    (hn : ∀ l w, l ≠ k → p (l, w) = false) (t : Table α) :
    (t.insert k v).find? p = some (k, v) := by
  induction t
  case nil => exact List.find?_cons_of_pos h
  case cons q t hi =>
    obtain ⟨l, w⟩ := q
    rw [Table.insert]
    split
    case isTrue => exact List.find?_cons_of_pos h
    case isFalse hl =>
      split
      case isTrue  => exact List.find?_cons_of_pos h
      case isFalse => rw [List.find?_cons_of_neg (by simp [hn l w hl]), hi]

theorem sorted_iff : t.Sorted ↔ t.keys.Pairwise (· < ·) :=
  List.pairwise_map.symm

namespace Sorted

theorem nodup (h : t.Sorted) : t.keys.Nodup :=
  List.pairwise_map.mpr (h.imp fun hlt => Std.ne_of_lt hlt)

theorem map (h : t.Sorted) (f : α → β) : Sorted (t.map fun p => (p.1, f p.2)) :=
  List.pairwise_map.mpr h

theorem mapValues (h : t.Sorted) (f : α → β) : (t.mapValues f).Sorted := h.map f

theorem insert (h : t.Sorted) (key : String) (v : α) : (t.insert key v).Sorted := by
  induction t
  case nil => exact List.pairwise_singleton ..
  case cons p t hi =>
    obtain ⟨k, w⟩ := p
    obtain ⟨hk, ht⟩ := List.pairwise_cons.mp h
    unfold Table.insert
    split
    case isTrue heq => exact List.pairwise_cons.mpr ⟨heq ▸ hk, ht⟩
    case isFalse hne =>
      split
      case isTrue hlt =>
        refine List.pairwise_cons.mpr ⟨?_, h⟩
        rintro q (_ | ⟨_, hq⟩)
        · exact hlt
        · exact String.lt_trans hlt (hk q hq)
      case isFalse hge =>
        refine List.pairwise_cons.mpr ⟨fun q hq => ?_, hi ht⟩
        rcases eq_or_mem_of_mem_insert hq with rfl | hq
        · exact Std.lt_of_le_of_ne (String.not_lt.mp hge) hne
        · exact hk q hq

theorem filter (h : t.Sorted) (p : String × α → Bool) : Sorted (t.filter p) :=
  List.Pairwise.filter p h

theorem erase (h : t.Sorted) (key : String) : (t.erase key).Sorted := by
  rw [erase_eq_filter h.nodup]
  exact h.filter _

theorem get?_eq_some (h : t.Sorted) : t.get? key = some v ↔ (key, v) ∈ t :=
  ⟨mem_of_get?, get?_of_mem h.nodup⟩

-- A key beyond all others goes to the end.
theorem insert_last (h : ∀ p ∈ t, p.1 < key) (v : α) : t.insert key v = t ++ [(key, v)] := by
  induction t
  case nil => rfl
  case cons p t hi =>
    obtain ⟨k, w⟩ := p
    have hlt : k < key := h _ List.mem_cons_self
    have hne : k ≠ key := fun heq => String.lt_irrefl _ (heq ▸ hlt)
    rw [Table.insert, if_neg hne, if_neg (String.lt_asymm hlt),
      hi fun q hq => h q (List.mem_cons_of_mem _ hq), List.cons_append]

theorem get?_tail (h : Sorted ((k, v) :: t)) (hle : key ≤ k) : t.get? key = none := by
  refine get?_eq_none fun hm => ?_
  obtain ⟨w, hw⟩ := mem_keys_iff.mp hm
  exact String.not_lt.mpr hle ((List.pairwise_cons.mp h).1 _ hw)

theorem ext {u : Table α} (ht : t.Sorted) (hu : u.Sorted) (h : ∀ key, t.get? key = u.get? key) :
    t = u := by
  induction t generalizing u
  case nil =>
    cases u
    case nil       => rfl
    case cons q u  => simpa [get?] using h q.1
  case cons p t hi =>
    obtain ⟨k, v⟩ := p
    cases u
    case nil      => simpa [get?] using h k
    case cons q u =>
      obtain ⟨l, w⟩ := q
      -- The lesser of two first keys would be looked up in one table alone.
      have hkl : k = l := by
        rcases Decidable.em (k = l) with heq | hne
        · exact heq
        rcases Decidable.em (k < l) with hlt | hge
        · simpa [get?, hne, Ne.symm hne, hu.get?_tail (Std.le_of_lt hlt)] using h k
        · simpa [get?, hne, Ne.symm hne, ht.get?_tail (String.not_lt.mp hge)] using h l
      subst hkl
      have hvw : v = w := by simpa [get?] using h k
      subst hvw
      refine congrArg _ (hi (List.pairwise_cons.mp ht).2 (List.pairwise_cons.mp hu).2 fun key => ?_)
      rcases Decidable.em (k = key) with rfl | hne
      · rw [ht.get?_tail (Std.le_refl k), hu.get?_tail (Std.le_refl k)]
      · simpa [get?, hne] using h key

theorem ext_mem {u : Table α} (ht : t.Sorted) (hu : u.Sorted)
    (h : ∀ key v, (key, v) ∈ t ↔ (key, v) ∈ u) : t = u := by
  refine ht.ext hu fun key => Option.ext fun v => ?_
  rw [ht.get?_eq_some, hu.get?_eq_some, h]

end Sorted

-- Pairs whose keys ascend are a table as they stand.
theorem union_of_sorted {u : Table α} (h : Sorted (t ++ u)) : t.union u = t ++ u := by
  induction u generalizing t
  case nil => exact (List.append_nil t).symm
  case cons p u hi =>
    obtain ⟨k, v⟩ := p
    have hk : ∀ q ∈ t, q.1 < k := fun q hq =>
      (List.pairwise_append.mp h).2.2 q hq (k, v) List.mem_cons_self
    have he : t ++ (k, v) :: u = t.insert k v ++ u := by simp [Sorted.insert_last hk]
    rw [he] at h ⊢
    exact hi h

theorem ofList_of_sorted (h : t.Sorted) : ofList t = t :=
  union_of_sorted (t := []) h

theorem get?_append (t u : Table α) (key : String) :
    get? key (t ++ u) = (t.get? key).or (u.get? key) := by
  induction t
  case nil => rfl
  case cons p t hi =>
    rw [List.cons_append, get?, get?, hi]
    split <;> rfl

-- A pair takes the place of those before it, so the last one counts.
theorem get?_union (t later : Table α) (key : String) :
    (t.union later).get? key = (get? key later.reverse).or (t.get? key) := by
  induction later generalizing t
  case nil => rfl
  case cons p later hi =>
    rw [union, List.foldl_cons, ← union, hi, get?_insert, List.reverse_cons, get?_append,
      Option.or_assoc]
    simp only [get?]
    split <;> rfl

theorem get?_ofList (pairs : List (String × α)) (key : String) :
    (ofList pairs).get? key = get? key pairs.reverse := by
  have h := get?_union [] pairs key
  rwa [get?_nil, Option.or_none] at h

theorem get?_reverse (hn : t.keys.Nodup) (key : String) : get? key t.reverse = t.get? key := by
  have hr : (keys t.reverse).Nodup := by
    rw [keys, List.map_reverse]
    exact List.pairwise_reverse.mpr (hn.imp Ne.symm)
  refine Option.ext fun v => ⟨fun h => ?_, fun h => ?_⟩
  · exact get?_of_mem hn (List.mem_reverse.mp (mem_of_get? h))
  · exact get?_of_mem hr (List.mem_reverse.mpr (mem_of_get? h))

theorem Sorted.union (h : t.Sorted) (later : Table α) : (t.union later).Sorted := by
  induction later generalizing t
  case nil             => exact h
  case cons p later hi => exact hi (h.insert p.1 p.2)

theorem Sorted.ofList (pairs : List (String × α)) : (Table.ofList pairs).Sorted :=
  Sorted.union (t := []) List.Pairwise.nil pairs

end CallFabric.Table
