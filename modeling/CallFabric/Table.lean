namespace CallFabric

-- Keys ascend by their code points, which is the order of their UTF-8 octets.
abbrev Table (α : Type) := List (String × α)

namespace Table

variable {α β : Type}

def get? (key : String) : Table α → Option α
  | [] => none
  | (k, v) :: rest => if k = key then some v else get? key rest

def contains (t : Table α) (key : String) : Bool :=
  (t.get? key).isSome

def insert (key : String) (value : α) : Table α → Table α
  | [] => [(key, value)]
  | (k, v) :: rest =>
    if k = key then (key, value) :: rest
    else if key < k then (key, value) :: (k, v) :: rest
    else (k, v) :: insert key value rest

def erase (key : String) : Table α → Table α
  | [] => []
  | (k, v) :: rest => if k = key then rest else (k, v) :: erase key rest

def ofList (pairs : List (String × α)) : Table α :=
  pairs.foldl (fun t (k, v) => t.insert k v) []

-- The pairs from `first` on, in order; a key that is present takes the later value.
def union (t later : Table α) : Table α :=
  later.foldl (fun t (k, v) => t.insert k v) t

def keys (t : Table α) : List String :=
  t.map Prod.fst

def mapValues (f : α → β) (t : Table α) : Table β :=
  t.map fun (k, v) => (k, f v)

def modify (key : String) (fallback : α) (f : α → α) (t : Table α) : Table α :=
  t.insert key (f ((t.get? key).getD fallback))

def Sorted (t : Table α) : Prop :=
  t.Pairwise fun a b => a.1 < b.1

instance (t : Table α) : Decidable t.Sorted :=
  inferInstanceAs (Decidable (List.Pairwise _ t))

@[simp] theorem get?_nil (key : String) : get? key ([] : Table α) = none := rfl

theorem get?_insert (t : Table α) (k key : String) (v : α) :
    (t.insert k v).get? key = if k = key then some v else t.get? key := by
  induction t with
  | nil => simp [insert, get?]
  | cons p rest ih =>
    obtain ⟨k', v'⟩ := p
    simp only [insert]
    split
    · next h => subst h; by_cases hk : k' = key <;> simp [get?, hk]
    · next h =>
      split
      · by_cases hk : k = key <;> simp [get?, hk]
      · by_cases hk : k' = key
        · subst hk; simp [get?, Ne.symm h]
        · simp [get?, hk, ih]

@[simp] theorem get?_insert_self (t : Table α) (k : String) (v : α) :
    (t.insert k v).get? k = some v := by
  simp [get?_insert]

theorem get?_insert_of_ne {k key : String} (h : k ≠ key) (t : Table α) (v : α) :
    (t.insert k v).get? key = t.get? key := by
  simp [get?_insert, h]

theorem get?_erase_of_ne {k key : String} (h : k ≠ key) (t : Table α) :
    (t.erase k).get? key = t.get? key := by
  induction t with
  | nil => rfl
  | cons p rest ih =>
    obtain ⟨k', v'⟩ := p
    simp only [erase]
    split
    · next hk => subst hk; simp [get?, h]
    · simp [get?, ih]

theorem mem_of_get? {t : Table α} {key : String} {v : α} (h : t.get? key = some v) :
    (key, v) ∈ t := by
  induction t with
  | nil => simp at h
  | cons p rest ih =>
    obtain ⟨k, w⟩ := p
    simp only [get?] at h
    split at h
    · next hk => simp_all
    · exact .tail _ (ih h)

theorem eq_or_mem_of_mem_insert {t : Table α} {key : String} {v : α} {p : String × α}
    (h : p ∈ t.insert key v) : p = (key, v) ∨ p ∈ t := by
  induction t with
  | nil => exact .inl (List.mem_singleton.mp h)
  | cons q rest ih =>
    obtain ⟨k, w⟩ := q
    simp only [insert] at h
    split at h
    · exact (List.mem_cons.mp h).imp_right (.tail _)
    · split at h
      · exact List.mem_cons.mp h
      · cases h
        · exact .inr (.head _)
        · next h => exact (ih h).imp_right (.tail _)

theorem erase_subset (t : Table α) (key : String) : t.erase key ⊆ t := by
  induction t with
  | nil => exact List.Subset.refl _
  | cons p rest ih =>
    obtain ⟨k, v⟩ := p
    simp only [erase]
    split
    · exact List.subset_cons_self _ _
    · exact List.cons_subset_cons _ ih

end Table
end CallFabric
