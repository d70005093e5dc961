import CallFabric.Metadata
import CallFabric.Proofs.Table

namespace CallFabric

namespace Headers

theorem isValueOctet_of_isVisible {b : UInt8} (h : isVisible b) : isValueOctet b := by
  simp only [isVisible, isValueOctet, Bool.or_eq_true, Bool.and_eq_true, decide_eq_true_eq] at h ⊢
  refine h.imp_right fun ⟨hl, hu⟩ => ⟨hl, ?_⟩
  rintro rfl
  exact absurd hu (by decide)

theorem all_isValueOctet {bs : Bytes} (h : bs.all isVisible) : bs.all isValueOctet :=
  List.all_eq_true.mpr fun b hb => isValueOctet_of_isVisible (List.all_eq_true.mp h b hb)

theorem visible?_ofText (s : String) :
    visible? (Bytes.ofText s) = if (Bytes.ofText s).all isVisible then some s else none := by
  rw [visible?, Bytes.text?_ofText]

variable {hs : Headers} {name : String}

theorem texts_append (hs more : Headers) (name : String) :
    texts (hs ++ more) name = hs.texts name ++ more.texts name :=
  List.filterMap_append

theorem texts_eq_nil (h : name ∉ hs.names) : hs.texts name = [] := by
  refine List.filterMap_eq_nil_iff.mpr fun p hp => if_neg ?_
  rintro rfl
  exact h (List.mem_eraseDups.mpr (List.mem_map_of_mem hp))

theorem texts_perm {more : Headers} (h : hs.Perm more) (name : String) :
    (hs.texts name).Perm (more.texts name) :=
  h.filterMap _

-- The values under a name that are text, in one; nothing is collected of connection control.
def joined? (hs : Headers) (name : String) : Option String :=
  if name = "connection" ∨ hs.texts name = [] then none else some (Text.join "," (hs.texts name))

theorem joined?_eq_none (h : name ∉ hs.names) : hs.joined? name = none :=
  if_pos (.inr (texts_eq_nil h))

theorem joined?_of_perm {value : Option String} (hn : name ≠ "connection")
    (h : (hs.texts name).Perm value.toList) : hs.joined? name = value := by
  cases value
  case none      => exact if_pos (.inr h.eq_nil)
  case some value =>
    rw [joined?, List.perm_singleton.mp h, if_neg (by simp [hn])]
    simp [Text.join]

end Headers

namespace Metadata

variable {m : Metadata} {key k v : String}

theorem get?_insert (m : Metadata) (k key v : String) :
    (m.insert k v).get? key = if Text.lower k = Text.lower key then some v else m.get? key :=
  Table.get?_insert ..

theorem get?_insert_of_ne (h : Text.lower k ≠ Text.lower key) (m : Metadata) (v : String) :
    (m.insert k v).get? key = m.get? key :=
  Table.get?_insert_of_ne h ..

theorem get?_erase_of_ne (h : Text.lower k ≠ Text.lower key) : (m.erase k).get? key = m.get? key :=
  Table.get?_erase_of_ne h ..

theorem ofHeaders_eq (hs : Headers) :
    ofHeaders hs =
      hs.names.foldl (fun m name => (hs.joined? name).elim m (m.insert name)) empty := by
  rw [ofHeaders]
  congr
  funext m name
  rw [Headers.joined?]
  cases hs.texts name <;> by_cases hc : name = "connection" <;> simp [hc]

theorem get?_foldl_joined {hs : Headers} {names : List String}
    (hl : ∀ name ∈ names, Text.lower name = name) (key : String) (m : Metadata) :
    (names.foldl (fun m name => (hs.joined? name).elim m (m.insert name)) m).get? key =
      if Text.lower key ∈ names then (hs.joined? (Text.lower key)).or (m.get? key)
      else m.get? key := by
  induction names generalizing m
  case nil => rfl
  case cons name names hi =>
    obtain ⟨hn, hl⟩ := List.forall_mem_cons.mp hl
    have hg : ((hs.joined? name).elim m (m.insert name)).get? key =
        if name = Text.lower key then (hs.joined? name).or (m.get? key) else m.get? key := by
      cases hs.joined? name <;> simp [get?_insert, hn]
    rw [List.foldl_cons, hi hl, hg]
    by_cases he : name = Text.lower key
    case pos =>
      subst he
      cases hs.joined? (Text.lower key) <;> simp
    case neg => simp [he, Ne.symm he]

theorem get?_ofHeaders {hs : Headers} (hl : ∀ p ∈ hs, Text.lower p.1 = p.1) (key : String) :
    (ofHeaders hs).get? key = hs.joined? (Text.lower key) := by
  have hn : ∀ name ∈ hs.names, Text.lower name = name := fun name hm => by
    obtain ⟨p, hp, rfl⟩ := List.mem_map.mp (List.mem_eraseDups.mp hm)
    exact hl p hp
  rw [ofHeaders_eq, get?_foldl_joined hn]
  split
  case isTrue  => exact Option.or_none
  case isFalse h => exact (Headers.joined?_eq_none h).symm

-- Whether a receiver reads what a transport carries of a pair.
def arrives (key value : String) : Bool :=
  isForwardable key && isTextKey key && (Bytes.ofText value).all Headers.isVisible

theorem carries_of_arrives (h : arrives k v) : carries k v := by
  simp only [arrives, carries, Bool.and_eq_true] at h ⊢
  exact ⟨h.1, Headers.all_isValueOctet h.2⟩

theorem visible?_of_carries (h : carries k v) :
    Headers.visible? (Bytes.ofText v) = if arrives k v then some v else none := by
  simp only [carries, Bool.and_eq_true] at h
  simp [arrives, h.1.1, h.1.2, Headers.visible?_ofText]

theorem lower_of_carries (h : carries k v) : Text.lower k = k := by
  simp only [carries, isTextKey, Bool.and_eq_true, decide_eq_true_eq] at h
  exact h.1.2.1.2

theorem lower_of_mem_toHeaders {p : String × Bytes} (h : p ∈ m.toHeaders) :
    Text.lower p.1 = p.1 := by
  obtain ⟨⟨k, v⟩, hq, rfl⟩ := List.mem_map.mp h
  exact lower_of_carries (List.mem_filter.mp hq).2

theorem texts_toHeaders (hm : m.entries.Sorted) (key : String) :
    m.toHeaders.texts key = ((m.entries.get? key).filter (arrives key)).toList := by
  rw [← Table.filterMap_key hm.nodup, toHeaders, Headers.texts, List.filterMap_map,
    List.filterMap_filter]
  congr
  funext ⟨k, v⟩
  by_cases hk : k = key
  case neg => simp [hk]
  case pos =>
    subst hk
    by_cases hc : carries k v
    case pos => simp [hc, visible?_of_carries hc]
    case neg => simp [hc, mt carries_of_arrives hc]

-- What is sent under a name is the first that a transport carries.
theorem first?_toHeaders (m : Metadata) (key : String) :
    m.toHeaders.first? key =
      (m.entries.find? fun p => p.1 = key && carries key p.2).map fun p => Bytes.ofText p.2 := by
  rw [toHeaders, Headers.first?, List.find?_map, List.find?_filter, Option.map_map]
  refine congrArg (fun p => (m.entries.find? p).map _) (funext fun p => ?_)
  by_cases hk : p.1 = key <;> simp [hk]

theorem first?_toHeaders_of_sorted (hm : m.entries.Sorted) (key : String) :
    m.toHeaders.first? key = ((m.entries.get? key).filter (carries key)).map Bytes.ofText := by
  rw [first?_toHeaders, Table.find?_key hm.nodup, Option.map_map]
  rfl

theorem first?_toHeaders_insert_of_ne (h : Text.lower k ≠ key) (m : Metadata) (v : String) :
    (m.insert k v).toHeaders.first? key = m.toHeaders.first? key := by
  rw [first?_toHeaders, first?_toHeaders, insert, Table.find?_insert_of_ne (by simp [h])]

theorem first?_toHeaders_insert_self (hk : Text.lower k = key) (h : carries key v)
    (m : Metadata) : (m.insert k v).toHeaders.first? key = some (Bytes.ofText v) := by
  have hn (l w : String) (hl : l ≠ key) : (decide (l = key) && carries key w) = false := by
    simp [hl]
  subst hk
  rw [first?_toHeaders, insert, Table.find?_insert_self (by simp [h]) hn, Option.map_some]

end Metadata
end CallFabric
