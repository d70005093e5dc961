import CallFabric.Call.Context
import CallFabric.Proofs.Metadata.Headers
import CallFabric.Proofs.Text.Case

namespace CallFabric

namespace Metadata

variable {m : Metadata}

def filled (m : Metadata) (key value : String) : Metadata :=
  if m.isEmptyAt key then m.insert key value else m

theorem get?_filled_self (m : Metadata) (key value : String) :
    (m.filled key value).get? key = if m.isEmptyAt key then some value else m.get? key := by
  rw [filled]
  split
  case isTrue  => rw [get?_insert, if_pos rfl]
  case isFalse => rfl

theorem get?_filled_of_ne {k key : String} (h : Text.lower k ≠ Text.lower key) (m : Metadata)
    (value : String) : (m.filled k value).get? key = m.get? key := by
  rw [filled]
  split
  case isTrue  => exact get?_insert_of_ne h m value
  case isFalse => rfl

theorem entries_filled_of_ne {k key : String} (h : Text.lower k ≠ key) (m : Metadata)
    (value : String) : (m.filled k value).entries.get? key = m.entries.get? key := by
  rw [filled]
  split
  case isTrue  => exact Table.get?_insert_of_ne h _ value
  case isFalse => rfl

theorem outbound_eq (m : Metadata) (freshId : String) : m.outbound freshId =
    ((m.filled contentTypeKey ContentType.standard).filled requestIdKey freshId).insert
      requestSequenceKey (toString m.nextSequence) := rfl

-- What a hop decides itself.
def derivedKeys : List String := [contentTypeKey, requestIdKey, requestSequenceKey]

theorem lower_ne_of_not_derived {k key : String} (h : key ∉ derivedKeys) (hk : k ∈ derivedKeys) :
    Text.lower k ≠ key := by
  have hl : ∀ k ∈ derivedKeys, Text.lower k = k := by decide
  rw [hl k hk]
  exact ne_of_mem_of_not_mem hk h

theorem entries_outbound {key : String} (h : key ∉ derivedKeys) (m : Metadata) (freshId : String) :
    (m.outbound freshId).entries.get? key = m.entries.get? key := by
  have hn : ∀ k ∈ derivedKeys, Text.lower k ≠ key := fun k hk => lower_ne_of_not_derived h hk
  rw [outbound_eq, insert, Table.get?_insert_of_ne (hn _ (by decide)),
    entries_filled_of_ne (hn _ (by decide)), entries_filled_of_ne (hn _ (by decide))]

theorem contentType_outbound (m : Metadata) (freshId : String) :
    (m.outbound freshId).get? contentTypeKey =
      if m.isEmptyAt contentTypeKey then some ContentType.standard else m.get? contentTypeKey := by
  rw [outbound_eq, get?_insert_of_ne (by decide), get?_filled_of_ne (by decide), get?_filled_self]

theorem requestId_outbound (m : Metadata) (freshId : String) :
    (m.outbound freshId).get? requestIdKey =
      if m.isEmptyAt requestIdKey then some freshId else m.get? requestIdKey := by
  have hf : (m.filled contentTypeKey ContentType.standard).get? requestIdKey =
      m.get? requestIdKey := get?_filled_of_ne (by decide) ..
  rw [outbound_eq, get?_insert_of_ne (by decide), get?_filled_self, isEmptyAt, hf]
  rfl

theorem requestSequence_outbound (m : Metadata) (freshId : String) :
    (m.outbound freshId).requestSequence? = some (toString m.nextSequence) := by
  rw [requestSequence?, outbound_eq, get?_insert, if_pos rfl]

theorem first?_toHeaders_filled_of_ne {k key : String} (h : Text.lower k ≠ key) (m : Metadata)
    (value : String) : (m.filled k value).toHeaders.first? key = m.toHeaders.first? key := by
  rw [filled]
  split
  case isTrue  => exact first?_toHeaders_insert_of_ne h m value
  case isFalse => rfl

-- What is sent under any other name is what would have been sent before the hop.
theorem first?_toHeaders_outbound {key : String} (h : key ∉ derivedKeys) (m : Metadata)
    (freshId : String) : (m.outbound freshId).toHeaders.first? key = m.toHeaders.first? key := by
  have hn : ∀ k ∈ derivedKeys, Text.lower k ≠ key := fun k hk => lower_ne_of_not_derived h hk
  rw [outbound_eq, first?_toHeaders_insert_of_ne (hn _ (by decide)),
    first?_toHeaders_filled_of_ne (hn _ (by decide)), first?_toHeaders_filled_of_ne (hn _ (by decide))]

section Kept

variable {p : Metadata → Prop} (hp : ∀ {m : Metadata}, p m → ∀ key value, p (m.insert key value))
include hp

theorem kept_filled (h : p m) (key value : String) : p (m.filled key value) := by
  rw [filled]
  split
  case isTrue  => exact hp h key value
  case isFalse => exact h

theorem kept_outbound (h : p m) (freshId : String) : p (m.outbound freshId) := by
  rw [outbound_eq]
  exact hp (kept_filled hp (kept_filled hp h ..) ..) ..

theorem kept_ofPairs (h : p empty) (pairs : List (String × String)) : p (ofPairs pairs) :=
  List.foldlRecOn pairs _ h fun _ hm pair _ => hp hm pair.1 pair.2

theorem kept_ofHeaders (h : p empty) (hs : Headers) : p (ofHeaders hs) := by
  rw [ofHeaders_eq]
  refine List.foldlRecOn hs.names _ h fun m hm name _ => ?_
  cases hs.joined? name
  case none       => exact hm
  case some value => exact hp hm name value

end Kept

theorem sorted_empty : empty.entries.Sorted := List.Pairwise.nil

theorem sorted_insert (h : m.entries.Sorted) (key value : String) :
    (m.insert key value).entries.Sorted :=
  Table.Sorted.insert h ..

theorem sorted_ofHeaders (hs : Headers) : (ofHeaders hs).entries.Sorted :=
  kept_ofHeaders (p := fun m => m.entries.Sorted) sorted_insert sorted_empty hs

theorem sorted_outbound (h : m.entries.Sorted) (freshId : String) :
    (m.outbound freshId).entries.Sorted :=
  kept_outbound (p := fun m => m.entries.Sorted) sorted_insert h freshId

-- Keys ascend, and each is written in lower case.
structure Tidy (m : Metadata) : Prop where
  sorted : m.entries.Sorted
  lower  : ∀ p ∈ m.entries, Text.lower p.1 = p.1

namespace Tidy

theorem empty : Metadata.empty.Tidy where
  sorted := sorted_empty
  lower _ h := absurd h List.not_mem_nil

theorem insert (h : m.Tidy) (key value : String) : (m.insert key value).Tidy where
  sorted := sorted_insert h.sorted key value
  lower p hp := by
    obtain rfl | hp := Table.eq_or_mem_of_mem_insert hp
    case inl => exact Text.lower_lower key
    case inr => exact h.lower p hp

theorem erase (h : m.Tidy) (key : String) : (m.erase key).Tidy where
  sorted := h.sorted.erase _
  lower p hp := h.lower p (Table.erase_subset _ _ hp)

end Tidy

-- What is made by the operations, one after another.
inductive Made : Metadata → Prop
  | empty : Made empty
  | ofPairs (pairs : List (String × String)) : Made (ofPairs pairs)
  | ofHeaders (hs : Headers) : Made (ofHeaders hs)
  | insert {m : Metadata} (h : Made m) (key value : String) : Made (m.insert key value)
  | erase {m : Metadata} (h : Made m) (key : String) : Made (m.erase key)
  | outbound {m : Metadata} (h : Made m) (freshId : String) : Made (m.outbound freshId)
  | setTimeout {m : Metadata} (h : Made m) (t : Time) : Made (m.setTimeout t)
  | takeTimeout {m : Metadata} (h : Made m) : Made m.takeTimeout.2

theorem Made.tidy (h : m.Made) : m.Tidy := by
  induction h
  case empty                 => exact .empty
  case ofPairs pairs         => exact kept_ofPairs Tidy.insert .empty pairs
  case ofHeaders hs          => exact kept_ofHeaders Tidy.insert .empty hs
  case insert key value hi   => exact hi.insert key value
  case erase key hi          => exact hi.erase key
  case outbound freshId hi   => exact kept_outbound Tidy.insert hi freshId
  case setTimeout t hi       => exact hi.insert timeoutKey (toString t)
  case takeTimeout hi        => exact hi.erase timeoutKey

end Metadata
end CallFabric
