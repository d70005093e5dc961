import CallFabric.Proofs.Metadata.Making
import CallFabric.Proofs.Text.Numerals
import CallFabric.Proofs.Text.Utf8

namespace CallFabric

namespace Bytes

theorem hexDigit_ascii : ∀ n < 16, hexDigit n < 0x80 := by decide

theorem isText_toHex (bs : Bytes) : IsText bs.toHex := by
  refine .ascii (List.all_eq_true.mpr fun x hx => decide_eq_true ?_)
  obtain ⟨b, -, hx⟩ := List.mem_flatMap.mp hx
  have hb : b.toNat < 256 := b.toNat_lt
  obtain rfl | hx := List.mem_cons.mp hx
  case inl => exact hexDigit_ascii _ (by omega)
  case inr =>
    obtain rfl := List.mem_singleton.mp hx
    exact hexDigit_ascii _ (by omega)

theorem hexText_ne_empty {bs : Bytes} (h : bs ≠ []) : bs.hexText ≠ "" := by
  obtain ⟨b, bs, rfl⟩ := List.exists_cons_of_ne_nil h
  obtain ⟨s, hs⟩ := isText_toHex (b :: bs)
  have ht : hexText (b :: bs) = s := by rw [hexText, ← hs, text?_ofText, Option.getD_some]
  rw [ht]
  rintro rfl
  cases hs

end Bytes

theorem requestIdOf_ne_empty (random : Nat) : requestIdOf random ≠ "" :=
  Bytes.hexText_ne_empty (List.ne_nil_of_length_pos (by simp [Bytes.bigEndian]))

namespace Metadata

variable {m : Metadata} {key : String}

-- The metadata after as many hops as there are random numbers, each a fresh id to one hop.
def hops (m : Metadata) (randoms : List Nat) : Metadata :=
  randoms.foldl (fun m random => m.outbound (requestIdOf random)) m

theorem hops_cons (m : Metadata) (random : Nat) (randoms : List Nat) :
    m.hops (random :: randoms) = (m.outbound (requestIdOf random)).hops randoms := rfl

theorem entries_hops (h : key ∉ derivedKeys) (m : Metadata) (randoms : List Nat) :
    (m.hops randoms).entries.get? key = m.entries.get? key := by
  induction randoms generalizing m
  case nil                    => rfl
  case cons random randoms hi => exact (hi _).trans (entries_outbound h m _)

-- Under a key that a hop only fills, nothing changes once there is something.
theorem get?_hops (hk : ∀ (m : Metadata) freshId, m.isEmptyAt key = false →
      (m.outbound freshId).get? key = m.get? key)
    (h : m.isEmptyAt key = false) (randoms : List Nat) :
    (m.hops randoms).get? key = m.get? key := by
  induction randoms generalizing m
  case nil                    => rfl
  case cons random randoms hi =>
    have ho := hk m (requestIdOf random) h
    have he : (m.outbound (requestIdOf random)).isEmptyAt key = false := by rwa [isEmptyAt, ho]
    exact (hi he).trans ho

theorem isEmptyAt_of_get? {value : String} (hg : m.get? key = some value) (hv : value ≠ "") :
    m.isEmptyAt key = false := by
  simp [isEmptyAt, hg, hv]

theorem contentType_hops (m : Metadata) (first : Nat) (more : List Nat) :
    (m.hops (first :: more)).get? contentTypeKey =
      if m.isEmptyAt contentTypeKey then some ContentType.standard else m.get? contentTypeKey := by
  have hk (m : Metadata) freshId (h : m.isEmptyAt contentTypeKey = false) :
      (m.outbound freshId).get? contentTypeKey = m.get? contentTypeKey := by
    rw [contentType_outbound, if_neg (by simp [h])]
  have ho := m.contentType_outbound (requestIdOf first)
  cases he : m.isEmptyAt contentTypeKey
  case false => exact get?_hops hk he (first :: more)
  case true =>
    rw [he, if_pos rfl] at ho
    exact (get?_hops hk (isEmptyAt_of_get? ho (by decide)) more).trans ho

theorem requestId_hops (m : Metadata) (first : Nat) (more : List Nat) :
    (m.hops (first :: more)).requestId? =
      if m.isEmptyAt requestIdKey then some (requestIdOf first) else m.requestId? := by
  have hk (m : Metadata) freshId (h : m.isEmptyAt requestIdKey = false) :
      (m.outbound freshId).get? requestIdKey = m.get? requestIdKey := by
    rw [requestId_outbound, if_neg (by simp [h])]
  have ho := m.requestId_outbound (requestIdOf first)
  cases he : m.isEmptyAt requestIdKey
  case false => exact get?_hops hk he (first :: more)
  case true =>
    rw [he, if_pos rfl] at ho
    exact (get?_hops hk (isEmptyAt_of_get? ho (requestIdOf_ne_empty first)) more).trans ho

def sequence? (m : Metadata) : Option Nat :=
  m.requestSequence?.bind fun s => Text.word64? (Text.trim s)

theorem nextSequence_eq (m : Metadata) :
    m.nextSequence = (m.sequence?.map fun n => (n + 1) % 0x10000000000000000).getD 0 := by
  rw [nextSequence, sequence?]
  cases m.requestSequence?.bind fun s => Text.word64? (Text.trim s) <;> rfl

theorem nextSequence_lt (m : Metadata) : m.nextSequence < 0x10000000000000000 := by
  rw [nextSequence_eq]
  cases m.sequence?
  case none   => decide
  case some n => exact Nat.mod_lt _ (by decide)

theorem nextSequence_outbound (m : Metadata) (freshId : String) :
    (m.outbound freshId).nextSequence = (m.nextSequence + 1) % 0x10000000000000000 := by
  have hs : (m.outbound freshId).sequence? = some m.nextSequence := by
    rw [sequence?, requestSequence_outbound, Option.bind_some, Text.word64?_trim_toString,
      if_pos m.nextSequence_lt]
  rw [nextSequence_eq, hs, Option.map_some, Option.getD_some]

theorem requestSequence_hops (m : Metadata) (first : Nat) (more : List Nat) :
    (m.hops (first :: more)).requestSequence? =
      some (toString ((m.nextSequence + more.length) % 0x10000000000000000)) := by
  induction more generalizing m first
  case nil =>
    rw [List.length_nil, Nat.add_zero, Nat.mod_eq_of_lt m.nextSequence_lt]
    exact requestSequence_outbound ..
  case cons second more hi =>
    have hn : ((m.outbound (requestIdOf first)).nextSequence + more.length) % 0x10000000000000000 =
        (m.nextSequence + (second :: more).length) % 0x10000000000000000 := by
      rw [nextSequence_outbound, Nat.mod_add_mod, Nat.add_assoc, Nat.add_comm 1, List.length_cons]
    rw [hops_cons, hi, hn]

-- After one hop or more: what stands under any other key is what stood there; the content type is
-- the one that there was, else the standard one, and the request id the one that there was, else
-- the one that the first hop made; the sequence number is as many further as there were hops, or
-- starts from zero with the first of them where none was written.
theorem derived_over_hops (m : Metadata) (first : Nat) (more : List Nat) :
    let count := (first :: more).length
    let far := m.hops (first :: more)
    (∀ key ∉ derivedKeys, far.entries.get? key = m.entries.get? key) ∧
    far.get? contentTypeKey =
      (if m.isEmptyAt contentTypeKey then some ContentType.standard else m.get? contentTypeKey) ∧
    far.requestId? =
      (if m.isEmptyAt requestIdKey then some (requestIdOf first) else m.requestId?) ∧
    far.requestSequence? = some (toString (match m.sequence? with
      | some s => (s + count) % 0x10000000000000000
      | none => (count - 1) % 0x10000000000000000)) := by
  intro count far
  refine ⟨fun key hk => entries_hops hk m _, contentType_hops m first more,
    requestId_hops m first more, (requestSequence_hops m first more).trans ?_⟩
  rw [nextSequence_eq]
  cases m.sequence?
  case none   => simp [count]
  case some s => simp [count, Nat.add_assoc, Nat.add_comm 1]

-- Past the greatest number, which is read in spite of a plus sign and blanks.
theorem derived_over_hops_past_greatest :
    let m := ofPairs [("Tag", "a"), ("request_sq", " +18446744073709551614\n")]
    let far := m.hops [7, 8, 9]
    "tag" ∉ derivedKeys ∧ far.entries.get? "tag" = some "a" ∧
      far.requestId? = some (requestIdOf 7) ∧ far.requestSequence? = some "1" := by
  intro m far
  obtain ⟨hk, -, hi, hs⟩ := derived_over_hops m 7 [8, 9]
  have ht : "tag" ∉ derivedKeys := by decide
  have hr : m.sequence? = some 18446744073709551614 := by decide
  rw [hr] at hs
  exact ⟨ht, hk "tag" ht, hi, hs⟩

end Metadata
end CallFabric
