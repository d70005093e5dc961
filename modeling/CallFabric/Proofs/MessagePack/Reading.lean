import CallFabric.MessagePack.Basic

namespace CallFabric

namespace Bytes

theorem length_bigEndian (width n : Nat) : (bigEndian width n).length = width := by
  induction width
  case zero          => rfl
  case succ width hi => rw [bigEndian, List.length_cons, hi]

theorem foldl_bigEndian (width n m : Nat) :
    (bigEndian width n).foldl (fun n b => n * 256 + b.toNat) m =
      m * Nat.pow 256 width + n % Nat.pow 256 width := by
  induction width generalizing m
  case zero => simp [bigEndian, Nat.mod_one]
  case succ width hi =>
    have hb : (UInt8.ofNat (n / Nat.pow 256 width % 256)).toNat = n / Nat.pow 256 width % 256 :=
      Nat.mod_eq_of_lt (Nat.mod_lt _ (by decide))
    have hw : Nat.pow 256 (width + 1) = Nat.pow 256 width * 256 := rfl
    rw [bigEndian, List.foldl_cons, hi, hb, hw, Nat.mod_mul, Nat.add_mul, Nat.mul_assoc,
      Nat.mul_comm 256, Nat.add_assoc, Nat.add_comm (n % _), Nat.mul_comm (n / _ % _)]

theorem ofBigEndian_bigEndian {width n : Nat} (h : n < Nat.pow 256 width) :
    ofBigEndian (bigEndian width n) = n := by
  rw [ofBigEndian, foldl_bigEndian, Nat.zero_mul, Nat.zero_add, Nat.mod_eq_of_lt h]

end Bytes

namespace MessagePack

open Bytes (bigEndian)

variable {rest : Bytes}

theorem take?_append (bs rest : Bytes) : take? bs.length (bs ++ rest) = some (bs, rest) := by
  simp [take?]

theorem number?_bigEndian (width : Nat) {n : Nat} (h : n < Nat.pow 256 width) :
    number? width (bigEndian width n ++ rest) = some (n, rest) := by
  have ht := take?_append (bigEndian width n) rest
  rw [Bytes.length_bigEndian] at ht
  simp [number?, ht, Bytes.ofBigEndian_bigEndian h]

theorem twosComplement_of_neg (width : Nat) {i : Int} (hn : i < 0)
    (h : -(Nat.pow 256 width : Nat) ≤ i) :
    twosComplement width i = i + (Nat.pow 256 width : Nat) := by
  have he : i % (Nat.pow 256 width : Nat) = i + (Nat.pow 256 width : Nat) := by
    rw [← Int.add_emod_right]
    exact Int.emod_eq_of_lt (by omega) (by omega)
  have ht : twosComplement width i = (i % (Nat.pow 256 width : Nat)).toNat := rfl
  omega

theorem ofTwosComplement_twosComplement (width : Nat) {i : Int} (hn : i < 0)
    (h : -(Nat.pow 256 width / 2 : Nat) ≤ i) :
    ofTwosComplement width (twosComplement width i) = i := by
  have ht := twosComplement_of_neg width hn (by omega)
  rw [ofTwosComplement, if_neg (by omega)]
  omega

theorem unsigned?_bigEndian (width : Nat) {n : Nat} (h : n < Nat.pow 256 width) :
    unsigned? width (bigEndian width n ++ rest) = some (.item (.unsigned n), rest) := by
  simp [unsigned?, number?_bigEndian width h]

theorem signed?_bigEndian (width : Nat) {i : Int} (hn : i < 0)
    (h : -(Nat.pow 256 width / 2 : Nat) ≤ i) :
    signed? width (bigEndian width (twosComplement width i) ++ rest) =
      some (.item (.signed i), rest) := by
  have ht := twosComplement_of_neg width hn (by omega)
  have hl : twosComplement width i < Nat.pow 256 width := by omega
  simp [signed?, number?_bigEndian width hl, ofTwosComplement_twosComplement width hn h]

theorem text?_append (bs rest : Bytes) :
    text? bs.length (bs ++ rest) = some (.item (.text bs), rest) := by
  simp [text?, take?_append]

theorem binary?_append (bs rest : Bytes) :
    binary? bs.length (bs ++ rest) = some (.item (.binary bs), rest) := by
  simp [binary?, take?_append]

theorem head?_unsigned {n : Nat} (h : n < 0x10000000000000000) :
    head? (unsignedOctets n ++ rest) = some (.item (.unsigned n), rest) := by
  unfold unsignedOctets
  split
  case isTrue hn =>
    have hb : ∀ n < 0x80, UInt8.ofNat n < 0x80 ∧ (UInt8.ofNat n).toNat = n := by decide
    simp only [List.cons_append, List.nil_append, head?, hb n hn, if_true]
  split
  case isTrue hn => exact unsigned?_bigEndian 1 hn
  split
  case isTrue hn => exact unsigned?_bigEndian 2 hn
  split
  case isTrue hn => exact unsigned?_bigEndian 4 hn
  case isFalse => exact unsigned?_bigEndian 8 h

theorem head?_negative {k : Nat} (h : k < 0x20) :
    head? (UInt8.ofNat (0xe0 + k) :: rest) =
      some (.item (.signed (ofTwosComplement 1 (0xe0 + k))), rest) := by
  have hb : ∀ k < 0x20, ¬ UInt8.ofNat (0xe0 + k) < 0x80 ∧ ¬ UInt8.ofNat (0xe0 + k) < 0x90 ∧
    ¬ UInt8.ofNat (0xe0 + k) < 0xa0 ∧ ¬ UInt8.ofNat (0xe0 + k) < 0xc0 ∧
    0xe0 ≤ UInt8.ofNat (0xe0 + k) ∧ (UInt8.ofNat (0xe0 + k)).toNat = 0xe0 + k := by decide
  simp only [head?, hb k h, if_true, if_false]

-- A number just below zero is written as the octet from `0xe0` on.
theorem exists_octet_of_neg {i : Int} (hn : i < 0) (hi : -0x20 ≤ i) : ∃ k < 0x20,
    twosComplement 1 i = 0xe0 + k ∧
    bigEndian 1 (twosComplement 1 i) = [UInt8.ofNat (0xe0 + k)] := by
  have hw : Nat.pow 256 1 = 0x100 := rfl
  have ht := twosComplement_of_neg 1 hn (by omega)
  obtain ⟨k, hk⟩ := Nat.exists_eq_add_of_le (show 0xe0 ≤ twosComplement 1 i by omega)
  refine ⟨k, by omega, hk, ?_⟩
  rw [hk, bigEndian, bigEndian, Nat.pow, Nat.div_one, Nat.mod_eq_of_lt (by omega)]

theorem head?_signed {i : Int} (hn : i < 0) (h : -0x8000000000000000 ≤ i) :
    head? (signedOctets i ++ rest) = some (.item (.signed i), rest) := by
  unfold signedOctets
  split
  case isTrue hi =>
    obtain ⟨k, hk, ht, he⟩ := exists_octet_of_neg hn hi
    have hv := ofTwosComplement_twosComplement 1 hn (Int.le_trans (by decide) hi)
    rw [ht] at hv
    rw [he, List.singleton_append, head?_negative hk, hv]
  split
  case isTrue hi => exact signed?_bigEndian 1 hn hi
  split
  case isTrue hi => exact signed?_bigEndian 2 hn hi
  split
  case isTrue hi => exact signed?_bigEndian 4 hn hi
  case isFalse => exact signed?_bigEndian 8 hn h

theorem head?_text {bs : Bytes} (h : bs.length < 0x100000000) :
    head? (textHead bs.length ++ (bs ++ rest)) = some (.item (.text bs), rest) := by
  have ht := text?_append bs rest
  unfold textHead
  split
  case isTrue hn =>
    have hb : ∀ n < 0x20, ¬ UInt8.ofNat (0xa0 + n) < 0x80 ∧ ¬ UInt8.ofNat (0xa0 + n) < 0x90 ∧
      ¬ UInt8.ofNat (0xa0 + n) < 0xa0 ∧ UInt8.ofNat (0xa0 + n) < 0xc0 ∧
      (UInt8.ofNat (0xa0 + n)).toNat - 0xa0 = n := by decide
    simp only [List.cons_append, List.nil_append, head?, hb _ hn, if_true, if_false, ht]
  split
  case isTrue hn => simp [head?, number?_bigEndian 1 hn, ht]
  split
  case isTrue hn => simp [head?, number?_bigEndian 2 hn, ht]
  case isFalse   => simp [head?, number?_bigEndian 4 h, ht]

theorem head?_binary {bs : Bytes} (h : bs.length < 0x100000000) :
    head? (binaryHead bs.length ++ (bs ++ rest)) = some (.item (.binary bs), rest) := by
  have ht := binary?_append bs rest
  unfold binaryHead
  split
  case isTrue hn => simp [head?, number?_bigEndian 1 hn, ht]
  split
  case isTrue hn => simp [head?, number?_bigEndian 2 hn, ht]
  case isFalse   => simp [head?, number?_bigEndian 4 h, ht]

theorem head?_array {n : Nat} (h : n < 0x100000000) :
    head? (arrayHead n ++ rest) = some (.array n, rest) := by
  unfold arrayHead
  split
  case isTrue hn =>
    have hb : ∀ n < 0x10, ¬ UInt8.ofNat (0x90 + n) < 0x80 ∧ ¬ UInt8.ofNat (0x90 + n) < 0x90 ∧
      UInt8.ofNat (0x90 + n) < 0xa0 ∧ (UInt8.ofNat (0x90 + n)).toNat - 0x90 = n := by decide
    simp only [List.cons_append, List.nil_append, head?, hb _ hn, if_true, if_false]
  split
  case isTrue hn => simp [head?, number?_bigEndian 2 hn]
  case isFalse   => simp [head?, number?_bigEndian 4 h]

theorem head?_map {n : Nat} (h : n < 0x100000000) :
    head? (mapHead n ++ rest) = some (.map n, rest) := by
  unfold mapHead
  split
  case isTrue hn =>
    have hb : ∀ n < 0x10, ¬ UInt8.ofNat (0x80 + n) < 0x80 ∧ UInt8.ofNat (0x80 + n) < 0x90 ∧
      (UInt8.ofNat (0x80 + n)).toNat - 0x80 = n := by decide
    simp only [List.cons_append, List.nil_append, head?, hb _ hn, if_true, if_false]
  split
  case isTrue hn => simp [head?, number?_bigEndian 2 hn]
  case isFalse   => simp [head?, number?_bigEndian 4 h]

mutual

def Item.depth : Item → Nat
  | .array items => depthItems items + 1
  | .map entries => depthEntries entries + 1
  | _ => 0

def depthItems : List Item → Nat
  | [] => 0
  | x :: xs => max x.depth (depthItems xs)

def depthEntries : List (Item × Item) → Nat
  | [] => 0
  | (k, x) :: xs => max (max k.depth x.depth) (depthEntries xs)

end

mutual

-- What the format has octets for: numbers of sixty-four bits, those with a sign below zero, and
-- lengths of thirty-two.
def Item.Fits : Item → Prop
  | .unsigned n => n < 0x10000000000000000
  | .signed i => -0x8000000000000000 ≤ i ∧ i < 0
  | .text octets | .binary octets => octets.length < 0x100000000
  | .array items => items.length < 0x100000000 ∧ FitsItems items
  | .map entries => entries.length < 0x100000000 ∧ FitsEntries entries
  | .nil | .bool _ | .float _ | .extension => True

def FitsItems : List Item → Prop
  | [] => True
  | x :: xs => x.Fits ∧ FitsItems xs

def FitsEntries : List (Item × Item) → Prop
  | [] => True
  | (k, x) :: xs => k.Fits ∧ x.Fits ∧ FitsEntries xs

end

-- An item whose octets say it whole needs no room for containers.
theorem item?_of_head? {bs : Bytes} {i : Item} (h : head? bs = some (.item i, rest)) (depth : Nat) :
    item? depth bs = some (i, rest) := by
  cases depth <;> simp [item?, h]

theorem head?_float (x : Binary64) :
    head? (0xcb :: bigEndian 8 x.bits.toNat ++ rest) = some (.item (.float x), rest) := by
  simp [head?, number?_bigEndian 8 x.bits.toNat_lt]

mutual

theorem item?_octets : (i : Item) → i.Fits → (depth : Nat) → i.depth ≤ depth → (rest : Bytes) →
    item? depth (i.octets ++ rest) = some (i, rest)
  | .nil, _, depth, _, _ | .bool true, _, depth, _, _ | .bool false, _, depth, _, _
  | .extension, _, depth, _, _ => item?_of_head? rfl depth
  | .unsigned _, h, depth, _, _ => item?_of_head? (head?_unsigned h) depth
  | .signed _, h, depth, _, _ => item?_of_head? (head?_signed h.2 h.1) depth
  | .float x, _, depth, _, _ => item?_of_head? (head?_float x) depth
  | .text bs, h, depth, _, rest => by
    rw [Item.octets, List.append_assoc]
    exact item?_of_head? (head?_text h) depth
  | .binary bs, h, depth, _, rest => by
    rw [Item.octets, List.append_assoc]
    exact item?_of_head? (head?_binary h) depth
  | .array xs, h, depth + 1, hd, rest => by
    have hi := items?_octets xs h.2 depth (Nat.le_of_succ_le_succ hd) rest
    rw [Item.octets, List.append_assoc, item?, head?_array h.1]
    simp [hi]
  | .map xs, h, depth + 1, hd, rest => by
    have hi := entries?_octets xs h.2 depth (Nat.le_of_succ_le_succ hd) rest
    rw [Item.octets, List.append_assoc, item?, head?_map h.1]
    simp [hi]

theorem items?_octets : (xs : List Item) → FitsItems xs → (depth : Nat) → depthItems xs ≤ depth →
    (rest : Bytes) → items? (item? depth) xs.length (itemsOctets xs ++ rest) = some (xs, rest)
  | [], _, _, _, _ => rfl
  | x :: xs, h, depth, hd, rest => by
    have hx := item?_octets x h.1 depth (Nat.le_trans (Nat.le_max_left ..) hd)
    have hi := items?_octets xs h.2 depth (Nat.le_trans (Nat.le_max_right ..) hd) rest
    rw [itemsOctets, List.append_assoc, List.length_cons, items?, hx]
    simp [hi]

theorem entries?_octets : (xs : List (Item × Item)) → FitsEntries xs → (depth : Nat) →
    depthEntries xs ≤ depth → (rest : Bytes) →
    entries? (item? depth) xs.length (entriesOctets xs ++ rest) = some (xs, rest)
  | [], _, _, _, _ => rfl
  | (k, x) :: xs, h, depth, hd, rest => by
    have hp : max k.depth x.depth ≤ depth := Nat.le_trans (Nat.le_max_left ..) hd
    have hk := item?_octets k h.1 depth (Nat.le_trans (Nat.le_max_left ..) hp)
    have hx := item?_octets x h.2.1 depth (Nat.le_trans (Nat.le_max_right ..) hp)
    have hi := entries?_octets xs h.2.2 depth (Nat.le_trans (Nat.le_max_right ..) hd) rest
    rw [entriesOctets, List.append_assoc, List.append_assoc, List.length_cons, entries?, hk]
    simp [hx, hi]

end

theorem ofOctets?_octets {i : Item} (h : i.Fits) (hd : i.depth ≤ depthLimit) :
    ofOctets? i.octets = some i := by
  have hi := item?_octets i h depthLimit hd []
  rw [List.append_nil] at hi
  simp [ofOctets?, hi]

-- An octet that no number of one octet and no blank has.
def Marks (bs : Bytes) : Prop := ∃ b rest, bs = b :: rest ∧ 0x80 ≤ b

theorem marks_textHead (n : Nat) (bs : Bytes) : Marks (textHead n ++ bs) := by
  unfold textHead
  split
  case isTrue hn =>
    have hb : ∀ n < 0x20, 0x80 ≤ UInt8.ofNat (0xa0 + n) := by decide
    exact ⟨_, _, rfl, hb n hn⟩
  split
  case isTrue => exact ⟨_, _, rfl, by decide⟩
  split
  all_goals exact ⟨_, _, rfl, by decide⟩

theorem marks_binaryHead (n : Nat) (bs : Bytes) : Marks (binaryHead n ++ bs) := by
  unfold binaryHead
  split
  case isTrue => exact ⟨_, _, rfl, by decide⟩
  split
  all_goals exact ⟨_, _, rfl, by decide⟩

theorem marks_arrayHead (n : Nat) (bs : Bytes) : Marks (arrayHead n ++ bs) := by
  unfold arrayHead
  split
  case isTrue hn =>
    have hb : ∀ n < 0x10, 0x80 ≤ UInt8.ofNat (0x90 + n) := by decide
    exact ⟨_, _, rfl, hb n hn⟩
  split
  all_goals exact ⟨_, _, rfl, by decide⟩

theorem marks_mapHead (n : Nat) (bs : Bytes) : Marks (mapHead n ++ bs) := by
  unfold mapHead
  split
  case isTrue hn =>
    have hb : ∀ n < 0x10, 0x80 ≤ UInt8.ofNat (0x80 + n) := by decide
    exact ⟨_, _, rfl, hb n hn⟩
  split
  all_goals exact ⟨_, _, rfl, by decide⟩

theorem marks_unsigned {n : Nat} (h : 0x80 ≤ n) : Marks (unsignedOctets n) := by
  rw [unsignedOctets, if_neg (Nat.not_lt.mpr h)]
  split
  case isTrue => exact ⟨_, _, rfl, by decide⟩
  split
  case isTrue => exact ⟨_, _, rfl, by decide⟩
  split
  all_goals exact ⟨_, _, rfl, by decide⟩

theorem marks_signed {i : Int} (hn : i < 0) : Marks (signedOctets i) := by
  unfold signedOctets
  split
  case isTrue hi =>
    obtain ⟨k, hk, -, he⟩ := exists_octet_of_neg hn hi
    have hb : ∀ k < 0x20, 0x80 ≤ UInt8.ofNat (0xe0 + k) := by decide
    exact ⟨_, _, he, hb k hk⟩
  split
  case isTrue => exact ⟨_, _, rfl, by decide⟩
  split
  case isTrue => exact ⟨_, _, rfl, by decide⟩
  split
  all_goals exact ⟨_, _, rfl, by decide⟩

-- Only a number that takes a single octet begins with anything below the marks.
theorem Item.marks (i : Item) (h : i.Fits) : (∃ n < 0x80, i = .unsigned n) ∨ Marks i.octets := by
  cases i
  case nil => exact .inr ⟨_, _, rfl, by decide⟩
  case bool b => cases b <;> exact .inr ⟨_, _, rfl, by decide⟩
  case unsigned n =>
    rcases Nat.lt_or_ge n 0x80 with hn | hn
    · exact .inl ⟨n, hn, rfl⟩
    · exact .inr (marks_unsigned hn)
  case signed i => exact .inr (marks_signed h.2)
  case float => exact .inr ⟨_, _, rfl, by decide⟩
  case text bs => exact .inr (marks_textHead _ _)
  case binary bs => exact .inr (marks_binaryHead _ _)
  case array xs => exact .inr (marks_arrayHead _ _)
  case map xs => exact .inr (marks_mapHead _ _)
  case extension => exact .inr ⟨_, _, rfl, by decide⟩

-- The numbers whose octet is that of a blank.
def blankNumbers : List Nat := [0x09, 0x0a, 0x0c, 0x0d, 0x20]

theorem all_isBlank_octets_iff {i : Item} (h : i.Fits) :
    i.octets.all Bytes.isBlank ↔ ∃ n ∈ blankNumbers, i = .unsigned n := by
  constructor
  case mp =>
    intro hb
    obtain ⟨n, hn, rfl⟩ | ⟨b, rest, he, hm⟩ := i.marks h
    · have hl : ∀ n < 0x80, Bytes.isBlank (UInt8.ofNat n) → n ∈ blankNumbers := by decide
      rw [Item.octets, unsignedOctets, if_pos hn] at hb
      exact ⟨n, hl n hn (by simpa using hb), rfl⟩
    · have hl : ¬ Bytes.isBlank b := by
        simp only [Bytes.isBlank, Bool.or_eq_true, decide_eq_true_eq]
        rintro ((((rfl | rfl) | rfl) | rfl) | rfl) <;> exact absurd hm (by decide)
      rw [he, List.all_cons, Bool.and_eq_true] at hb
      exact absurd hb.1 hl
  case mpr =>
    rintro ⟨n, hn, rfl⟩
    have hl : ∀ n ∈ blankNumbers, (Item.unsigned n).octets.all Bytes.isBlank := by decide
    exact hl n hn

end MessagePack
end CallFabric
