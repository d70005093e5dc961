import CallFabric.Json.Text
import CallFabric.Json.Written

namespace CallFabric.Json

open Written

def escaped (s : String) : Bytes := (Bytes.ofText s).flatMap escapeOctet

theorem quote_eq (s : String) : quote s = 0x22 :: (escaped s ++ [0x22]) := rfl

namespace Written

theorem stringTail?_quote (rest : Bytes) : stringTail? (0x22 :: rest) = some ([], rest) := by
  simp [stringTail?]

theorem stringTail?_plain {b : UInt8} (hl : 0x20 ≤ b) (hq : b ≠ 0x22) (hs : b ≠ 0x5c)
    (rest : Bytes) :
    stringTail? (b :: rest) = (stringTail? rest).map fun (octets, rest) => (b :: octets, rest) := by
  have hn : ¬ b < 0x20 := by simpa using hl
  rw [stringTail?]
  case x_1 => exact fun h => absurd h hq
  all_goals simp_all [UInt8.not_lt.mpr hl]

theorem stringTail?_simple {b : UInt8} (hb : (simpleEscape? b).isSome) (rest : Bytes) :
    stringTail? (0x5c :: b :: rest) =
      (stringTail? rest).map fun (octets, rest) => (0x5c :: b :: octets, rest) := by
  rw [stringTail?]
  · simp [hb]
  · rintro _ _ _ _ _ rfl _
    exact absurd hb (by decide)

theorem stringTail?_hex {h₁ h₂ h₃ h₄ : UInt8} (h : isHex h₁ && isHex h₂ && isHex h₃ && isHex h₄)
    (rest : Bytes) :
    stringTail? (0x5c :: 0x75 :: h₁ :: h₂ :: h₃ :: h₄ :: rest) =
      (stringTail? rest).map fun (octets, rest) =>
        (0x5c :: 0x75 :: h₁ :: h₂ :: h₃ :: h₄ :: octets, rest) := by
  rw [stringTail?, if_pos h]

theorem unescape?_plain {b : UInt8} (h : b ≠ 0x5c) (rest : Bytes) :
    unescape? (b :: rest) = (unescape? rest).map (b :: ·) := by
  rw [unescape?]
  all_goals simp_all

theorem unescape?_simple {b c : UInt8} (h : simpleEscape? b = some c) (rest : Bytes) :
    unescape? (0x5c :: b :: rest) = (unescape? rest).map (c :: ·) := by
  rw [unescape?]
  · simp [h]
  · rintro _ _ _ _ _ rfl _
    exact absurd h (by simp [simpleEscape?])

theorem unescape?_hex {h₁ h₂ h₃ h₄ : UInt8} (h : hexQuad h₁ h₂ h₃ h₄ < 0x80) (rest : Bytes) :
    unescape? (0x5c :: 0x75 :: h₁ :: h₂ :: h₃ :: h₄ :: rest) =
      (unescape? rest).map (UInt8.ofNat (hexQuad h₁ h₂ h₃ h₄) :: ·) := by
  have hh : isHighHalf (hexQuad h₁ h₂ h₃ h₄) = false := by simp [isHighHalf]; omega
  have hl : isLowHalf (hexQuad h₁ h₂ h₃ h₄) = false := by simp [isLowHalf]; omega
  rw [unescape?.eq_def]
  simp [hh, hl, Utf8.encode, h]

-- The digits of a control character below the sixteenth part of the first block.
theorem hexDigits_control {b : UInt8} (h : b < 0x20) :
    (isHex 0x30 && isHex 0x30 && isHex (Bytes.hexDigit (b.toNat / 16)) &&
      isHex (Bytes.hexDigit (b.toNat % 16))) ∧
    hexQuad 0x30 0x30 (Bytes.hexDigit (b.toNat / 16)) (Bytes.hexDigit (b.toNat % 16)) =
      b.toNat := by
  have hn : ∀ n < 32,
      (isHex 0x30 && isHex 0x30 && isHex (Bytes.hexDigit (n / 16)) &&
        isHex (Bytes.hexDigit (n % 16))) ∧
      hexQuad 0x30 0x30 (Bytes.hexDigit (n / 16)) (Bytes.hexDigit (n % 16)) = n := by decide
  exact hn b.toNat h

-- How an octet of a string is written: as a letter or as digits behind a backslash, or as it is.
inductive Escapes (b : UInt8) : Bytes → Prop
  | simple (c : UInt8) (h : simpleEscape? c = some b) : Escapes b [0x5c, c]
  | hex (h : b < 0x20) : Escapes b
      [0x5c, 0x75, 0x30, 0x30, Bytes.hexDigit (b.toNat / 16), Bytes.hexDigit (b.toNat % 16)]
  | plain (hl : 0x20 ≤ b) (hq : b ≠ 0x22) (hs : b ≠ 0x5c) : Escapes b [b]

theorem escapes (b : UInt8) : Escapes b (escapeOctet b) := by
  unfold escapeOctet
  split
  case isTrue h => exact h ▸ .simple 0x22 rfl
  case isFalse hq =>
    split
    case isTrue h => exact h ▸ .simple 0x5c rfl
    case isFalse hs =>
      split
      case isTrue h => exact h ▸ .simple 0x62 rfl
      split
      case isTrue h => exact h ▸ .simple 0x66 rfl
      split
      case isTrue h => exact h ▸ .simple 0x6e rfl
      split
      case isTrue h => exact h ▸ .simple 0x72 rfl
      split
      case isTrue h => exact h ▸ .simple 0x74 rfl
      split
      case isTrue h  => exact .hex h
      case isFalse h => exact .plain (UInt8.not_lt.mp h) hq hs

theorem stringTail?_escape (octets rest : Bytes) :
    stringTail? (octets.flatMap escapeOctet ++ 0x22 :: rest) =
      some (octets.flatMap escapeOctet, rest) := by
  induction octets
  case nil => exact stringTail?_quote rest
  case cons b octets hi =>
    have he := escapes b
    rw [List.flatMap_cons, List.append_assoc]
    generalize escapeOctet b = e at he ⊢
    cases he <;> simp only [List.cons_append, List.nil_append]
    case simple c h     => rw [stringTail?_simple (h ▸ rfl), hi]; rfl
    case hex h          => rw [stringTail?_hex (hexDigits_control h).1, hi]; rfl
    case plain hl hq hs => rw [stringTail?_plain hl hq hs, hi]; rfl

theorem unescape?_escape (octets : Bytes) :
    unescape? (octets.flatMap escapeOctet) = some octets := by
  induction octets
  case nil => rfl
  case cons b octets hi =>
    have he := escapes b
    rw [List.flatMap_cons]
    generalize escapeOctet b = e at he ⊢
    cases he <;> simp only [List.cons_append, List.nil_append]
    case simple c h     => rw [unescape?_simple h, hi]; rfl
    case plain hl hq hs => rw [unescape?_plain hs, hi]; rfl
    case hex h =>
      have hd := (hexDigits_control h).2
      have hl : b.toNat < 0x80 := Nat.lt_trans h (by decide)
      rw [unescape?_hex (by rwa [hd]), hi, hd, UInt8.ofNat_toNat]
      rfl

theorem text?_escaped (s : String) : text? (escaped s) = some s := by
  simp [text?, escaped, unescape?_escape, Bytes.text?_ofText]

theorem stringTail?_escaped (s : String) (rest : Bytes) :
    stringTail? (escaped s ++ 0x22 :: rest) = some (escaped s, rest) :=
  stringTail?_escape _ rest

end Written

-- Nothing that a number could go on with.
def Stops (rest : Bytes) : Prop := ∀ b ∈ rest.head?, b = 0x2c ∨ b = 0x5d ∨ b = 0x7d

namespace Stops

variable {rest : Bytes}

-- What holds of nothing and of what begins with a mark that ends a value.
theorem elim {motive : Bytes → Prop} (h : Stops rest) (nil : motive [])
    (comma : ∀ bs, motive (0x2c :: bs)) (bracket : ∀ bs, motive (0x5d :: bs))
    (brace : ∀ bs, motive (0x7d :: bs)) : motive rest := by
  cases rest
  case nil => exact nil
  case cons b bs =>
    obtain rfl | rfl | rfl := h b rfl
    · exact comma bs
    · exact bracket bs
    · exact brace bs

theorem takeWhile (h : Stops rest) : rest.takeWhile Bytes.isDigit = [] := by
  apply h.elim <;> intros <;> rfl

theorem dropWhile (h : Stops rest) : rest.dropWhile Bytes.isDigit = rest := by
  apply h.elim <;> intros <;> rfl

theorem fractionPart? (h : Stops rest) : fractionPart? rest = some ([], rest) := by
  apply h.elim <;> intros <;> rfl

theorem exponentPart? (h : Stops rest) : exponentPart? rest = some (none, rest) := by
  apply h.elim <;> intros <;> rfl

end Stops

theorem isDigit_digit {d : Nat} (h : d < 10) :
    Bytes.isDigit (UInt8.ofNat (0x30 + d)) ∧ (UInt8.ofNat (0x30 + d)).toNat - 0x30 = d := by
  have hn : ∀ d < 10,
      Bytes.isDigit (UInt8.ofNat (0x30 + d)) ∧
      (UInt8.ofNat (0x30 + d)).toNat - 0x30 = d := by decide
  exact hn d h

theorem isDigit_natText {n : Nat} : ∀ b ∈ natText n, Bytes.isDigit b := by
  intro b hb
  obtain ⟨d, hd, rfl⟩ := List.mem_map.mp hb
  exact (isDigit_digit (lt_ten_of_mem_digits hd)).1

theorem natText_ne_nil (n : Nat) : natText n ≠ [] := by
  simp [natText, digits_ne_nil]

-- No number but zero is written with a zero in front.
theorem head?_digits {n : Nat} (h : n ≠ 0) : (digits n).head? ≠ some 0 := by
  fun_induction digits n
  case case1 => simpa using h
  case case2 n hn hi =>
    have hne : digits (n / 10) ≠ [] := digits_ne_nil _
    rw [List.head?_append, List.head?_eq_some_head hne, Option.some_or,
      ← List.head?_eq_some_head hne]
    exact hi (by omega)

def numeral (i : Int) : Numeral := ⟨i < 0, digits i.natAbs, [], none⟩

namespace Written

variable {rest : Bytes}

theorem digitValues_natText (n : Nat) : digitValues (natText n) = digits n := by
  have hd : ∀ d ∈ digits n, (UInt8.ofNat (0x30 + d)).toNat - 0x30 = d := fun d hd =>
    (isDigit_digit (lt_ten_of_mem_digits hd)).2
  rw [digitValues, natText, List.map_map]
  exact (List.map_congr_left hd).trans (List.map_id _)

theorem digits?_natText (n : Nat) (h : Stops rest) :
    digits? (natText n ++ rest) = some (digits n, rest) := by
  have hn := natText_ne_nil n
  simp only [digits?, List.takeWhile_append_of_pos isDigit_natText,
    List.dropWhile_append_of_pos isDigit_natText, h.takeWhile, h.dropWhile, List.append_nil]
  simp [hn, digitValues_natText]

theorem wholePart?_natText (n : Nat) (h : Stops rest) :
    wholePart? (natText n ++ rest) = some (digits n, rest) := by
  simp only [wholePart?, digits?_natText n h, Option.bind_some]
  refine if_neg fun ⟨hz, hl⟩ => ?_
  rcases Decidable.em (n = 0) with rfl | hn
  · simp [digits] at hl
  · exact head?_digits hn hz

theorem numeral?_intText (i : Int) (h : Stops rest) :
    numeral? (intText i ++ rest) = some (numeral i, rest) := by
  have hw := wholePart?_natText i.natAbs h
  rcases Int.lt_or_le i 0 with hi | hi
  · simp [numeral?, intText, hi, numeral, hw, h.fractionPart?, h.exponentPart?]
  · have hn : ¬ i < 0 := Int.not_lt.mpr hi
    obtain ⟨b, bs, hb⟩ := List.exists_cons_of_ne_nil (natText_ne_nil i.natAbs)
    have hd : b ≠ 0x2d := by
      rintro rfl
      exact absurd (isDigit_natText 0x2d (hb ▸ List.mem_cons_self)) (by decide)
    rw [hb, List.cons_append] at hw
    rw [intText, if_neg hn, hb, List.cons_append, numeral?]
    · simp [hw, h.fractionPart?, h.exponentPart?, numeral, hn]
    · exact fun _ heq => hd (List.cons.inj heq).1

end Written

theorem le_foldl_digits (ds : List Nat) (n : Nat) : n ≤ ds.foldl (fun n d => n * 10 + d) n := by
  induction ds generalizing n
  case nil => exact Nat.le_refl n
  case cons d ds hi =>
    have hn : n ≤ n * 10 + d := by omega
    exact Nat.le_trans hn (hi _)

theorem accumulate_eq {n : Nat} {ds : List Nat}
    (h : ds.foldl (fun n d => n * 10 + d) n ≤ Numeral.greatest) :
    Numeral.accumulate n ds = (ds.foldl (fun n d => n * 10 + d) n, []) := by
  induction ds generalizing n
  case nil => rfl
  case cons d ds hi =>
    have hn : n * 10 + d ≤ Numeral.greatest := Nat.le_trans (le_foldl_digits ds _) h
    rw [Numeral.accumulate, if_pos hn]
    exact hi h

theorem value?_numeral {i : Int} (hl : -0x8000000000000000 ≤ i) (hg : i < 0x10000000000000000) :
    (numeral i).value? = some (.int i) := by
  have hd : (digits i.natAbs).foldl (fun n d => n * 10 + d) 0 = i.natAbs := ofDigits_digits _
  have ha : Numeral.accumulate 0 (digits i.natAbs) = (i.natAbs, []) := by
    refine (accumulate_eq ?_).trans (by rw [hd])
    rw [hd, Numeral.greatest]
    omega
  rcases Int.lt_or_le i 0 with hi | hi
  · have hm : ¬ (i.natAbs = 0 ∨ 0x8000000000000000 < i.natAbs) := by omega
    have hv : -(i.natAbs : Int) = i := by omega
    simp only [Numeral.value?, numeral, ha, hi, hm, hv, List.isEmpty_nil, Option.isNone_none,
      Bool.and_self, decide_true, Bool.not_true, if_true, if_false, Bool.false_eq_true]
  · have hn : ¬ i < 0 := Int.not_lt.mpr hi
    have hv : (i.natAbs : Int) = i := by omega
    simp only [Numeral.value?, numeral, ha, hn, hv, List.isEmpty_nil, Option.isNone_none,
      Bool.and_self, decide_false, Bool.not_false, if_true]

end CallFabric.Json
