import CallFabric.Text.Utf8

namespace CallFabric

namespace Utf8

-- An octet that goes on with a character, from the low bits of a number.
def further (n : Nat) : UInt8 := UInt8.ofNat (n % 64 + 128)

theorem toNat_further (n : Nat) : (further n).toNat = n % 64 + 128 := by
  simp [further]
  omega

theorem further_bounds {low high n : Nat} (hl : low ≤ n % 64 + 128) (hg : n % 64 + 128 ≤ high)
    (hh : high < 256) : UInt8.ofNat low ≤ further n ∧ further n ≤ UInt8.ofNat high := by
  simp only [UInt8.le_iff_toNat_le, toNat_further, UInt8.toNat_ofNat']
  omega

theorem continued_cons {low high b : UInt8} (h : low ≤ b ∧ b ≤ high) (wanted : Nat) (bs : Bytes) :
    continued low high (wanted + 1) (b :: bs) = continued 0x80 0xbf wanted bs + 1 := by
  simp [continued, h, Nat.add_comm]

theorem continued_further (n wanted : Nat) (bs : Bytes) :
    continued 0x80 0xbf (wanted + 1) (further n :: bs) = continued 0x80 0xbf wanted bs + 1 :=
  continued_cons (@further_bounds 0x80 0xbf n (by omega) (by omega) (by decide)) wanted bs

-- A character is read where as many octets go on with it as its first one asks for.
theorem first_of_continued {size : Nat} {lead low high : UInt8} {more rest : Bytes}
    (hs : shape? lead = some (size, low, high))
    (hc : continued low high (size - 1) (more ++ rest) = more.length)
    (hl : more.length + 1 = size) :
    first lead (more ++ rest) = (Char.ofNat (codePoint size (lead :: more)), more.length) := by
  simp [first, hs, hc, hl]

theorem shape?_one : ∀ n < 128, shape? (.ofNat n) = some (1, 0, 0) := by decide

theorem shape?_two : ∀ n < 32, 2 ≤ n → shape? (.ofNat (n + 192)) = some (2, 0x80, 0xbf) := by
  decide

-- What is written shorter, and what is half of a surrogate pair, is no character.
theorem shape?_three : ∀ n < 16, shape? (.ofNat (n + 224)) =
    some (3, .ofNat (if n = 0 then 0xa0 else 0x80), .ofNat (if n = 13 then 0x9f else 0xbf)) := by
  decide

theorem shape?_four : ∀ n < 5, shape? (.ofNat (n + 240)) =
    some (4, .ofNat (if n = 0 then 0x90 else 0x80), .ofNat (if n = 4 then 0x8f else 0xbf)) := by
  decide

-- One case for each number of octets that a character has.
theorem first_encode (c : Char) : ∃ lead more, String.utf8EncodeChar c = lead :: more ∧
    ∀ rest, first lead (more ++ rest) = (c, more.length) := by
  have hv : c.toNat.isValidChar := c.valid
  have hc : Char.ofNat c.toNat = c := Char.ofNat_toNat c
  have hn : c.val.toNat = c.toNat := rfl
  simp only [Nat.isValidChar] at hv
  simp only [String.utf8EncodeChar, hn]
  generalize c.toNat = n at hv hc
  split
  case isTrue h =>
    refine ⟨_, _, rfl, fun rest => ?_⟩
    rw [first_of_continued (shape?_one n (by omega)) (by simp [continued]) rfl]
    simp only [codePoint, List.foldl_nil, UInt8.toNat_ofNat', List.length_nil, ← hc]
    congr 2
    omega
  case isFalse h =>
  split
  case isTrue h₂ =>
    refine ⟨_, [further n], rfl, fun rest => ?_⟩
    have hs := shape?_two (n / 64 % 32) (by omega) (by omega)
    rw [first_of_continued hs (continued_further n 0 rest) rfl]
    simp only [codePoint, List.foldl_cons, List.foldl_nil, UInt8.toNat_ofNat', toNat_further, ← hc]
    congr 2
    omega
  case isFalse h₂ =>
  split
  case isTrue h₃ =>
    refine ⟨_, [further (n / 64), further n], rfl, fun rest => ?_⟩
    have hs := shape?_three (n / 4096 % 16) (by omega)
    rw [first_of_continued hs ?_ rfl]
    · simp only [codePoint, List.foldl_cons, List.foldl_nil, UInt8.toNat_ofNat', toNat_further,
        ← hc]
      congr 2
      omega
    · refine (continued_cons (further_bounds ?_ ?_ ?_) 1 _).trans
        (congrArg (· + 1) (continued_further n 0 rest))
      all_goals split <;> omega
  case isFalse h₃ =>
    refine ⟨_, [further (n / 4096), further (n / 64), further n], rfl, fun rest => ?_⟩
    have hs := shape?_four (n / 262144 % 8) (by omega)
    rw [first_of_continued hs ?_ rfl]
    · simp only [codePoint, List.foldl_cons, List.foldl_nil, UInt8.toNat_ofNat', toNat_further,
        ← hc]
      congr 2
      omega
    · refine (continued_cons (further_bounds ?_ ?_ ?_) 2 _).trans (congrArg (· + 1)
        ((continued_further _ 1 _).trans (congrArg (· + 1) (continued_further n 0 rest))))
      all_goals split <;> omega

theorem chars_encode (c : Char) (rest : Bytes) :
    chars (String.utf8EncodeChar c ++ rest) = c :: chars rest := by
  obtain ⟨lead, more, he, hf⟩ := first_encode c
  rw [he, List.cons_append, chars, hf]
  simp

end Utf8

namespace Bytes

theorem ofText_ofList (cs : List Char) :
    ofText (.ofList cs) = cs.flatMap String.utf8EncodeChar := by
  simp [ofText, List.utf8Encode]

theorem ofText_eq (s : String) : ofText s = s.toList.flatMap String.utf8EncodeChar := by
  rw [← ofText_ofList, String.ofList_toList]

theorem ofText_append (s t : String) : ofText (s ++ t) = ofText s ++ ofText t := by
  simp [ofText]

theorem lossy_ofText (s : String) : (ofText s).lossy = s := by
  have hc (cs : List Char) : Utf8.chars (cs.flatMap String.utf8EncodeChar) = cs := by
    induction cs
    case nil          => simp [Utf8.chars]
    case cons c cs hi => rw [List.flatMap_cons, Utf8.chars_encode, hi]
  rw [lossy, ofText_eq, hc, String.ofList_toList]

-- The character that has the number of an octet.
def charOf (b : UInt8) : Char := .ofNat b.toNat

theorem encode_ascii : ∀ n < 128, String.utf8EncodeChar (.ofNat n) = [UInt8.ofNat n] := by decide

theorem ofText_charOf {bs : Bytes} (h : bs.all (· < 0x80)) :
    ofText (.ofList (bs.map charOf)) = bs := by
  rw [ofText_ofList]
  induction bs
  case nil          => rfl
  case cons b bs hi =>
    rw [List.all_cons, Bool.and_eq_true, decide_eq_true_eq] at h
    have hb := encode_ascii b.toNat (UInt8.lt_iff_toNat_lt.mp h.1)
    rw [UInt8.ofNat_toNat] at hb
    rw [List.map_cons, List.flatMap_cons, hi h.2, charOf, hb, List.singleton_append]

def IsText (bs : Bytes) : Prop := ∃ s, ofText s = bs

namespace IsText

theorem ofText (s : String) : IsText (ofText s) := ⟨s, rfl⟩

theorem char (c : Char) : IsText (String.utf8EncodeChar c) :=
  ⟨.ofList [c], by rw [ofText_ofList, List.flatMap_singleton]⟩

theorem append {bs cs : Bytes} (hb : IsText bs) (hc : IsText cs) : IsText (bs ++ cs) := by
  obtain ⟨s, rfl⟩ := hb
  obtain ⟨t, rfl⟩ := hc
  exact ⟨s ++ t, ofText_append s t⟩

theorem flatMap {α : Type} {f : α → Bytes} (h : ∀ a, IsText (f a)) (as : List α) :
    IsText (as.flatMap f) := by
  induction as
  case nil          => exact ⟨"", rfl⟩
  case cons a as hi => exact (h a).append hi

theorem ascii {bs : Bytes} (h : bs.all (· < 0x80)) : IsText bs :=
  ⟨_, ofText_charOf h⟩

theorem cons {b : UInt8} {bs : Bytes} (hb : b < 0x80) (h : IsText bs) : IsText (b :: bs) :=
  append (@ascii [b] (by simpa using hb)) h

end IsText
end Bytes

namespace Utf8

theorem encode_high {c : Char} (h : 128 ≤ c.toNat) : ∀ b ∈ String.utf8EncodeChar c, 0x80 ≤ b := by
  have hn : c.val.toNat = c.toNat := rfl
  simp only [String.utf8EncodeChar, hn]
  split
  case isTrue => omega
  case isFalse =>
    split
    case isTrue => simp [UInt8.le_iff_toNat_le]; omega
    case isFalse => split <;> simp [UInt8.le_iff_toNat_le] <;> omega

theorem encode_ascii_or_high (c : Char) :
    (∃ n < 128, c = .ofNat n ∧ String.utf8EncodeChar c = [UInt8.ofNat n]) ∨
    (∃ b bs, String.utf8EncodeChar c = b :: bs ∧ ∀ x ∈ b :: bs, 0x80 ≤ x) ∧ 128 ≤ c.toNat := by
  rcases Nat.lt_or_ge c.toNat 128 with hc | hc
  · have he := Bytes.encode_ascii c.toNat hc
    rw [Char.ofNat_toNat] at he
    exact .inl ⟨c.toNat, hc, (Char.ofNat_toNat c).symm, he⟩
  · obtain ⟨b, bs, hb, -⟩ := first_encode c
    exact .inr ⟨⟨b, bs, hb, hb ▸ encode_high hc⟩, hc⟩

end Utf8
end CallFabric
