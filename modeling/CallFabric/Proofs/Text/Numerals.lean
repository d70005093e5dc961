import CallFabric.Text.Blank

namespace CallFabric.Text

theorem toList_toString (n : Nat) : (toString n).toList = Nat.toDigits 10 n := by
  simp

theorem bounds_of_mem_toString {n : Nat} {c : Char} (h : c ∈ (toString n).toList) :
    0x30 ≤ c.toNat ∧ c.toNat ≤ 0x39 := by
  have hd : c.isDigit := Nat.isDigit_of_mem_toDigits (b := 10) (n := n) (by decide) (by decide)
    (by simpa using h)
  simp only [Char.isDigit, ge_iff_le, Bool.and_eq_true, decide_eq_true_eq, UInt32.le_iff_toNat_le]
    at hd
  exact hd

theorem isDigit_of_mem_toString {n : Nat} {c : Char} (h : c ∈ (toString n).toList) :
    isDigit c := by
  simpa [isDigit, Char.le_def, UInt32.le_iff_toNat_le] using bounds_of_mem_toString h

theorem isBlank_of_mem_toString {n : Nat} {c : Char} (h : c ∈ (toString n).toList) :
    isBlank c = false := by
  have hb := bounds_of_mem_toString h
  simp [isBlank]
  omega

theorem dropWhile_isBlank {cs : List Char} (h : ∀ c ∈ cs, isBlank c = false) :
    cs.dropWhile isBlank = cs := by
  cases cs
  case nil       => rfl
  case cons c cs => exact List.dropWhile_cons_of_neg (by simp [h c List.mem_cons_self])

theorem trim_eq_self {s : String} (h : ∀ c ∈ s.toList, isBlank c = false) : trim s = s := by
  have hr : ∀ c ∈ s.toList.reverse, isBlank c = false := fun c hc => h c (List.mem_reverse.mp hc)
  rw [trim, trimChars, trimEnd, dropWhile_isBlank h, dropWhile_isBlank hr, List.reverse_reverse,
    String.ofList_toList]

theorem natOfDigits?_eq {cs : List Char} (hn : cs ≠ []) (hd : ∀ c ∈ cs, isDigit c) :
    natOfDigits? cs = some (cs.foldl (fun n d => n * 10 + (d.toNat - 0x30)) 0) := by
  obtain ⟨c, cs, rfl⟩ := List.exists_cons_of_ne_nil hn
  have hp : c ≠ '+' := by
    rintro rfl
    exact absurd (hd '+' List.mem_cons_self) (by decide)
  have ha : (c :: cs).all isDigit := List.all_eq_true.mpr hd
  unfold natOfDigits?
  split
  case h_1 he => exact absurd (List.cons.inj he).1 hp
  case h_2    => simp [ha]

-- What a number is written as is read as that number, if it is not too great.
theorem word64?_trim_toString (n : Nat) :
    word64? (trim (toString n)) = if n < 0x10000000000000000 then some n else none := by
  have hn : (toString n).toList ≠ [] := by simp [Nat.toDigits_ne_nil]
  have hf : (toString n).toList.foldl (fun n d => n * 10 + (d.toNat - 0x30)) 0 = n := by
    rw [toList_toString]
    have h := Nat.ofDigitChars_ten_toDigits (n := n)
    simpa [Nat.ofDigitChars_eq_foldl, Nat.mul_comm] using h
  rw [trim_eq_self fun c => isBlank_of_mem_toString, word64?,
    natOfDigits?_eq hn fun c => isDigit_of_mem_toString, hf, Option.bind_some]

end CallFabric.Text
