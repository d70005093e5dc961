namespace CallFabric

-- Most significant first; only zero starts with the digit zero.
def digits (n : Nat) : List Nat :=
  if n < 10 then [n] else digits (n / 10) ++ [n % 10]

def ofDigits (ds : List Nat) : Nat :=
  ds.foldl (fun n d => n * 10 + d) 0

@[simp] theorem ofDigits_append_singleton (ds : List Nat) (d : Nat) :
    ofDigits (ds ++ [d]) = ofDigits ds * 10 + d := by
  simp [ofDigits]

theorem ofDigits_digits (n : Nat) : ofDigits (digits n) = n := by
  fun_induction digits n with
  | case1 n h => simp [ofDigits]
  | case2 n h ih => rw [ofDigits_append_singleton, ih]; omega

theorem lt_ten_of_mem_digits {n d : Nat} (h : d ∈ digits n) : d < 10 := by
  fun_induction digits n with
  | case1 n hn => simp at h; omega
  | case2 n hn ih =>
    rcases List.mem_append.1 h with h | h
    · exact ih h
    · simp at h; omega

theorem digits_ne_nil (n : Nat) : digits n ≠ [] := by
  fun_induction digits n with
  | case1 n h => simp
  | case2 n h ih => simp

end CallFabric
