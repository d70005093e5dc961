import CallFabric.Text.Blank

namespace CallFabric.Text

variable {separator : Char} {cs piece : List Char}

theorem exists_cons_of_not_mem {s : String} (hs : s ≠ "") (hn : separator ∉ s.toList) :
    ∃ c cs, s.toList = c :: cs ∧ c ≠ separator := by
  obtain ⟨c, cs, hc⟩ := List.exists_cons_of_ne_nil (mt String.toList_eq_nil_iff.mp hs)
  exact ⟨c, cs, hc, fun he => hn (by simp [hc, he])⟩

theorem dropWhile_in_front {s : String} (hs : s ≠ "") (hn : separator ∉ s.toList)
    (cs : List Char) : (s.toList ++ cs).dropWhile (· = separator) = s.toList ++ cs := by
  obtain ⟨c, more, hc, hne⟩ := exists_cons_of_not_mem hs hn
  rw [hc]
  exact List.dropWhile_cons_of_neg (by simpa using hne)

section

variable {α : Type} [DecidableEq α] {separator : α} {piece : List α}

theorem takeWhile_of_not_mem (h : separator ∉ piece) (cs : List α) :
    (piece ++ cs).takeWhile (· ≠ separator) = piece ++ cs.takeWhile (· ≠ separator) :=
  List.takeWhile_append_of_pos fun _ hc => decide_eq_true fun he => h (he ▸ hc)

theorem dropWhile_of_not_mem (h : separator ∉ piece) (cs : List α) :
    (piece ++ cs).dropWhile (· ≠ separator) = cs.dropWhile (· ≠ separator) :=
  List.dropWhile_append_of_pos fun _ hc => decide_eq_true fun he => h (he ▸ hc)

end

theorem splitFirst?_of_not_mem {s : String} (h : separator ∉ s.toList) :
    splitFirst? separator s = none := by
  have hd : s.toList.dropWhile (· ≠ separator) = [] := by
    simpa using dropWhile_of_not_mem h []
  rw [splitFirst?, hd]

theorem splitFirst?_append (h : separator ∉ piece) (rest : List Char) :
    splitFirst? separator (.ofList (piece ++ separator :: rest)) =
      some (.ofList piece, .ofList rest) := by
  rw [splitFirst?, String.toList_ofList, dropWhile_of_not_mem h, takeWhile_of_not_mem h]
  simp

theorem splitChars_ne_nil (separator : Char) (cs : List Char) : splitChars separator cs ≠ [] := by
  cases cs
  case nil       => exact List.cons_ne_nil _ _
  case cons c cs =>
    rw [splitChars]
    split
    · exact List.cons_ne_nil _ _
    · split <;> exact List.cons_ne_nil _ _

theorem splitChars_separator (separator : Char) (rest : List Char) :
    splitChars separator (separator :: rest) = [] :: splitChars separator rest := by
  obtain ⟨p, more, hr⟩ := List.exists_cons_of_ne_nil (splitChars_ne_nil separator rest)
  rw [splitChars, hr]
  exact if_pos rfl

theorem splitChars_of_not_mem (h : separator ∉ cs) : splitChars separator cs = [cs] := by
  induction cs
  case nil          => rfl
  case cons c cs hi =>
    obtain ⟨hc, hs⟩ := not_or.mp (mt List.mem_cons.mpr h)
    rw [splitChars, hi hs]
    exact if_neg (Ne.symm hc)

theorem splitChars_append (separator : Char) (cs rest : List Char) :
    splitChars separator (cs ++ separator :: rest) =
      splitChars separator cs ++ splitChars separator rest := by
  induction cs
  case nil          => exact splitChars_separator separator rest
  case cons c cs hi =>
    obtain ⟨p, more, hp⟩ := List.exists_cons_of_ne_nil (splitChars_ne_nil separator cs)
    rw [List.cons_append, splitChars, hi, splitChars, hp]
    by_cases hc : c = separator <;> simp [hc]

end CallFabric.Text
