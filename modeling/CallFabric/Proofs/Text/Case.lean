import CallFabric.Http.Headers
import CallFabric.Proofs.Text.Utf8

namespace CallFabric

namespace Text

-- A character is its own lower case, or it is one of the capitals.
theorem lowerChar_cases {p : Char → Char → Prop} (same : ∀ c, p c c)
    (capital : ∀ n < 91, 65 ≤ n → p (.ofNat n) (lowerChar (.ofNat n))) (c : Char) :
    p c (lowerChar c) := by
  by_cases h : 'A' ≤ c ∧ c ≤ 'Z'
  case neg =>
    rw [lowerChar, if_neg h]
    exact same c
  case pos =>
    simp only [Char.le_def, UInt32.le_iff_toNat_le] at h
    have := capital c.toNat (Nat.lt_succ_of_le h.2) h.1
    rwa [Char.ofNat_toNat] at this

theorem lowerChar_lowerChar (c : Char) : lowerChar (lowerChar c) = lowerChar c :=
  lowerChar_cases (p := fun c d => lowerChar d = lowerChar c) (fun _ => rfl) (by decide) c

theorem lowerChar_eq_iff {d : Char}
    (hd : ∀ n < 91, 65 ≤ n → (lowerChar (.ofNat n) = d ↔ .ofNat n = d)) (c : Char) :
    lowerChar c = d ↔ c = d :=
  lowerChar_cases (p := fun c e => e = d ↔ c = d) (fun _ => .rfl) hd c

theorem isBlank_lowerChar (c : Char) : isBlank (lowerChar c) = isBlank c :=
  lowerChar_cases (p := fun c d => isBlank d = isBlank c) (fun _ => rfl) (by decide) c

theorem isTokenChar_lowerChar (c : Char) :
    Headers.isTokenChar (lowerChar c) = Headers.isTokenChar c :=
  lowerChar_cases (p := fun c d => Headers.isTokenChar d = Headers.isTokenChar c) (fun _ => rfl)
    (by decide) c

theorem lower_lower (s : String) : lower (lower s) = lower s := by
  rw [lower, lower, String.toList_ofList, List.map_map]
  exact congrArg _ (List.map_congr_left fun c _ => lowerChar_lowerChar c)

theorem trimChars_map {f : Char → Char} (h : ∀ c, isBlank (f c) = isBlank c) (cs : List Char) :
    trimChars (cs.map f) = (trimChars cs).map f := by
  have hp : isBlank ∘ f = isBlank := funext h
  simp only [trimChars, trimEnd, List.dropWhile_map, hp, ← List.map_reverse]

theorem trim_lower (s : String) : trim (lower s) = lower (trim s) := by
  rw [trim, lower, String.toList_ofList, trimChars_map isBlank_lowerChar, lower, trim,
    String.toList_ofList]

section
variable {α β : Type} [DecidableEq α] [DecidableEq β] {f : α → α} {stop : α} {p : α → Bool}

-- Changes what stands before the first separator.
def mapUntil (f : α → α) (stop : α) : List α → List α
  | [] => []
  | a :: as => if a = stop then a :: as else f a :: mapUntil f stop as

theorem takeWhile_mapUntil (hf : ∀ a, p (f a) = p a) (hs : p stop = false) (as : List α) :
    (mapUntil f stop as).takeWhile p = (as.takeWhile p).map f := by
  induction as
  case nil          => rfl
  case cons a as hi =>
    rw [mapUntil]
    split
    case isTrue h  => simp [h, hs]
    case isFalse   => simp only [List.takeWhile_cons, hf, hi]; split <;> rfl

theorem dropWhile_mapUntil (hf : ∀ a, p (f a) = p a) (hs : p stop = false) (as : List α) :
    (mapUntil f stop as).dropWhile p = mapUntil f stop (as.dropWhile p) := by
  induction as
  case nil          => rfl
  case cons a as hi =>
    rw [mapUntil, List.dropWhile_cons]
    split
    case isTrue h  => simp [h, hs, mapUntil]
    case isFalse h =>
      rw [List.dropWhile_cons, hf, hi]
      split
      · rfl
      · rw [mapUntil, if_neg h]

theorem all_mapUntil (hf : ∀ a, p (f a) = p a) (as : List α) :
    (mapUntil f stop as).all p = as.all p := by
  induction as
  case nil          => rfl
  case cons a as hi =>
    rw [mapUntil]
    split
    · rfl
    · rw [List.all_cons, List.all_cons, hf, hi]

theorem map_mapUntil {g : α → β} {f' : β → β} {stop' : β} (hg : ∀ a, g a = stop' ↔ a = stop)
    (hf : ∀ a, g (f a) = f' (g a)) (as : List α) :
    (mapUntil f stop as).map g = mapUntil f' stop' (as.map g) := by
  induction as
  case nil          => rfl
  case cons a as hi =>
    rw [List.map_cons, mapUntil, mapUntil]
    by_cases h : a = stop
    case pos => rw [if_pos h, if_pos ((hg a).mpr h), List.map_cons]
    case neg => rw [if_neg h, if_neg (mt (hg a).mp h), List.map_cons, hf, hi]

theorem mapUntil_eq_append (f : α → α) (stop : α) (as : List α) :
    mapUntil f stop as = (as.takeWhile (· ≠ stop)).map f ++ as.dropWhile (· ≠ stop) := by
  induction as
  case nil          => rfl
  case cons a as hi =>
    rw [mapUntil]
    by_cases h : a = stop
    case pos => simp [h]
    case neg => simp [h, hi]

-- The same comes out where the parts in front come out the same, and the rest is the same.
theorem mapUntil_eq_iff (hf : ∀ a, f a = stop ↔ a = stop) {as bs : List α} :
    mapUntil f stop as = mapUntil f stop bs ↔
      (as.takeWhile (· ≠ stop)).map f = (bs.takeWhile (· ≠ stop)).map f ∧
      as.dropWhile (· ≠ stop) = bs.dropWhile (· ≠ stop) := by
  have hp (a : α) : decide (f a ≠ stop) = decide (a ≠ stop) :=
    decide_eq_decide.mpr (not_congr (hf a))
  constructor
  case mpr =>
    rintro ⟨ht, hd⟩
    rw [mapUntil_eq_append, ht, hd, ← mapUntil_eq_append]
  case mp =>
    intro h
    have ht := congrArg (List.takeWhile (· ≠ stop)) h
    rw [takeWhile_mapUntil hp (by simp), takeWhile_mapUntil hp (by simp)] at ht
    refine ⟨ht, ?_⟩
    rw [mapUntil_eq_append, mapUntil_eq_append f stop bs, ht] at h
    exact List.append_cancel_left h

end
end Text

namespace Bytes

def lowerOctet (b : UInt8) : UInt8 := .ofNat (Text.lowerChar (charOf b)).toNat

theorem forall_octet {p : UInt8 → Prop} (h : ∀ n < 256, p (.ofNat n)) (b : UInt8) : p b := by
  have := h b.toNat b.toNat_lt
  rwa [UInt8.ofNat_toNat] at this

theorem charOf_lowerOctet (b : UInt8) : charOf (lowerOctet b) = Text.lowerChar (charOf b) :=
  forall_octet (p := fun b => charOf (lowerOctet b) = Text.lowerChar (charOf b))
    (by decide +kernel) b

theorem charOf_eq_semicolon (b : UInt8) : charOf b = ';' ↔ b = 0x3b :=
  forall_octet (p := fun b => charOf b = ';' ↔ b = 0x3b) (by decide +kernel) b

theorem lowerOctet_eq_semicolon (b : UInt8) : lowerOctet b = 0x3b ↔ b = 0x3b :=
  forall_octet (p := fun b => lowerOctet b = 0x3b ↔ b = 0x3b) (by decide +kernel) b

theorem isVisible_lowerOctet (b : UInt8) : Headers.isVisible (lowerOctet b) = Headers.isVisible b :=
  forall_octet (p := fun b => Headers.isVisible (lowerOctet b) = Headers.isVisible b)
    (by decide +kernel) b

end Bytes
end CallFabric
