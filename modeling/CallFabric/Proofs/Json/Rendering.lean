import CallFabric.Proofs.Json.Reading
import CallFabric.Proofs.Text.Utf8

namespace CallFabric.Json

open Bytes (IsText)

theorem escapeOctet_ascii : ∀ n < 128, (escapeOctet (.ofNat n)).all (· < 0x80) := by decide

theorem escapeOctet_high {b : UInt8} (h : 0x80 ≤ b) : escapeOctet b = [b] := by
  have hn {c : UInt8} (hc : c < 0x80) : ¬ b = c := fun he =>
    absurd (UInt8.lt_of_le_of_lt h (he ▸ hc)) (UInt8.lt_irrefl _)
  have hc : ¬ b < 0x20 := fun hb =>
    absurd (UInt8.lt_trans (UInt8.lt_of_le_of_lt h hb) (by decide)) (UInt8.lt_irrefl (0x80 : UInt8))
  simp [escapeOctet, hn, hc]

theorem flatMap_escapeOctet_high {bs : Bytes} (h : ∀ b ∈ bs, 0x80 ≤ b) :
    bs.flatMap escapeOctet = bs := by
  induction bs
  case nil => rfl
  case cons b bs hi =>
    rw [List.flatMap_cons, escapeOctet_high (h b List.mem_cons_self),
      hi fun c hc => h c (List.mem_cons_of_mem b hc)]
    rfl

-- Octets of characters beyond ASCII stay as they are, and of what is written for the others all
-- are ASCII.
theorem isText_escaped (s : String) : IsText (escaped s) := by
  rw [escaped, Bytes.ofText_eq, List.flatMap_assoc]
  refine .flatMap (fun c => ?_) s.toList
  rcases Nat.lt_or_ge c.toNat 128 with hc | hc
  · have he := Bytes.encode_ascii c.toNat hc
    rw [Char.ofNat_toNat] at he
    rw [he, List.flatMap_singleton]
    exact .ascii (escapeOctet_ascii _ hc)
  · rw [flatMap_escapeOctet_high (Utf8.encode_high hc)]
    exact .char c

theorem isText_quote (s : String) : IsText (quote s) :=
  .cons (by decide) ((isText_escaped s).append (.ascii (by decide)))

theorem isText_natText (n : Nat) : IsText (natText n) :=
  .ascii <| List.all_eq_true.mpr fun b hb => by
    have hd := isDigit_natText b hb
    simp only [Bytes.isDigit, Bool.and_eq_true, decide_eq_true_eq, UInt8.le_iff_toNat_le] at hd
    exact decide_eq_true (UInt8.lt_iff_toNat_lt.mpr (Nat.lt_of_le_of_lt hd.2 (by decide)))

theorem isText_intText (i : Int) : IsText (intText i) := by
  unfold intText
  split
  case isTrue  => exact .cons (by decide) (isText_natText _)
  case isFalse => exact isText_natText _

mutual

theorem isText_text : (v : Json) → v.Plain → IsText v.text
  | .null, _ | .bool true, _ | .bool false, _ | .arr [], _ | .obj [], _ => .ascii (by decide)
  | .int i, _   => isText_intText i
  | .float _, h => h.elim
  | .str s, _   => isText_quote s
  | .arr (x :: xs), h =>
    .cons (by decide) ((isText_text x h.1).append (isText_itemsText xs h.2))
  | .obj ((k, x) :: xs), h => by
    have hm := isText_member k x h.1 (isText_membersText xs h.2)
    exact .cons (b := 0x7b) (by decide) (by simpa using hm)

theorem isText_itemsText : (xs : List Json) → PlainItems xs → IsText (itemsText xs)
  | [], _ => .ascii (by decide)
  | x :: xs, h => .cons (by decide) ((isText_text x h.1).append (isText_itemsText xs h.2))

theorem isText_membersText : (xs : List (String × Json)) → PlainMembers xs →
    IsText (membersText xs)
  | [], _ => .ascii (by decide)
  | (k, x) :: xs, h => by
    have hm := isText_member k x h.1 (isText_membersText xs h.2)
    exact .cons (b := 0x2c) (by decide) (by simpa using hm)

theorem isText_member (k : String) (x : Json) (hx : x.Plain) {rest : Bytes} (hr : IsText rest) :
    IsText (quote k ++ (0x3a :: (x.text ++ rest))) :=
  (isText_quote k).append (.cons (by decide) ((isText_text x hx).append hr))

end

theorem ofText_render {v : Json} (h : v.Plain) : Bytes.ofText v.render = v.text := by
  obtain ⟨s, hs⟩ := isText_text v h
  rw [render, ← hs, Bytes.text?_ofText, Option.getD_some]

end CallFabric.Json
