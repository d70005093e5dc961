import CallFabric.Proofs.Fault.RoundTrip

namespace CallFabric.Fault

def openingChars : List Char := ['\x7b', '"']

theorem ne_of_high {b c : UInt8} (h : 0x80 ≤ b) (hc : c < 0x80) : b ≠ c := by
  rintro rfl
  exact absurd (UInt8.lt_of_le_of_lt h hc) (UInt8.lt_irrefl _)

theorem fromOpening?_high {bs : Bytes} (h : ∀ b ∈ bs, 0x80 ≤ b) (rest : Bytes) :
    fromOpening? (bs ++ rest) = fromOpening? rest := by
  induction bs
  case nil => rfl
  case cons b bs hi =>
    obtain ⟨hb, hs⟩ := List.forall_mem_cons.mp h
    rw [List.cons_append, fromOpening?_cons, if_neg fun hn => ne_of_high hb (by decide) hn.1, hi hs]

theorem head?_flatMap_encode (cs : List Char) :
    (cs.flatMap String.utf8EncodeChar).head? = some 0x22 ↔ cs.head? = some '"' := by
  cases cs
  case nil => simp
  case cons c cs =>
    obtain ⟨n, hn, rfl, he⟩ | ⟨⟨b, bs, he, hh⟩, hc⟩ := Utf8.encode_ascii_or_high c
    · have hq : ∀ n < 128, UInt8.ofNat n = 0x22 ↔ Char.ofNat n = '"' := by decide
      simp [he, hq n hn]
    · have hb : b ≠ 0x22 := ne_of_high (hh b List.mem_cons_self) (by decide)
      have hc : c ≠ '"' := by
        rintro rfl
        exact absurd hc (by decide)
      simp [he, hb, hc]

theorem fromOpening?_flatMap_encode (cs : List Char) :
    fromOpening? (cs.flatMap String.utf8EncodeChar) = none ↔ ¬ openingChars <:+: cs := by
  induction cs
  case nil => simp [fromOpening?, openingChars]
  case cons c cs hi =>
    have hp : openingChars <+: c :: cs ↔ c = '\x7b' ∧ cs.head? = some '"' := by
      rw [openingChars, List.cons_prefix_cons]
      cases cs <;> simp [List.cons_prefix_cons, eq_comm]
    rw [List.infix_cons_iff, hp, not_or, ← hi, ← head?_flatMap_encode, List.flatMap_cons]
    obtain ⟨n, hn, rfl, he⟩ | ⟨⟨b, bs, he, hh⟩, hc⟩ := Utf8.encode_ascii_or_high c
    · have hb : ∀ n < 128, UInt8.ofNat n = 0x7b ↔ Char.ofNat n = '\x7b' := by decide
      rw [he, List.singleton_append, fromOpening?_cons]
      simp only [hb n hn]
      split
      case isTrue ho  => simp [ho]
      case isFalse ho => simp [ho]
    · have hc : c ≠ '\x7b' := by
        rintro rfl
        exact absurd hc (by decide)
      rw [he, fromOpening?_high hh]
      simp [hc]

-- Search in the octets finds what stands in the text, for beyond ASCII no octet is that of a brace
-- or a quote.
theorem fromOpening?_ofText (s : String) :
    fromOpening? (Bytes.ofText s) = none ↔ ¬ openingChars <:+: s.toList := by
  rw [Bytes.ofText_eq, fromOpening?_flatMap_encode]

-- A fault is read from any text that carries its text, whatever stands before it without opening an
-- object and whatever follows. So a text is read the same once it was read and written again, also
-- where it carried no fault.
theorem parse_embedding :
    (∀ (f : Fault) (before after : String), ¬ openingChars <:+: before.toList →
      parse (before ++ f.render ++ after) = f) ∧
    ∀ message, parse (parse message).render = parse message :=
  ⟨fun f _ after h => f.parse_append ((fromOpening?_ofText _).mpr h) after, fun _ => parse_render _⟩

-- A brace right before it, objects in its message and behind it.
theorem parse_embedding_among_objects :
    ¬ openingChars <:+: "desc = \"\x7b\x7d\" \x7b".toList ∧
    parse ("desc = \"\x7b\x7d\" \x7b" ++ (business (-2) "\x7b\"code\":1\x7d \\ é").render ++
        "\x7b\"code\":0,\"status\":404,\"msg\":\"\"\x7d") =
      business (-2) "\x7b\"code\":1\x7d \\ é" := by
  have h : ¬ openingChars <:+: "desc = \"\x7b\x7d\" \x7b".toList := by
    simp [openingChars, List.infix_cons_iff, List.cons_prefix_cons]
  exact ⟨h, parse_embedding.1 _ _ _ h⟩

end CallFabric.Fault
