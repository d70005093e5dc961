import CallFabric.Proofs.Codec.Fidelity

namespace CallFabric.Codec

variable {c c' : Codec} {s : Shape} {default : Datum} {payload payload' : Bytes} {v x : Json}

-- Of a payload that is not blank only the value in it matters.
theorem decodeOver_congr (hb : ¬ payload.all Bytes.isBlank) (hb' : ¬ payload'.all Bytes.isBlank)
    (hv : c.decodeValue payload = .ok v) (hv' : c'.decodeValue payload' = .ok v) :
    c.decodeOver s default payload = c'.decodeOver s default payload' := by
  rw [decodeOver, if_neg hb, hv, decodeOver, if_neg hb', hv']

theorem not_looksEmpty_json {d : Datum} : ¬ json.LooksEmpty d :=
  fun h => nomatch h.1

theorem looksEmpty_messagePack_iff :
    messagePack.LooksEmpty (.json x) ↔ ∃ n ∈ MessagePack.blankNumbers, x = .int n :=
  and_iff_right rfl

-- Whatever the type and its default, what is decoded of `x` in the two formats is the same value or
-- the same error, unless `x` is one of the numbers that MessagePack writes as a blank. Such a
-- payload is taken for an empty one and makes the default, which JSON makes of the number by chance
-- only.
theorem decodeOver_agrees_iff (s : Shape) (default : Datum) (hx : x.Plain)
    (hd : x.depth ≤ Json.Written.depthLimit) (hf : (Datum.json x).toItem.Fits) :
    ∃ packed text, messagePack.encode (.json x) = .ok packed ∧ json.encode (.json x) = .ok text ∧
      (messagePack.decodeOver s default packed = json.decodeOver s default text ↔
        (∃ n ∈ MessagePack.blankNumbers, x = .int n) →
          json.decodeOver s default text = .ok default) ∧
      ((∃ n ∈ MessagePack.blankNumbers, x = .int n) →
        messagePack.decodeOver s default packed = .ok default) := by
  have hp : (Datum.json x).Plain := .json hx
  have hc (c : Codec) : c.Holds (.json x) := holds_of_depth_le hp hd fun _ => hf
  obtain ⟨packed, hm⟩ := exists_encode hp messagePack
  obtain ⟨text, ht⟩ := exists_encode hp json
  have hbm := (all_isBlank_iff hp (hc _) hm).trans looksEmpty_messagePack_iff
  have hbt := mt (all_isBlank_iff hp (hc _) ht).mp not_looksEmpty_json
  refine ⟨packed, text, hm, ht, ?agree, fun hn => decodeOver_of_blank (hbm.mpr hn)⟩
  by_cases hn : ∃ n ∈ MessagePack.blankNumbers, x = .int n
  case pos => rw [decodeOver_of_blank (hbm.mpr hn), forall_prop_of_true hn, eq_comm]
  case neg =>
    exact iff_of_true
      (decodeOver_congr (mt hbm.mp hn) hbt (decodeValue_encode hp (hc _) hm)
        (decodeValue_encode hp (hc _) ht))
      fun h => absurd h hn

-- A profile of which the payload has one field.
theorem partial_profile_agrees : ∃ packed text,
    messagePack.encode (.json (.obj [("id", .int 5)])) = .ok packed ∧
    json.encode (.json (.obj [("id", .int 5)])) = .ok text ∧
    messagePack.decodeOver Demo.profile Demo.profileInitial packed =
      json.decodeOver Demo.profile Demo.profileInitial text := by
  have hf : (Datum.json (.obj [("id", .int 5)])).toItem.Fits := by
    simp only [Datum.toItem, Datum.itemOfJson, Datum.entriesOfJson, Datum.key,
      MessagePack.Item.ofInt]
    simp [MessagePack.Item.Fits, MessagePack.FitsEntries]
    decide
  have hx : (Json.obj [("id", .int 5)]).Plain := ⟨⟨by decide, by decide⟩, trivial⟩
  obtain ⟨packed, text, hm, ht, hr, -⟩ :=
    decodeOver_agrees_iff Demo.profile Demo.profileInitial hx (by decide) hf
  refine ⟨packed, text, hm, ht, hr.mpr ?_⟩
  rintro ⟨_, _, hn⟩
  cases hn

-- Ten as a line feed is read as nothing, ten as two digits as ten.
theorem ten_read_differently :
    (Json.int 10).Plain ∧ (Json.int 10).depth ≤ Json.Written.depthLimit ∧
    messagePack.encode (.json (.int 10)) = .ok [0x0a] ∧
    json.encode (.json (.int 10)) = .ok [0x31, 0x30] ∧
    messagePack.decodeOver .i64 (.int 0) [0x0a] = .ok (.int 0) ∧
    json.decodeOver .i64 (.int 0) [0x31, 0x30] = .ok (.int 10) := by
  exact ⟨⟨by decide, by decide⟩, by decide, rfl, by cbv, rfl, rfl⟩

end CallFabric.Codec
