import CallFabric.Proofs.Text.Utf8

namespace CallFabric.Utf8

-- The octets that a character begins with: how many it has, and the bounds of the second one.
inductive Leads : UInt8 → Nat → UInt8 → UInt8 → Prop
  | one {n : Nat} (h : n < 128) : Leads (.ofNat n) 1 0 0
  | two {n : Nat} (h : 2 ≤ n ∧ n < 32) : Leads (.ofNat (n + 192)) 2 0x80 0xbf
  | three {n : Nat} (h : n < 16) : Leads (.ofNat (n + 224)) 3
      (.ofNat (if n = 0 then 0xa0 else 0x80)) (.ofNat (if n = 13 then 0x9f else 0xbf))
  | four {n : Nat} (h : n < 5) : Leads (.ofNat (n + 240)) 4
      (.ofNat (if n = 0 then 0x90 else 0x80)) (.ofNat (if n = 4 then 0x8f else 0xbf))

-- What only goes on with a character begins none, nor does what would be written shorter.
theorem shape?_below : ∀ n < 66, shape? (.ofNat (n + 128)) = none := by decide

theorem shape?_beyond : ∀ n < 11, shape? (.ofNat (n + 245)) = none := by decide

theorem leads_of_shape? {lead low high : UInt8} {size : Nat}
    (hs : shape? lead = some (size, low, high)) : Leads lead size low high := by
  have he : lead = .ofNat lead.toNat := UInt8.ofNat_toNat.symm
  have hn : lead.toNat < 256 := lead.toNat_lt
  generalize lead.toNat = n at he hn
  subst he
  have hr : n < 128 ∨ (128 ≤ n ∧ n < 194) ∨ (194 ≤ n ∧ n < 224) ∨ (224 ≤ n ∧ n < 240) ∨
      (240 ≤ n ∧ n < 245) ∨ 245 ≤ n := by omega
  rcases hr with h | ⟨hl, h⟩ | ⟨hl, h⟩ | ⟨hl, h⟩ | ⟨hl, h⟩ | hl
  · cases (shape?_one n h).symm.trans hs
    exact .one h
  · obtain ⟨n, rfl⟩ := Nat.exists_eq_add_of_le' hl
    cases (shape?_below n (by omega)).symm.trans hs
  · obtain ⟨n, rfl⟩ := Nat.exists_eq_add_of_le' (Nat.le_trans (by decide : 192 ≤ 194) hl)
    have hn : 2 ≤ n ∧ n < 32 := by omega
    cases (shape?_two n hn.2 hn.1).symm.trans hs
    exact .two hn
  · obtain ⟨n, rfl⟩ := Nat.exists_eq_add_of_le' hl
    have hn : n < 16 := by omega
    cases (shape?_three n hn).symm.trans hs
    exact .three hn
  · obtain ⟨n, rfl⟩ := Nat.exists_eq_add_of_le' hl
    have hn : n < 5 := by omega
    cases (shape?_four n hn).symm.trans hs
    exact .four hn
  · obtain ⟨n, rfl⟩ := Nat.exists_eq_add_of_le' hl
    cases (shape?_beyond n (by omega)).symm.trans hs

theorem Leads.bounds {lead low high : UInt8} {size : Nat} (h : Leads lead size low high) :
    low ≤ high ∧ 0 < size := by
  cases h
  case one   => decide
  case two   => decide
  case three => split <;> split <;> first | decide | omega
  case four  => split <;> split <;> first | decide | omega

theorem toNat_ofNat {n : Nat} (h : n.isValidChar) : (Char.ofNat n).val.toNat = n := by
  rw [Char.ofNat, dif_pos h]
  rfl

theorem encode_two {a b : Nat} (ha : 2 ≤ a ∧ a < 32) (hb : b < 64) :
    String.utf8EncodeChar (.ofNat (a * 64 + b)) = [.ofNat (a + 192), .ofNat (b + 128)] := by
  have hn : (Char.ofNat (a * 64 + b)).val.toNat = a * 64 + b :=
    toNat_ofNat (by simp only [Nat.isValidChar]; omega)
  have h₁ : ¬ a * 64 + b ≤ 127 := by omega
  have h₂ : a * 64 + b ≤ 2047 := by omega
  have hd : (a * 64 + b) / 64 % 32 = a ∧ (a * 64 + b) % 64 = b := by omega
  simp only [String.utf8EncodeChar, hn, h₁, h₂, if_true, if_false, hd]

theorem encode_three {a b c : Nat} (ha : a < 16) (hb : b < 64) (hc : c < 64)
    (hl : a = 0 → 32 ≤ b) (hs : a = 13 → b < 32) :
    String.utf8EncodeChar (.ofNat (a * 4096 + b * 64 + c)) =
      [.ofNat (a + 224), .ofNat (b + 128), .ofNat (c + 128)] := by
  have hn : (Char.ofNat (a * 4096 + b * 64 + c)).val.toNat = a * 4096 + b * 64 + c :=
    toNat_ofNat (by simp only [Nat.isValidChar]; omega)
  generalize he : a * 4096 + b * 64 + c = n at hn ⊢
  have h₁ : ¬ n ≤ 127 := by omega
  have h₂ : ¬ n ≤ 2047 := by omega
  have h₃ : n ≤ 65535 := by omega
  have hd : n / 4096 % 16 = a ∧ n / 64 % 64 = b ∧ n % 64 = c := by omega
  simp only [String.utf8EncodeChar, hn, h₁, h₂, h₃, if_true, if_false, hd]

theorem encode_four {a b c d : Nat} (ha : a < 5) (hb : b < 64) (hc : c < 64) (hd : d < 64)
    (hl : a = 0 → 16 ≤ b) (hs : a = 4 → b < 16) :
    String.utf8EncodeChar (.ofNat (a * 262144 + b * 4096 + c * 64 + d)) =
      [.ofNat (a + 240), .ofNat (b + 128), .ofNat (c + 128), .ofNat (d + 128)] := by
  have hn : (Char.ofNat (a * 262144 + b * 4096 + c * 64 + d)).val.toNat =
      a * 262144 + b * 4096 + c * 64 + d :=
    toNat_ofNat (by simp only [Nat.isValidChar]; omega)
  generalize he : a * 262144 + b * 4096 + c * 64 + d = n at hn ⊢
  have h₁ : ¬ n ≤ 127 := by omega
  have h₂ : ¬ n ≤ 2047 := by omega
  have h₃ : ¬ n ≤ 65535 := by omega
  have hd : n / 262144 % 8 = a ∧ n / 4096 % 64 = b ∧ n / 64 % 64 = c ∧ n % 64 = d := by omega
  simp only [String.utf8EncodeChar, hn, h₁, h₂, h₃, if_false, hd]

-- Octets that go on with a character which has some left, the first of them between two bounds.
def GoesOn (low high : UInt8) : Nat → Bytes → Prop
  | _, []               => True
  | 0, _ :: _           => False
  | wanted + 1, b :: bs => (low ≤ b ∧ b ≤ high) ∧ GoesOn 0x80 0xbf wanted bs

-- One that goes on with a character holds six bits of its number.
theorem exists_of_bounds {low high : Nat} {b : UInt8} (h : .ofNat low ≤ b ∧ b ≤ .ofNat high)
    (hl : 128 ≤ low ∧ low < 256) (hh : high < 192) :
    ∃ n, b = .ofNat (n + 128) ∧ low ≤ n + 128 ∧ n + 128 ≤ high := by
  simp only [UInt8.le_iff_toNat_le, UInt8.toNat_ofNat'] at h
  refine ⟨b.toNat - 128, ?_, by omega, by omega⟩
  rw [Nat.sub_add_cancel (by omega), UInt8.ofNat_toNat]

-- One case for each number of octets that a character has.
theorem encode_of_goesOn {lead low high : UInt8} {size : Nat} {more : Bytes}
    (hs : shape? lead = some (size, low, high)) (hm : GoesOn low high (size - 1) more)
    (hl : more.length + 1 = size) : ∃ c, String.utf8EncodeChar c = lead :: more := by
  cases leads_of_shape? hs
  case one n hn =>
    cases List.length_eq_zero_iff.mp (Nat.succ.inj hl)
    exact ⟨_, Bytes.encode_ascii n hn⟩
  case two n hn =>
    match more, hm, hl with
    | [b], hm, _ =>
      obtain ⟨b, rfl, _⟩ := @exists_of_bounds 0x80 0xbf _ hm.1 (by decide) (by decide)
      exact ⟨_, encode_two hn (by omega)⟩
  case three n hn =>
    match more, hm, hl with
    | [b, c], hm, _ =>
      obtain ⟨b, rfl, hb⟩ := exists_of_bounds hm.1 (by split <;> decide) (by split <;> decide)
      obtain ⟨c, rfl, _⟩ := @exists_of_bounds 0x80 0xbf _ hm.2.1 (by decide) (by decide)
      have hb : b < 64 ∧ (n = 0 → 32 ≤ b) ∧ (n = 13 → b < 32) := by
        revert hb
        split <;> split <;> omega
      exact ⟨_, encode_three hn hb.1 (by omega) hb.2.1 hb.2.2⟩
  case four n hn =>
    match more, hm, hl with
    | [b, c, d], hm, _ =>
      obtain ⟨b, rfl, hb⟩ := exists_of_bounds hm.1 (by split <;> decide) (by split <;> decide)
      obtain ⟨c, rfl, _⟩ := @exists_of_bounds 0x80 0xbf _ hm.2.1 (by decide) (by decide)
      obtain ⟨d, rfl, _⟩ := @exists_of_bounds 0x80 0xbf _ hm.2.2.1 (by decide) (by decide)
      have hb : b < 64 ∧ (n = 0 → 16 ≤ b) ∧ (n = 4 → b < 16) := by
        revert hb
        split <;> split <;> omega
      exact ⟨_, encode_four hn hb.1 (by omega) (by omega) hb.2.1 hb.2.2⟩

theorem goesOn_nil (low high : UInt8) (wanted : Nat) : GoesOn low high wanted [] := by
  cases wanted <;> trivial

theorem goesOn_of_prefix {low high : UInt8} {wanted : Nat} {bs more : Bytes}
    (h : GoesOn low high wanted more) (hp : bs <+: more) : GoesOn low high wanted bs := by
  induction bs generalizing low high wanted more
  case nil => exact goesOn_nil low high wanted
  case cons b bs hi =>
    have ⟨more, he⟩ := hp
    subst he
    cases wanted
    case zero   => exact h.elim
    case succ n => exact ⟨h.1, hi h.2 (List.prefix_append bs more)⟩

-- What goes on with a character can be completed to all that it has left.
theorem exists_goesOn {low high : UInt8} {wanted : Nat} {bs : Bytes}
    (h : GoesOn low high wanted bs) (hb : low ≤ high) :
    ∃ more, GoesOn low high wanted (bs ++ more) ∧ (bs ++ more).length = wanted := by
  induction wanted generalizing low high bs
  case zero =>
    cases bs
    case nil  => exact ⟨[], trivial, rfl⟩
    case cons => exact h.elim
  case succ wanted hi =>
    cases bs
    case nil =>
      have ⟨more, hm, hl⟩ := @hi 0x80 0xbf [] (goesOn_nil ..) (by decide)
      exact ⟨low :: more, ⟨⟨UInt8.le_refl low, hb⟩, hm⟩, congrArg (· + 1) hl⟩
    case cons b bs =>
      have ⟨more, hm, hl⟩ := hi h.2 (by decide)
      exact ⟨more, ⟨h.1, hm⟩, congrArg (· + 1) hl⟩

theorem goesOn_take (low high : UInt8) (wanted : Nat) (bs : Bytes) :
    GoesOn low high wanted (bs.take (continued low high wanted bs)) := by
  induction wanted generalizing low high bs
  case zero => exact goesOn_nil ..
  case succ wanted hi =>
    cases bs
    case nil => exact goesOn_nil ..
    case cons b bs =>
      by_cases hb : low ≤ b ∧ b ≤ high
      case pos =>
        rw [continued_cons hb, List.take_succ_cons]
        exact ⟨hb, hi 0x80 0xbf bs⟩
      case neg => simp [continued, hb, goesOn_nil]

theorem continued_le (low high : UInt8) (wanted : Nat) (bs : Bytes) :
    continued low high wanted bs ≤ wanted ∧ continued low high wanted bs ≤ bs.length := by
  fun_induction continued low high wanted bs
  case case3 hi => exact ⟨by omega, by rw [List.length_cons]; omega⟩
  all_goals exact ⟨Nat.zero_le _, Nat.zero_le _⟩

-- No more octets go on with it than are counted.
theorem length_le_continued {low high : UInt8} {wanted : Nat} {bs more : Bytes}
    (h : GoesOn low high wanted more) (hp : more <+: bs) :
    more.length ≤ continued low high wanted bs := by
  induction more generalizing low high wanted bs
  case nil => exact Nat.zero_le _
  case cons b more hi =>
    have ⟨rest, he⟩ := hp
    subst he
    cases wanted
    case zero => exact h.elim
    case succ wanted =>
      rw [List.cons_append, continued_cons h.1]
      exact Nat.succ_le_succ (hi h.2 (List.prefix_append more rest))

theorem encode_shape (c : Char) : ∃ lead more low high, String.utf8EncodeChar c = lead :: more ∧
    shape? lead = some (more.length + 1, low, high) ∧ GoesOn low high more.length more := by
  have ⟨lead, more, he, hf⟩ := first_encode c
  by_cases hc : c = replacement
  case pos =>
    subst hc
    have hr : String.utf8EncodeChar replacement = [0xef, 0xbf, 0xbd] := by decide
    cases he.symm.trans hr
    exact ⟨_, _, 0x80, 0xbf, hr, by decide, by decide, by decide, trivial⟩
  case neg =>
    have hf := hf []
    rw [List.append_nil, first] at hf
    split at hf
    case h_1 => exact absurd (Prod.mk.inj hf).1.symm hc
    case h_2 size low high hs =>
      extract_lets found at hf
      have hg : GoesOn low high (size - 1) (more.take found) := goesOn_take ..
      split at hf
      case isFalse => exact absurd (Prod.mk.inj hf).1.symm hc
      case isTrue h =>
        have hm : found = more.length := (Prod.mk.inj hf).2
        have hz : size = more.length + 1 := hm ▸ h.symm
        rw [hm, List.take_length] at hg
        subst hz
        exact ⟨lead, more, low, high, he, hs, hg⟩

-- Octets that some character begins with.
def Starts (bs : Bytes) : Prop := ∃ c, bs <+: String.utf8EncodeChar c

theorem starts_iff {lead : UInt8} {more : Bytes} : Starts (lead :: more) ↔
    ∃ size low high, shape? lead = some (size, low, high) ∧ GoesOn low high (size - 1) more := by
  constructor
  case mp =>
    intro ⟨c, hp⟩
    have ⟨l, all, low, high, he, hs, hg⟩ := encode_shape c
    rw [he, List.cons_prefix_cons] at hp
    exact ⟨_, low, high, hp.1 ▸ hs, goesOn_of_prefix hg hp.2⟩
  case mpr =>
    intro ⟨size, low, high, hs, hg⟩
    have ⟨hb, hz⟩ := (leads_of_shape? hs).bounds
    have ⟨rest, hr, hl⟩ := exists_goesOn hg hb
    have ⟨c, hc⟩ := encode_of_goesOn hs hr (by omega)
    exact ⟨c, rest, hc.symm⟩

-- Octets that are replaced in front of others: no character stands there, and they are all that one
-- could begin with, or a single octet where none begins so.
structure Broken (bad bs : Bytes) : Prop where
  ne_nil  : bad ≠ []
  no_char : ∀ c, ¬ String.utf8EncodeChar c <+: bad ++ bs
  starts  : bad.length = 1 ∨ Starts bad
  longest : ∀ b, [b] <+: bs → ¬ Starts (bad ++ [b])

-- Octets as characters, what is broken replaced.
inductive Reads : Bytes → List Char → Prop
  | nil : Reads [] []
  | char (c : Char) {bs : Bytes} {cs : List Char} : Reads bs cs →
    Reads (String.utf8EncodeChar c ++ bs) (c :: cs)
  | broken {bad bs : Bytes} {cs : List Char} : Broken bad bs → Reads bs cs →
    Reads (bad ++ bs) (replacement :: cs)

theorem exists_of_encode {c : Char} {lead : UInt8} {rest : Bytes}
    (h : String.utf8EncodeChar c <+: lead :: rest) : ∃ more low high, more <+: rest ∧
    shape? lead = some (more.length + 1, low, high) ∧ GoesOn low high more.length more := by
  have ⟨l, more, low, high, he, hs, hg⟩ := encode_shape c
  rw [he, List.cons_prefix_cons] at h
  exact ⟨more, low, high, h.2, h.1 ▸ hs, hg⟩

theorem broken_of_none {lead : UInt8} (hs : shape? lead = none) (rest : Bytes) :
    Broken [lead] rest where
  ne_nil      := List.cons_ne_nil _ _
  no_char c h := by
    have ⟨_, _, _, _, hc, _⟩ := exists_of_encode h
    cases hs.symm.trans hc
  starts      := .inl rfl
  longest b _ h := by
    have ⟨_, _, _, hc, _⟩ := starts_iff.mp h
    cases hs.symm.trans hc

theorem broken_of_short {lead low high : UInt8} {size found : Nat} {rest : Bytes}
    (hs : shape? lead = some (size, low, high)) (hf : continued low high (size - 1) rest = found)
    (hn : found + 1 ≠ size) : Broken (lead :: rest.take found) (rest.drop found) where
  ne_nil      := List.cons_ne_nil _ _
  no_char c h := by
    rw [List.cons_append, List.take_append_drop] at h
    have ⟨more, _, _, hp, hc, hg⟩ := exists_of_encode h
    cases hs.symm.trans hc
    have hl : more.length ≤ found := hf ▸ length_le_continued hg hp
    have hw : found ≤ more.length := hf ▸ (continued_le ..).1
    exact hn (congrArg (· + 1) (Nat.le_antisymm hw hl))
  starts      := .inr (starts_iff.mpr ⟨size, low, high, hs, hf ▸ goesOn_take ..⟩)
  longest b hb h := by
    have ⟨_, _, _, hc, hg⟩ := starts_iff.mp h
    cases hs.symm.trans hc
    have hp : rest.take found ++ [b] <+: rest := by
      have hp := (List.prefix_append_right_inj (rest.take found)).mpr hb
      rwa [List.take_append_drop] at hp
    have hw : found ≤ rest.length := hf ▸ (continued_le ..).2
    have hl : (rest.take found ++ [b]).length ≤ continued low high (size - 1) rest :=
      length_le_continued hg hp
    rw [hf, List.length_append, List.length_take_of_le hw] at hl
    exact Nat.not_succ_le_self found hl

-- What is replaced in front of others ends at one place only.
theorem Broken.eq_nil {bad more bs rest : Bytes} (h : Broken bad (more ++ bs))
    (hm : Broken (bad ++ more) rest) : more = [] := by
  cases more
  case nil => rfl
  case cons b more =>
    have hl : (bad ++ b :: more).length ≠ 1 := by
      have hn := List.length_pos_iff.mpr h.ne_nil
      simp
      omega
    have ⟨c, hc⟩ := hm.starts.resolve_left hl
    have hp : bad ++ [b] <+: bad ++ b :: more := ⟨more, by simp⟩
    exact absurd ⟨c, hp.trans hc⟩ (h.longest b ⟨more ++ bs, rfl⟩)

theorem Broken.unique {bad bs worse cs : Bytes} (h : Broken bad bs) (hw : Broken worse cs)
    (he : bad ++ bs = worse ++ cs) : bad = worse := by
  rcases List.append_eq_append_iff.mp he with ⟨more, rfl, rfl⟩ | ⟨more, rfl, rfl⟩
  · rw [h.eq_nil hw, List.append_nil]
  · rw [hw.eq_nil h, List.append_nil]

theorem first_of_encode {c : Char} {lead : UInt8} {more : Bytes}
    (h : String.utf8EncodeChar c = lead :: more) (rest : Bytes) :
    first lead (more ++ rest) = (c, more.length) := by
  have ⟨l, m, he, hf⟩ := first_encode c
  cases he.symm.trans h
  exact hf rest

-- What stands in front is a character, or it is replaced, and how many octets it has is counted.
theorem first_cases (lead : UInt8) (rest : Bytes) :
    String.utf8EncodeChar (first lead rest).1 = lead :: rest.take (first lead rest).2 ∨
    (first lead rest).1 = replacement ∧
      Broken (lead :: rest.take (first lead rest).2) (rest.drop (first lead rest).2) := by
  cases hs : shape? lead
  case none =>
    have hf : first lead rest = (replacement, 0) := by rw [first, hs]
    rw [hf]
    exact .inr ⟨rfl, broken_of_none hs rest⟩
  case some shape =>
    rcases shape with ⟨size, low, high⟩
    generalize hn : continued low high (size - 1) rest = found
    by_cases hz : found + 1 = size
    case pos =>
      have hg : GoesOn low high (size - 1) (rest.take found) := hn ▸ goesOn_take ..
      have hw : found ≤ rest.length := hn ▸ (continued_le ..).2
      have hl : (rest.take found).length = found := List.length_take_of_le hw
      obtain ⟨c, hc⟩ := encode_of_goesOn hs hg (hl.symm ▸ hz)
      have hf := first_of_encode hc (rest.drop found)
      rw [List.take_append_drop, hl] at hf
      rw [hf]
      exact .inl hc
    case neg =>
      have hf : first lead rest = (replacement, found) := by
        simp only [first, hs, hn, if_neg hz]
      rw [hf]
      exact .inr ⟨rfl, broken_of_short hs hn hz⟩

theorem reads_chars (bs : Bytes) : Reads bs (chars bs) := by
  fun_induction chars bs
  case case1 => exact .nil
  case case2 lead rest c taken hf hi =>
    have hc := first_cases lead rest
    rw [hf] at hc
    rcases hc with hd | ⟨rfl, hb⟩
    · have hr := Reads.char c hi
      rwa [hd, List.cons_append, List.take_append_drop] at hr
    · have hr := Reads.broken hb hi
      rwa [List.cons_append, List.take_append_drop] at hr

theorem chars_broken {bad bs : Bytes} (h : Broken bad bs) :
    chars (bad ++ bs) = replacement :: chars bs := by
  rcases bad with _ | ⟨lead, more⟩
  case nil => exact absurd rfl h.ne_nil
  case cons =>
    have hc := first_cases lead (more ++ bs)
    rw [List.cons_append, chars]
    generalize first lead (more ++ bs) = read at hc ⊢
    rcases read with ⟨c, taken⟩
    have he : lead :: more ++ bs =
        lead :: (more ++ bs).take taken ++ (more ++ bs).drop taken := by
      rw [List.cons_append, List.cons_append, List.take_append_drop]
    rcases hc with hd | ⟨rfl, hb⟩
    · exact absurd ⟨(more ++ bs).drop taken, (hd ▸ he).symm⟩ (h.no_char c)
    · have hm : lead :: more = lead :: (more ++ bs).take taken := h.unique hb he
      rw [← hm] at he
      exact congrArg (replacement :: chars ·) (List.append_cancel_left he).symm

-- There is no other way to read them.
theorem reads_iff {bs : Bytes} {cs : List Char} : Reads bs cs ↔ cs = chars bs := by
  constructor
  case mp =>
    intro h
    induction h
    case nil            => simp [chars]
    case char hi        => rw [chars_encode, hi]
    case broken hb _ hi => rw [chars_broken hb, hi]
  case mpr =>
    rintro rfl
    exact reads_chars bs

end CallFabric.Utf8
