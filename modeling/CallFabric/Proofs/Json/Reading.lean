import CallFabric.Proofs.Json.Order
import CallFabric.Proofs.Json.Tokens

namespace CallFabric.Json

mutual

-- No floats, and integers that sixty-four bits hold, signed or not.
def Plain : Json → Prop
  | .int i => -0x8000000000000000 ≤ i ∧ i < 0x10000000000000000
  | .float _ => False
  | .arr items => PlainItems items
  | .obj members => PlainMembers members
  | .null | .bool _ | .str _ => True

def PlainItems : List Json → Prop
  | [] => True
  | x :: xs => x.Plain ∧ PlainItems xs

def PlainMembers : List (String × Json) → Prop
  | [] => True
  | (_, x) :: xs => x.Plain ∧ PlainMembers xs

end

theorem plainItems_iff {xs : List Json} : PlainItems xs ↔ ∀ x ∈ xs, x.Plain := by
  induction xs
  case nil          => simp [PlainItems]
  case cons x xs hi => rw [PlainItems, hi, List.forall_mem_cons]

theorem plainMembers_iff {ms : List (String × Json)} : PlainMembers ms ↔ ∀ p ∈ ms, p.2.Plain := by
  induction ms
  case nil          => simp [PlainMembers]
  case cons p ms hi => rw [PlainMembers, hi, List.forall_mem_cons]

mutual

-- How a value without floats is written.
def written : Json → Written
  | .null | .float _ => .null
  | .bool b => .bool b
  | .int i => .number (numeral i)
  | .str s => .string (escaped s)
  | .arr items => .array (writtenItems items)
  | .obj members => .object (writtenMembers members)

def writtenItems : List Json → List Written
  | [] => []
  | x :: xs => x.written :: writtenItems xs

def writtenMembers : List (String × Json) → List (Bytes × Written)
  | [] => []
  | (k, x) :: xs => (escaped k, x.written) :: writtenMembers xs

end

theorem writtenItems_eq_map (xs : List Json) : writtenItems xs = xs.map written := by
  induction xs
  case nil          => rfl
  case cons x xs hi => rw [writtenItems, hi, List.map_cons]

theorem writtenMembers_eq_map (ms : List (String × Json)) :
    writtenMembers ms = ms.map fun p => (escaped p.1, p.2.written) := by
  induction ms
  case nil          => rfl
  case cons p ms hi => rw [writtenMembers, hi, List.map_cons]

namespace Written

theorem skipBlank_cons {b : UInt8} (h : isBlank b = false) (bs : Bytes) :
    skipBlank (b :: bs) = b :: bs := by
  simp [skipBlank, h]

end Written

open Written

theorem stops_itemsText (xs : List Json) (rest : Bytes) : Stops (itemsText xs ++ rest) := by
  cases xs <;> simp [itemsText, Stops]

theorem stops_membersText (xs : List (String × Json)) (rest : Bytes) :
    Stops (membersText xs ++ rest) := by
  cases xs <;> simp [membersText, Stops]

structure Opens (b : UInt8) : Prop where
  blank   : Bytes.isBlank b = false
  bracket : b ≠ 0x5d
  brace   : b ≠ 0x7d

-- The blanks between the parts of a text are among those that a whole payload may consist of.
theorem Opens.isBlank {b : UInt8} (h : Opens b) : Written.isBlank b = false := by
  have hb := h.blank
  simp_all [Bytes.isBlank, Written.isBlank]

theorem intText_cons (i : Int) : ∃ b bs, intText i = b :: bs ∧ (b = 0x2d ∨ Bytes.isDigit b) := by
  rcases Int.lt_or_le i 0 with hi | hi
  · exact ⟨0x2d, natText i.natAbs, if_pos hi, .inl rfl⟩
  · obtain ⟨b, bs, hb⟩ := List.exists_cons_of_ne_nil (natText_ne_nil i.natAbs)
    exact ⟨b, bs, (if_neg (Int.not_lt.mpr hi)).trans hb,
      .inr (isDigit_natText b (hb ▸ List.mem_cons_self))⟩

theorem opens_of_isDigit {b : UInt8} (h : b = 0x2d ∨ Bytes.isDigit b) : Opens b := by
  refine ⟨Bool.eq_false_iff.mpr fun hb => ?blank, ?bracket, ?brace⟩
  case blank =>
    simp only [Bytes.isBlank, Bool.or_eq_true, decide_eq_true_eq] at hb
    obtain (((rfl | rfl) | rfl) | rfl) | rfl := hb <;> exact absurd h (by decide)
  case bracket => rintro rfl; exact absurd h (by decide)
  case brace   => rintro rfl; exact absurd h (by decide)

theorem text_cons (v : Json) (h : v.Plain) : ∃ b bs, v.text = b :: bs ∧ Opens b := by
  cases v
  case null      => exact ⟨_, _, rfl, rfl, by decide, by decide⟩
  case bool b    => cases b <;> exact ⟨_, _, rfl, rfl, by decide, by decide⟩
  case float     => exact h.elim
  case str s     => exact ⟨_, _, rfl, rfl, by decide, by decide⟩
  case arr items => cases items <;> exact ⟨_, _, rfl, rfl, by decide, by decide⟩
  case obj members => cases members <;> exact ⟨_, _, rfl, rfl, by decide, by decide⟩
  case int i =>
    obtain ⟨b, bs, ht, hb⟩ := intText_cons i
    exact ⟨b, bs, ht, opens_of_isDigit hb⟩

theorem value?_intText (i : Int) (fuel : Nat) {rest : Bytes} (h : Stops rest) :
    value? (fuel + 1) (intText i ++ rest) = some (.number (numeral i), rest) := by
  have hn := numeral?_intText i h
  obtain ⟨b, bs, ht, hb⟩ := intText_cons i
  have hne (c : UInt8) (hc : ¬ (c = 0x2d ∨ Bytes.isDigit c)) : b ≠ c := by
    rintro rfl
    exact hc hb
  rw [ht, List.cons_append] at hn ⊢
  rw [value?, skipBlank_cons (opens_of_isDigit hb).isBlank]
  simp only [hne 0x6e (by decide), hne 0x74 (by decide), hne 0x66 (by decide),
    hne 0x22 (by decide), hne 0x5b (by decide), hne 0x7b (by decide), if_false, hn]
  rfl

theorem value?_quote (s : String) (fuel : Nat) (rest : Bytes) :
    value? (fuel + 1) (quote s ++ rest) = some (.string (escaped s), rest) := by
  have hq : quote s ++ rest = 0x22 :: (escaped s ++ 0x22 :: rest) := by simp [quote_eq]
  rw [hq, value?, skipBlank_cons rfl]
  simp [stringTail?_escaped]

theorem value?_array {fuel : Nat} {b : UInt8} (h : Opens b) (bs : Bytes) :
    value? (fuel + 1) (0x5b :: b :: bs) =
      (itemsTail? (value? fuel) (bs.length + 2) (b :: bs)).map fun (xs, rest) =>
        (.array xs, rest) := by
  rw [value?, skipBlank_cons rfl]
  simp [skipBlank_cons h.isBlank, h.bracket]

theorem value?_object {fuel : Nat} (bs : Bytes) :
    value? (fuel + 1) (0x7b :: 0x22 :: bs) =
      (membersTail? (value? fuel) (bs.length + 2) (0x22 :: bs)).map fun (xs, rest) =>
        (.object xs, rest) := by
  rw [value?, skipBlank_cons rfl]
  simp [skipBlank_cons, isBlank]

theorem key?_quote (k : String) (bs : Bytes) :
    key? (quote k ++ 0x3a :: bs) = some (escaped k, bs) := by
  have hq : quote k ++ 0x3a :: bs = 0x22 :: (escaped k ++ 0x22 :: 0x3a :: bs) := by simp [quote_eq]
  rw [hq, key?, skipBlank_cons rfl]
  simp [stringTail?_escaped, skipBlank_cons, isBlank]

namespace Written

variable {item? : Bytes → Option (Written × Bytes)} {bs rest : Bytes} {w : Written}

theorem itemsTail?_last (h : item? bs = some (w, 0x5d :: rest)) (count : Nat) :
    itemsTail? item? (count + 1) bs = some ([w], rest) := by
  rw [itemsTail?, h]
  simp [skipBlank_cons, isBlank]

theorem itemsTail?_next {more : Bytes} {ws : List Written} {count : Nat}
    (h : item? bs = some (w, 0x2c :: more)) (hm : itemsTail? item? count more = some (ws, rest)) :
    itemsTail? item? (count + 1) bs = some (w :: ws, rest) := by
  rw [itemsTail?, h]
  simp [skipBlank_cons, isBlank, hm]

theorem membersTail?_last {k : Bytes} {value : Bytes} (hk : key? bs = some (k, value))
    (h : item? value = some (w, 0x7d :: rest)) (count : Nat) :
    membersTail? item? (count + 1) bs = some ([(k, w)], rest) := by
  simp [membersTail?, hk, h, skipBlank_cons, isBlank]

theorem membersTail?_next {k value more : Bytes} {ws : List (Bytes × Written)} {count : Nat}
    (hk : key? bs = some (k, value)) (h : item? value = some (w, 0x2c :: more))
    (hm : membersTail? item? count more = some (ws, rest)) :
    membersTail? item? (count + 1) bs = some ((k, w) :: ws, rest) := by
  simp [membersTail?, hk, h, skipBlank_cons, isBlank, hm]

end Written

-- Every element takes an octet at least.
theorem length_le_itemsText (xs : List Json) : xs.length ≤ (itemsText xs).length := by
  induction xs
  case nil => exact Nat.zero_le _
  case cons x xs hi => simp [itemsText]; omega

theorem length_le_membersText (xs : List (String × Json)) :
    xs.length ≤ (membersText xs).length := by
  induction xs
  case nil => exact Nat.zero_le _
  case cons x xs hi => simp [membersText]; omega

-- Where an object ends does not depend on what follows.
theorem value?_object_of_members {k : String} {x : Json} {xs : List (String × Json)} {fuel : Nat}
    {rest : Bytes} (hm : ∀ count, ((k, x) :: xs).length ≤ count → ∀ bs,
      membersText ((k, x) :: xs) ++ rest = 0x2c :: bs →
      membersTail? (value? fuel) count bs = some (writtenMembers ((k, x) :: xs), rest)) :
    value? (fuel + 1) ((Json.obj ((k, x) :: xs)).text ++ rest) =
      some ((Json.obj ((k, x) :: xs)).written, rest) := by
  have he : (Json.obj ((k, x) :: xs)).text ++ rest =
      0x7b :: 0x22 :: (escaped k ++ 0x22 :: 0x3a :: (x.text ++ (membersText xs ++ rest))) := by
    simp [text, quote_eq]
  have hc : ((k, x) :: xs).length ≤
      (escaped k ++ 0x22 :: 0x3a :: (x.text ++ (membersText xs ++ rest))).length + 2 := by
    have hl := length_le_membersText xs
    simp only [List.length_cons, List.length_append]
    omega
  have hi := hm _ hc (0x22 :: (escaped k ++ 0x22 :: 0x3a :: (x.text ++ (membersText xs ++ rest))))
    (by simp [membersText, quote_eq])
  rw [he, value?_object, hi]
  rfl

mutual

-- A value at the front is read up to where it ends.
theorem value?_text : (v : Json) → v.Plain → (fuel : Nat) → v.depth < fuel → (rest : Bytes) →
    Stops rest → value? fuel (v.text ++ rest) = some (v.written, rest)
  | .null, _, fuel + 1, _, rest, _ => rfl
  | .bool true, _, fuel + 1, _, rest, _ => rfl
  | .bool false, _, fuel + 1, _, rest, _ => rfl
  | .float _, h, _, _, _, _ => h.elim
  | .int i, _, fuel + 1, _, rest, hs => value?_intText i fuel hs
  | .str s, _, fuel + 1, _, rest, _ => value?_quote s fuel rest
  | .arr [], _, fuel + 1, _, rest, _ => rfl
  | .arr (x :: xs), h, fuel + 1, hf, rest, _ => by
    obtain ⟨b, bs, ht, hb⟩ := text_cons x h.1
    have he : (Json.arr (x :: xs)).text ++ rest = 0x5b :: b :: (bs ++ (itemsText xs ++ rest)) := by
      simp [text, ht]
    have hc : (x :: xs).length ≤ (bs ++ (itemsText xs ++ rest)).length + 2 := by
      have hl := length_le_itemsText xs
      simp only [List.length_cons, List.length_append]
      omega
    have hi := itemsTail?_text (x :: xs) h fuel (Nat.lt_of_succ_lt_succ hf) _ hc
      (b :: (bs ++ (itemsText xs ++ rest))) rest (by simp [itemsText, ht])
    rw [he, value?_array hb, hi]
    rfl
  | .obj [], _, fuel + 1, _, rest, _ => rfl
  | .obj ((k, x) :: xs), h, fuel + 1, hf, rest, _ =>
    value?_object_of_members fun count hc bs =>
      membersTail?_text ((k, x) :: xs) h fuel (Nat.lt_of_succ_lt_succ hf) count hc bs rest

theorem itemsTail?_text : (xs : List Json) → PlainItems xs → (fuel : Nat) → depthItems xs < fuel →
    (count : Nat) → xs.length ≤ count → (bs rest : Bytes) → itemsText xs ++ rest = 0x2c :: bs →
    itemsTail? (value? fuel) count bs = some (writtenItems xs, rest)
  | [], _, _, _, _, _, _, _, he => absurd (List.cons.inj he).1 (by decide)
  | [x], h, fuel, hf, count + 1, _, bs, rest, he => by
    have hx := value?_text x h.1 fuel (Nat.lt_of_le_of_lt (Nat.le_max_left ..) hf) _
      (stops_itemsText [] rest)
    have hb : bs = x.text ++ (itemsText [] ++ rest) := by simpa [itemsText] using he.symm
    exact hb ▸ itemsTail?_last hx count
  | x :: y :: ys, h, fuel, hf, count + 1, hc, bs, rest, he => by
    have hx := value?_text x h.1 fuel (Nat.lt_of_le_of_lt (Nat.le_max_left ..) hf) _
      (stops_itemsText (y :: ys) rest)
    have hb : bs = x.text ++ (itemsText (y :: ys) ++ rest) := by simpa [itemsText] using he.symm
    have hy : itemsText (y :: ys) ++ rest = 0x2c :: (y.text ++ (itemsText ys ++ rest)) := by
      simp [itemsText]
    have hi := itemsTail?_text (y :: ys) h.2 fuel
      (Nat.lt_of_le_of_lt (Nat.le_max_right ..) hf) count (Nat.le_of_succ_le_succ hc) _ rest hy
    rw [hy] at hx hb
    exact hb ▸ itemsTail?_next hx hi

theorem membersTail?_text : (xs : List (String × Json)) → PlainMembers xs → (fuel : Nat) →
    depthMembers xs < fuel → (count : Nat) → xs.length ≤ count → (bs rest : Bytes) →
    membersText xs ++ rest = 0x2c :: bs →
    membersTail? (value? fuel) count bs = some (writtenMembers xs, rest)
  | [], _, _, _, _, _, _, _, he => absurd (List.cons.inj he).1 (by decide)
  | [(k, x)], h, fuel, hf, count + 1, _, bs, rest, he => by
    have hx := value?_text x h.1 fuel (Nat.lt_of_le_of_lt (Nat.le_max_left ..) hf) _
      (stops_membersText [] rest)
    have hb : bs = quote k ++ 0x3a :: (x.text ++ (membersText [] ++ rest)) := by
      simpa [membersText] using he.symm
    exact hb ▸ membersTail?_last (key?_quote k _) hx count
  | (k, x) :: (l, y) :: ys, h, fuel, hf, count + 1, hc, bs, rest, he => by
    have hx := value?_text x h.1 fuel (Nat.lt_of_le_of_lt (Nat.le_max_left ..) hf) _
      (stops_membersText ((l, y) :: ys) rest)
    have hb : bs = quote k ++ 0x3a :: (x.text ++ (membersText ((l, y) :: ys) ++ rest)) := by
      simpa [membersText] using he.symm
    have hy : membersText ((l, y) :: ys) ++ rest =
        0x2c :: (quote l ++ 0x3a :: (y.text ++ (membersText ys ++ rest))) := by
      simp [membersText]
    have hi := membersTail?_text ((l, y) :: ys) h.2 fuel
      (Nat.lt_of_le_of_lt (Nat.le_max_right ..) hf) count (Nat.le_of_succ_le_succ hc) _ rest hy
    rw [hy] at hx hb
    exact hb ▸ membersTail?_next (key?_quote k _) hx hi

end

mutual

-- Every container brings two brackets.
theorem depth_le_text : (v : Json) → v.depth ≤ v.text.length
  | .null | .bool _ | .int _ | .float _ | .str _ => Nat.zero_le _
  | .arr [] | .obj [] => by decide
  | .arr (x :: xs) => by
    have hx := depth_le_text x
    have hi := depth_le_itemsText xs
    simp only [depth, depthItems, text, List.cons_append, List.length_cons, List.length_append]
    omega
  | .obj ((k, x) :: xs) => by
    have hx := depth_le_text x
    have hi := depth_le_membersText xs
    simp only [depth, depthMembers, text, List.cons_append, List.length_cons, List.length_append]
    omega

theorem depth_le_itemsText : (xs : List Json) → depthItems xs ≤ (itemsText xs).length
  | [] => Nat.zero_le _
  | x :: xs => by
    have hx := depth_le_text x
    have hi := depth_le_itemsText xs
    simp only [depthItems, itemsText, List.cons_append, List.length_cons, List.length_append]
    omega

theorem depth_le_membersText : (xs : List (String × Json)) →
    depthMembers xs ≤ (membersText xs).length
  | [] => Nat.zero_le _
  | (_, x) :: xs => by
    have hx := depth_le_text x
    have hi := depth_le_membersText xs
    simp only [depthMembers, membersText, List.cons_append, List.length_cons, List.length_append]
    omega

end

theorem depth_lt_length (v : Json) (rest : Bytes) : v.depth < (v.text ++ rest).length + 1 := by
  rw [List.length_append]
  exact Nat.lt_succ_of_le (Nat.le_trans v.depth_le_text (Nat.le_add_right ..))

-- An object shows where it ends, so that anything may follow it.
theorem value?_text_obj {m : String × Json} {ms : List (String × Json)}
    (h : (obj (m :: ms)).Plain) {fuel : Nat} (hf : (obj (m :: ms)).depth < fuel) (rest : Bytes) :
    value? fuel ((obj (m :: ms)).text ++ rest) = some ((obj (m :: ms)).written, rest) := by
  obtain ⟨fuel, rfl⟩ := Nat.exists_eq_add_of_le' (Nat.lt_of_le_of_lt (Nat.zero_le _) hf)
  exact value?_object_of_members fun count hc bs =>
    membersTail?_text (m :: ms) h fuel (Nat.lt_of_succ_lt_succ hf) count hc bs rest

theorem first?_text_obj {m : String × Json} {ms : List (String × Json)}
    (h : (obj (m :: ms)).Plain) (rest : Bytes) :
    Written.first? ((obj (m :: ms)).text ++ rest) = some (obj (m :: ms)).written := by
  rw [Written.first?, value?_text_obj h (depth_lt_length _ rest), Option.map_some]

theorem value?_whole {v : Json} (h : v.Plain) :
    value? (v.text.length + 1) v.text = some (v.written, []) := by
  have hv := value?_text v h _ (Nat.lt_succ_of_le v.depth_le_text) [] (by simp [Stops])
  rwa [List.append_nil] at hv

theorem writtenOfText?_text {v : Json} (h : v.Plain) : Written.ofText? v.text = some v.written := by
  simp [Written.ofText?, value?_whole h, skipBlank]

theorem depthItems_le_iff {xs : List Json} {n : Nat} :
    depthItems xs ≤ n ↔ ∀ x ∈ xs, x.depth ≤ n := by
  induction xs
  case nil          => simp [depthItems]
  case cons x xs hi => rw [depthItems, Nat.max_le, hi, List.forall_mem_cons]

theorem depthMembers_le_iff {ms : List (String × Json)} {n : Nat} :
    depthMembers ms ≤ n ↔ ∀ p ∈ ms, p.2.depth ≤ n := by
  induction ms
  case nil          => simp [depthMembers]
  case cons p ms hi => rw [depthMembers, Nat.max_le, hi, List.forall_mem_cons]

theorem exists_of_depth_arr_le {xs : List Json} {depth : Nat} (h : (arr xs).depth ≤ depth) :
    ∃ n, depth = n + 1 ∧ ∀ x ∈ xs, x.depth ≤ n := by
  obtain ⟨n, rfl⟩ := Nat.exists_eq_add_of_le' (Nat.le_trans (Nat.le_add_left 1 _) h)
  exact ⟨n, rfl, depthItems_le_iff.mp (Nat.le_of_succ_le_succ h)⟩

theorem exists_of_depth_obj_le {ms : List (String × Json)} {depth : Nat}
    (h : (obj ms).depth ≤ depth) : ∃ n, depth = n + 1 ∧ ∀ p ∈ ms, p.2.depth ≤ n := by
  obtain ⟨n, rfl⟩ := Nat.exists_eq_add_of_le' (Nat.le_trans (Nat.le_add_left 1 _) h)
  exact ⟨n, rfl, depthMembers_le_iff.mp (Nat.le_of_succ_le_succ h)⟩

mutual

theorem toJson?_written : (v : Json) → v.Plain → (depth : Nat) → v.depth ≤ depth →
    v.written.toJson? depth = some v.sorted
  | .null, _, _, _ | .bool _, _, _, _ => rfl
  | .int i, h, _, _ => by simp [written, toJson?, number?, value?_numeral h.1 h.2, sorted]
  | .float _, h, _, _ => h.elim
  | .str s, _, _, _ => by simp [written, toJson?, text?_escaped, sorted]
  | .arr xs, h, depth + 1, hd => by
    simp [written, toJson?, toItems?_written xs h depth (Nat.le_of_succ_le_succ hd), sorted]
  | .obj ms, h, depth + 1, hd => by
    simp [written, toJson?, toMembers?_written ms h depth (Nat.le_of_succ_le_succ hd), sorted]

theorem toItems?_written : (xs : List Json) → PlainItems xs → (depth : Nat) →
    depthItems xs ≤ depth → Written.toItems? depth (writtenItems xs) = some (sortedItems xs)
  | [], _, _, _ => rfl
  | x :: xs, h, depth, hd => by
    have hx := toJson?_written x h.1 depth (Nat.le_trans (Nat.le_max_left ..) hd)
    have hi := toItems?_written xs h.2 depth (Nat.le_trans (Nat.le_max_right ..) hd)
    simp [writtenItems, Written.toItems?, hx, hi, sortedItems]

theorem toMembers?_written : (ms : List (String × Json)) → PlainMembers ms → (depth : Nat) →
    depthMembers ms ≤ depth → (seen : List (String × Json)) →
    Written.toMembers? depth seen (writtenMembers ms) = some (sortedMembers seen ms)
  | [], _, _, _, _ => rfl
  | (k, x) :: ms, h, depth, hd, seen => by
    have hx := toJson?_written x h.1 depth (Nat.le_trans (Nat.le_max_left ..) hd)
    have hi := toMembers?_written ms h.2 depth (Nat.le_trans (Nat.le_max_right ..) hd)
    simp [writtenMembers, Written.toMembers?, text?_escaped, hx, hi, sortedMembers]

end

-- A value's text reads back as the value with its members in order.
theorem ofText?_text {v : Json} (h : v.Plain) (hd : v.depth ≤ depthLimit) :
    ofText? v.text = some v.sorted := by
  simp [ofText?, writtenOfText?_text h, toJson?_written v h _ hd]

-- Blanks may follow an object.
theorem ofText?_text_obj {m : String × Json} {ms : List (String × Json)} {blanks : Bytes}
    (h : (obj (m :: ms)).Plain) (hd : (obj (m :: ms)).depth ≤ depthLimit)
    (hb : skipBlank blanks = []) :
    ofText? ((obj (m :: ms)).text ++ blanks) = some (obj (m :: ms)).sorted := by
  have hv := value?_text_obj h (depth_lt_length (obj (m :: ms)) blanks) blanks
  have hw : Written.ofText? ((obj (m :: ms)).text ++ blanks) = some (obj (m :: ms)).written := by
    rw [Written.ofText?, hv]
    simp [hb]
  rw [ofText?, hw]
  exact toJson?_written _ h _ hd

-- A value that its text is read back as: no floats, members in order, and containers nested this
-- deep at most.
structure Kept (depth : Nat) (v : Json) : Prop where
  plain     : v.Plain
  canonical : v.Canonical
  depth_le  : v.depth ≤ depth

namespace Kept

variable {depth : Nat}

theorem str (s : String) : Kept depth (.str s) := ⟨trivial, trivial, Nat.zero_le _⟩

theorem arr {xs : List Json} (h : ∀ x ∈ xs, Kept depth x) : Kept (depth + 1) (.arr xs) where
  plain     := plainItems_iff.mpr fun x hx => (h x hx).plain
  canonical := canonicalItems_iff.mpr fun x hx => (h x hx).canonical
  depth_le  := Nat.succ_le_succ (depthItems_le_iff.mpr fun x hx => (h x hx).depth_le)

theorem obj {ms : List (String × Json)} (hs : Table.Sorted ms) (h : ∀ p ∈ ms, Kept depth p.2) :
    Kept (depth + 1) (.obj ms) where
  plain     := plainMembers_iff.mpr fun p hp => (h p hp).plain
  canonical := ⟨hs, canonicalMembers_iff.mpr fun p hp => (h p hp).canonical⟩
  depth_le  := Nat.succ_le_succ (depthMembers_le_iff.mpr fun p hp => (h p hp).depth_le)

theorem obj_of_get? {ms : Table Json} (hs : ms.Sorted)
    (h : ∀ key v, ms.get? key = some v → Kept depth v) : Kept (depth + 1) (.obj ms) :=
  obj hs fun p hp => h p.1 p.2 (hs.get?_eq_some.mpr hp)

theorem ofText?_text {v : Json} (h : Kept depth v) (hd : depth ≤ depthLimit) :
    ofText? v.text = some v := by
  rw [Json.ofText?_text h.plain (Nat.le_trans h.depth_le hd), Canonical.sorted v h.canonical]

end Kept
end CallFabric.Json
