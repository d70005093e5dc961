import Mathlib.Data.List.Forall2
import CallFabric.Http.Form
import CallFabric.Proofs.Text.Pieces
import CallFabric.Proofs.Text.Replacing

namespace CallFabric

namespace Percent

-- Octets with their escapes undone. An octet that begins no escape is kept, a percent sign like any
-- other.
inductive Unescapes : Bytes → Bytes → Prop
  | nil : Unescapes [] []
  | escape {high low b : UInt8} {bs out : Bytes} : octet? high low = some b → Unescapes bs out →
    Unescapes (0x25 :: high :: low :: bs) (b :: out)
  | kept {b : UInt8} {bs out : Bytes} :
    (∀ high low rest, b :: bs = 0x25 :: high :: low :: rest → octet? high low = none) →
    Unescapes bs out → Unescapes (b :: bs) (b :: out)

theorem unescapes_decode (bs : Bytes) : Unescapes bs (decode bs) := by
  fun_induction decode bs
  case case1 h hi => exact .escape h hi
  case case2 h hi =>
    refine .kept (fun high low rest he => ?_) hi
    cases he
    exact h
  case case3 hn hi =>
    refine .kept (fun high low rest he => ?_) hi
    cases he
    exact (hn _ _ _ rfl rfl).elim
  case case4 => exact .nil

theorem decode_kept {b : UInt8} {bs : Bytes}
    (h : ∀ high low rest, b :: bs = 0x25 :: high :: low :: rest → octet? high low = none) :
    decode (b :: bs) = b :: decode bs := by
  rw [decode.eq_def]
  split
  case h_1 high low rest he =>
    cases he
    rw [h high low rest rfl]
  case h_2 he =>
    cases he
    rfl
  case h_3 he => cases he

theorem unescapes_iff {bs out : Bytes} : Unescapes bs out ↔ out = decode bs := by
  constructor
  case mp =>
    intro h
    induction h
    case nil            => rfl
    case escape ho _ hi => simp [decode, ho, hi]
    case kept hn _ hi   => rw [decode_kept hn, hi]
  case mpr =>
    rintro rfl
    exact unescapes_decode bs

end Percent

namespace Bytes

-- Octets cut at every separator.
structure Cut (separator : UInt8) (bs : Bytes) (pieces : List Bytes) : Prop where
  ne_nil : pieces ≠ []
  apart  : ∀ piece ∈ pieces, separator ∉ piece
  whole  : [separator].intercalate pieces = bs

theorem cut_pieces (separator : UInt8) (bs : Bytes) : Cut separator bs (pieces separator bs) := by
  induction bs
  case nil => exact ⟨List.cons_ne_nil _ _, by simp [pieces], rfl⟩
  case cons b bs hi =>
    cases hp : pieces separator bs
    case nil => exact absurd hp hi.ne_nil
    case cons piece more =>
      have ha := hi.apart
      have hw := hi.whole
      have he : pieces separator (b :: bs) =
          if b = separator then [] :: piece :: more else (b :: piece) :: more := by rw [pieces, hp]
      rw [hp] at ha hw
      rw [he]
      by_cases hb : b = separator
      case pos =>
        rw [if_pos hb]
        refine ⟨List.cons_ne_nil _ _, List.forall_mem_cons.mpr ⟨List.not_mem_nil, ha⟩, ?_⟩
        rw [List.intercalate_cons_cons, hw, hb]
        rfl
      case neg =>
        rw [if_neg hb]
        have hc := List.forall_mem_cons.mp ha
        refine ⟨List.cons_ne_nil _ _, List.forall_mem_cons.mpr ⟨?_, hc.2⟩, ?_⟩
        · exact List.not_mem_cons_of_ne_of_not_mem (Ne.symm hb) hc.1
        · rw [← hw]
          cases more <;> simp

theorem pieces_of_not_mem {separator : UInt8} {bs : Bytes} (h : separator ∉ bs) :
    pieces separator bs = [bs] := by
  induction bs
  case nil => rfl
  case cons b bs hi =>
    have ⟨hb, hn⟩ := List.ne_and_not_mem_of_not_mem_cons h
    rw [pieces, hi hn]
    exact if_neg (Ne.symm hb)

theorem pieces_append {separator : UInt8} {piece : Bytes} (h : separator ∉ piece) (bs : Bytes) :
    pieces separator (piece ++ separator :: bs) = piece :: pieces separator bs := by
  induction piece
  case nil =>
    have ⟨p, more, hp⟩ := List.exists_cons_of_ne_nil (cut_pieces separator bs).ne_nil
    rw [List.nil_append, pieces, hp]
    exact if_pos rfl
  case cons b piece hi =>
    have ⟨hb, hn⟩ := List.ne_and_not_mem_of_not_mem_cons h
    rw [List.cons_append, pieces, hi hn]
    exact if_neg (Ne.symm hb)

theorem cut_iff {separator : UInt8} {bs : Bytes} {ps : List Bytes} :
    Cut separator bs ps ↔ ps = pieces separator bs := by
  constructor
  case mp =>
    intro h
    induction ps generalizing bs
    case nil => exact absurd rfl h.ne_nil
    case cons piece more hi =>
      have ⟨hp, hm⟩ := List.forall_mem_cons.mp h.apart
      have hw := h.whole
      cases more
      case nil =>
        have hb : piece = bs := by simpa using hw
        rw [← hb, pieces_of_not_mem hp]
      case cons next more =>
        rw [List.intercalate_cons_cons] at hw
        rw [← hw, List.append_assoc, List.singleton_append, pieces_append hp,
          ← hi ⟨List.cons_ne_nil _ _, hm, rfl⟩]
  case mpr =>
    rintro rfl
    exact cut_pieces separator bs

end Bytes

namespace Form

-- A text as a form has it: blanks as plus signs, some octets escaped, and what is no text replaced.
def Writes (bs : Bytes) (s : String) : Prop :=
  ∃ octets, Percent.Unescapes (bs.map fun b => if b = 0x2b then 0x20 else b) octets ∧
    Utf8.Reads octets s.toList

theorem writes_iff {bs : Bytes} {s : String} : Writes bs s ↔ s = decodeText bs := by
  simp only [Writes, Percent.unescapes_iff, Utf8.reads_iff, exists_eq_left]
  rw [← String.toList_inj, decodeText, Bytes.lossy, String.toList_ofList]

theorem decodeText_nil : decodeText [] = "" := by
  simp [decodeText, Percent.decode, Bytes.lossy, Utf8.chars]

-- A piece and the key and value in it.
inductive Pair : Bytes → String × String → Prop
  | valued {k v : Bytes} {key value : String} : 0x3d ∉ k → Writes k key → Writes v value →
    Pair (k ++ 0x3d :: v) (key, value)
  | bare {k : Bytes} {key : String} : 0x3d ∉ k → Writes k key → Pair k (key, "")

theorem pairOf_append {k : Bytes} (h : 0x3d ∉ k) (v : Bytes) :
    pairOf (k ++ 0x3d :: v) = (decodeText k, decodeText v) := by
  rw [pairOf, Text.takeWhile_of_not_mem h, Text.dropWhile_of_not_mem h]
  simp

theorem pairOf_of_not_mem {k : Bytes} (h : 0x3d ∉ k) : pairOf k = (decodeText k, "") := by
  have ht := Text.takeWhile_of_not_mem h []
  have hd := Text.dropWhile_of_not_mem h []
  rw [List.append_nil] at ht hd
  rw [pairOf, ht, hd, ← decodeText_nil]
  simp

theorem pair_iff {piece : Bytes} {p : String × String} : Pair piece p ↔ p = pairOf piece := by
  constructor
  case mp =>
    intro h
    cases h
    case valued hn hk hv => rw [pairOf_append hn, writes_iff.mp hk, writes_iff.mp hv]
    case bare hn hk      => rw [pairOf_of_not_mem hn, writes_iff.mp hk]
  case mpr =>
    rintro rfl
    by_cases h : 0x3d ∈ piece
    case pos =>
      have ⟨k, v, hp, hn⟩ := List.eq_append_cons_of_mem h
      rw [hp, pairOf_append hn]
      exact .valued hn (writes_iff.mpr rfl) (writes_iff.mpr rfl)
    case neg =>
      rw [pairOf_of_not_mem h]
      exact .bare h (writes_iff.mpr rfl)

-- The pairs of a form, one for each piece that is not empty.
def Says (bs : Bytes) (pairs : List (String × String)) : Prop :=
  ∃ pieces, Bytes.Cut 0x26 bs pieces ∧ List.Forall₂ Pair (pieces.filter (!·.isEmpty)) pairs

theorem says_iff {bs : Bytes} {ps : List (String × String)} : Says bs ps ↔ ps = pairs bs := by
  have hp : Pair = fun piece p => pairOf piece = p :=
    funext₂ fun _ _ => propext (pair_iff.trans eq_comm)
  simp only [Says, Bytes.cut_iff, exists_eq_left]
  rw [hp, ← List.forall₂_map_left_iff (R := Eq), List.forall₂_eq_eq_eq, pairs, eq_comm]

end Form
end CallFabric
