namespace CallFabric

abbrev Bytes := List UInt8

namespace Bytes

def ofText (s : String) : Bytes :=
  s.toByteArray.data.toList

def text? (bs : Bytes) : Option String :=
  String.fromUTF8? ⟨bs.toArray⟩

theorem text?_ofText (s : String) : text? (ofText s) = some s := by
  simp [text?, ofText, String.fromUTF8?, s.isValidUTF8]
  rfl

def isDigit (b : UInt8) : Bool :=
  0x30 ≤ b && b ≤ 0x39

def isBlank (b : UInt8) : Bool :=
  b = 0x20 || b = 0x09 || b = 0x0a || b = 0x0c || b = 0x0d

def hexValue? (b : UInt8) : Option Nat :=
  if isDigit b then some (b.toNat - 0x30)
  else if 0x61 ≤ b && b ≤ 0x66 then some (b.toNat - 0x57)
  else if 0x41 ≤ b && b ≤ 0x46 then some (b.toNat - 0x37)
  else none

def hexDigit (n : Nat) : UInt8 :=
  if n < 10 then UInt8.ofNat (0x30 + n) else UInt8.ofNat (0x57 + n)

def toHex (bs : Bytes) : Bytes :=
  bs.flatMap fun b => [hexDigit (b.toNat / 16), hexDigit (b.toNat % 16)]

def hexText (bs : Bytes) : String := (text? (toHex bs)).getD ""

-- The octets that hexadecimal digits spell in pairs; a last one without a partner is an octet.
def ofHexDigits : List Nat → Bytes
  | [] => []
  | [d] => [UInt8.ofNat d]
  | high :: low :: rest => UInt8.ofNat (high * 16 + low) :: ofHexDigits rest

def bigEndian : Nat → Nat → Bytes
  | 0, _ => []
  | width + 1, n => UInt8.ofNat (n / Nat.pow 256 width % 256) :: bigEndian width n

def ofBigEndian (bs : Bytes) : Nat :=
  bs.foldl (fun n b => n * 256 + b.toNat) 0

def dropLead? : Bytes → Bytes → Option Bytes
  | [], bs => some bs
  | l :: ls, b :: bs => if l = b then dropLead? ls bs else none
  | _ :: _, [] => none

def splitAt? (mark : Bytes) : Bytes → Option (Bytes × Bytes)
  | [] => if mark.isEmpty then some ([], []) else none
  | b :: bs =>
    match dropLead? mark (b :: bs) with
    | some rest => some ([], rest)
    | none => (splitAt? mark bs).map fun (before, after) => (b :: before, after)

theorem length_dropLead? {lead bs rest : Bytes} (h : dropLead? lead bs = some rest) :
    lead.length + rest.length = bs.length := by
  induction lead generalizing bs with
  | nil => simp [dropLead?] at h; simp [h]
  | cons l ls ih =>
    cases bs with
    | nil => simp [dropLead?] at h
    | cons b bs =>
      simp only [dropLead?] at h
      split at h
      · have := ih h; simp; omega
      · simp at h

theorem length_splitAt? {mark bs before after : Bytes}
    (h : splitAt? mark bs = some (before, after)) :
    before.length + mark.length + after.length = bs.length := by
  induction bs generalizing before with
  | nil =>
    simp only [splitAt?] at h
    split at h
    · next hm => simp_all
    · simp at h
  | cons b bs ih =>
    simp only [splitAt?] at h
    split at h
    · next hl =>
      have := length_dropLead? hl
      simp only [Option.some.injEq, Prod.mk.injEq] at h
      obtain ⟨rfl, rfl⟩ := h
      simpa using this
    · obtain ⟨⟨x, y⟩, hx, hxy⟩ := Option.map_eq_some_iff.1 h
      simp only [Prod.mk.injEq] at hxy
      obtain ⟨rfl, rfl⟩ := hxy
      have := ih hx
      simp; omega

def pieces (separator : UInt8) : Bytes → List Bytes
  | [] => [[]]
  | b :: bs =>
    match pieces separator bs with
    | [] => [[b]]
    | piece :: more => if b = separator then [] :: piece :: more else (b :: piece) :: more

end Bytes
end CallFabric
