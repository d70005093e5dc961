import CallFabric.Text.Bytes

namespace CallFabric.Utf8

-- Octets of the character that `lead` starts, the bounds of the second octet.
def shape? (lead : UInt8) : Option (Nat × UInt8 × UInt8) :=
  if lead < 0x80 then some (1, 0, 0)
  else if 0xc2 ≤ lead && lead ≤ 0xdf then some (2, 0x80, 0xbf)
  else if lead = 0xe0 then some (3, 0xa0, 0xbf)
  else if lead = 0xed then some (3, 0x80, 0x9f)
  else if 0xe1 ≤ lead && lead ≤ 0xef then some (3, 0x80, 0xbf)
  else if lead = 0xf0 then some (4, 0x90, 0xbf)
  else if 0xf1 ≤ lead && lead ≤ 0xf3 then some (4, 0x80, 0xbf)
  else if lead = 0xf4 then some (4, 0x80, 0x8f)
  else none

def continued (low high : UInt8) : Nat → Bytes → Nat
  | 0, _ => 0
  | _, [] => 0
  | wanted + 1, b :: bs =>
    if low ≤ b && b ≤ high then 1 + continued 0x80 0xbf wanted bs else 0

def codePoint (size : Nat) (bs : Bytes) : Nat :=
  let keep := match size with
    | 1 => 0x80
    | 2 => 0x20
    | 3 => 0x10
    | _ => 0x08
  match bs with
  | [] => 0
  | b :: rest => rest.foldl (fun n c => n * 64 + c.toNat % 64) (b.toNat % keep)

def replacement : Char := '\uFFFD'

def first (lead : UInt8) (rest : Bytes) : Char × Nat :=
  match shape? lead with
  | none => (replacement, 0)
  | some (size, low, high) =>
    let found := continued low high (size - 1) rest
    if found + 1 = size then (Char.ofNat (codePoint size (lead :: rest.take found)), found)
    else (replacement, found)

def chars : Bytes → List Char
  | [] => []
  | lead :: rest =>
    let (c, taken) := first lead rest
    c :: chars (rest.drop taken)
termination_by bs => bs.length
decreasing_by simp only [List.length_cons, List.length_drop]; omega

end CallFabric.Utf8

namespace CallFabric

-- Each longest start of a character that the octets break off stands for one replacement character.
def Bytes.lossy (bs : Bytes) : String :=
  String.ofList (Utf8.chars bs)

-- The octets of one code point; a surrogate's are those of the general pattern.
def Utf8.encode (n : Nat) : Bytes :=
  if n < 0x80 then [UInt8.ofNat n]
  else if n < 0x800 then [UInt8.ofNat (0xc0 + n / 64), UInt8.ofNat (0x80 + n % 64)]
  else if n < 0x10000 then
    [UInt8.ofNat (0xe0 + n / 4096), UInt8.ofNat (0x80 + n / 64 % 64), UInt8.ofNat (0x80 + n % 64)]
  else
    [UInt8.ofNat (0xf0 + n / 262144), UInt8.ofNat (0x80 + n / 4096 % 64),
      UInt8.ofNat (0x80 + n / 64 % 64), UInt8.ofNat (0x80 + n % 64)]

end CallFabric
