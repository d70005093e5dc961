import CallFabric.Text.Bytes
import CallFabric.Number.Binary64

namespace CallFabric.MessagePack

-- An integer is `unsigned` where its format has no sign; a number that is not negative is always
-- written without one.
inductive Item
  | nil
  | bool (b : Bool)
  | unsigned (n : Nat)
  | signed (i : Int)
  | float (x : Binary64)
  | text (octets : Bytes)
  | binary (octets : Bytes)
  | array (items : List Item)
  | map (entries : List (Item × Item))
  | extension
  deriving Repr, Inhabited

open Bytes (bigEndian ofBigEndian)

def Item.ofInt (i : Int) : Item :=
  if i < 0 then .signed i else .unsigned i.toNat

def unsignedOctets (n : Nat) : Bytes :=
  if n < 0x80 then [UInt8.ofNat n]
  else if n < 0x100 then 0xcc :: bigEndian 1 n
  else if n < 0x10000 then 0xcd :: bigEndian 2 n
  else if n < 0x100000000 then 0xce :: bigEndian 4 n
  else 0xcf :: bigEndian 8 n

def twosComplement (width : Nat) (i : Int) : Nat :=
  (i % Nat.pow 256 width).toNat

def ofTwosComplement (width n : Nat) : Int :=
  if n < Nat.pow 256 width / 2 then n else n - Nat.pow 256 width

def signedOctets (i : Int) : Bytes :=
  if -0x20 ≤ i then bigEndian 1 (twosComplement 1 i)
  else if -0x80 ≤ i then 0xd0 :: bigEndian 1 (twosComplement 1 i)
  else if -0x8000 ≤ i then 0xd1 :: bigEndian 2 (twosComplement 2 i)
  else if -0x80000000 ≤ i then 0xd2 :: bigEndian 4 (twosComplement 4 i)
  else 0xd3 :: bigEndian 8 (twosComplement 8 i)

def textHead (n : Nat) : Bytes :=
  if n < 0x20 then [UInt8.ofNat (0xa0 + n)]
  else if n < 0x100 then 0xd9 :: bigEndian 1 n
  else if n < 0x10000 then 0xda :: bigEndian 2 n
  else 0xdb :: bigEndian 4 n

def binaryHead (n : Nat) : Bytes :=
  if n < 0x100 then 0xc4 :: bigEndian 1 n
  else if n < 0x10000 then 0xc5 :: bigEndian 2 n
  else 0xc6 :: bigEndian 4 n

def arrayHead (n : Nat) : Bytes :=
  if n < 0x10 then [UInt8.ofNat (0x90 + n)]
  else if n < 0x10000 then 0xdc :: bigEndian 2 n
  else 0xdd :: bigEndian 4 n

def mapHead (n : Nat) : Bytes :=
  if n < 0x10 then [UInt8.ofNat (0x80 + n)]
  else if n < 0x10000 then 0xde :: bigEndian 2 n
  else 0xdf :: bigEndian 4 n

mutual

def Item.octets : Item → Bytes
  | .nil => [0xc0]
  | .bool false => [0xc2]
  | .bool true => [0xc3]
  | .unsigned n => unsignedOctets n
  | .signed i => signedOctets i
  | .float x => 0xcb :: bigEndian 8 x.bits.toNat
  | .text bs => textHead bs.length ++ bs
  | .binary bs => binaryHead bs.length ++ bs
  | .array items => arrayHead items.length ++ itemsOctets items
  | .map entries => mapHead entries.length ++ entriesOctets entries
  | .extension => [0xd4, 0, 0]

def itemsOctets : List Item → Bytes
  | [] => []
  | x :: xs => x.octets ++ itemsOctets xs

def entriesOctets : List (Item × Item) → Bytes
  | [] => []
  | (k, x) :: xs => k.octets ++ x.octets ++ entriesOctets xs

end

inductive Head
  | item (i : Item)
  | array (count : Nat)
  | map (count : Nat)
  deriving Repr

def take? (n : Nat) (bs : Bytes) : Option (Bytes × Bytes) :=
  let taken := bs.take n
  if taken.length = n then some (taken, bs.drop n) else none

def number? (width : Nat) (bs : Bytes) : Option (Nat × Bytes) :=
  (take? width bs).map fun (octets, rest) => (ofBigEndian octets, rest)

def unsigned? (width : Nat) (bs : Bytes) : Option (Head × Bytes) :=
  (number? width bs).map fun (n, rest) => (.item (.unsigned n), rest)

def signed? (width : Nat) (bs : Bytes) : Option (Head × Bytes) :=
  (number? width bs).map fun (n, rest) => (.item (.signed (ofTwosComplement width n)), rest)

def text? (n : Nat) (bs : Bytes) : Option (Head × Bytes) :=
  (take? n bs).map fun (octets, rest) => (.item (.text octets), rest)

def binary? (n : Nat) (bs : Bytes) : Option (Head × Bytes) :=
  (take? n bs).map fun (octets, rest) => (.item (.binary octets), rest)

def extension? (n : Nat) (bs : Bytes) : Option (Head × Bytes) :=
  (take? (n + 1) bs).map fun (_, rest) => (.item .extension, rest)

def widened (n : Nat) : Binary64 :=
  .ofFloat (Float32.ofBits (UInt32.ofNat n)).toFloat

def head? : Bytes → Option (Head × Bytes)
  | [] => none
  | b :: bs =>
    if b < 0x80 then some (.item (.unsigned b.toNat), bs)
    else if b < 0x90 then some (.map (b.toNat - 0x80), bs)
    else if b < 0xa0 then some (.array (b.toNat - 0x90), bs)
    else if b < 0xc0 then text? (b.toNat - 0xa0) bs
    else if 0xe0 ≤ b then some (.item (.signed (ofTwosComplement 1 b.toNat)), bs)
    else if b = 0xc0 then some (.item .nil, bs)
    else if b = 0xc2 then some (.item (.bool false), bs)
    else if b = 0xc3 then some (.item (.bool true), bs)
    else if b = 0xc4 then (number? 1 bs).bind fun (n, bs) => binary? n bs
    else if b = 0xc5 then (number? 2 bs).bind fun (n, bs) => binary? n bs
    else if b = 0xc6 then (number? 4 bs).bind fun (n, bs) => binary? n bs
    else if b = 0xc7 then (number? 1 bs).bind fun (n, bs) => extension? n bs
    else if b = 0xc8 then (number? 2 bs).bind fun (n, bs) => extension? n bs
    else if b = 0xc9 then (number? 4 bs).bind fun (n, bs) => extension? n bs
    else if b = 0xca then (number? 4 bs).map fun (n, bs) => (.item (.float (widened n)), bs)
    else if b = 0xcb then
      (number? 8 bs).map fun (n, bs) => (.item (.float ⟨UInt64.ofNat n⟩), bs)
    else if b = 0xcc then unsigned? 1 bs
    else if b = 0xcd then unsigned? 2 bs
    else if b = 0xce then unsigned? 4 bs
    else if b = 0xcf then unsigned? 8 bs
    else if b = 0xd0 then signed? 1 bs
    else if b = 0xd1 then signed? 2 bs
    else if b = 0xd2 then signed? 4 bs
    else if b = 0xd3 then signed? 8 bs
    else if b = 0xd4 then extension? 1 bs
    else if b = 0xd5 then extension? 2 bs
    else if b = 0xd6 then extension? 4 bs
    else if b = 0xd7 then extension? 8 bs
    else if b = 0xd8 then extension? 16 bs
    else if b = 0xd9 then (number? 1 bs).bind fun (n, bs) => text? n bs
    else if b = 0xda then (number? 2 bs).bind fun (n, bs) => text? n bs
    else if b = 0xdb then (number? 4 bs).bind fun (n, bs) => text? n bs
    else if b = 0xdc then (number? 2 bs).map fun (n, bs) => (.array n, bs)
    else if b = 0xdd then (number? 4 bs).map fun (n, bs) => (.array n, bs)
    else if b = 0xde then (number? 2 bs).map fun (n, bs) => (.map n, bs)
    else if b = 0xdf then (number? 4 bs).map fun (n, bs) => (.map n, bs)
    else none

def items? (item? : Bytes → Option (Item × Bytes)) : Nat → Bytes → Option (List Item × Bytes)
  | 0, bs => some ([], bs)
  | count + 1, bs =>
    match item? bs with
    | none => none
    | some (x, bs) => (items? item? count bs).map fun (xs, bs) => (x :: xs, bs)

def entries? (item? : Bytes → Option (Item × Bytes)) :
    Nat → Bytes → Option (List (Item × Item) × Bytes)
  | 0, bs => some ([], bs)
  | count + 1, bs =>
    match item? bs with
    | none => none
    | some (key, bs) =>
      match item? bs with
      | none => none
      | some (x, bs) => (entries? item? count bs).map fun (xs, bs) => ((key, x) :: xs, bs)

def item? (depth : Nat) (bs : Bytes) : Option (Item × Bytes) :=
  match head? bs with
  | none => none
  | some (.item i, rest) => some (i, rest)
  | some (.array count, rest) =>
    match depth with
    | 0 => none
    | depth + 1 => (items? (item? depth) count rest).map fun (xs, rest) => (.array xs, rest)
  | some (.map count, rest) =>
    match depth with
    | 0 => none
    | depth + 1 => (entries? (item? depth) count rest).map fun (xs, rest) => (.map xs, rest)

def depthLimit : Nat := 1023

-- The first item; what follows it is not looked at.
def ofOctets? (bs : Bytes) : Option Item :=
  (item? depthLimit bs).map Prod.fst

end CallFabric.MessagePack
