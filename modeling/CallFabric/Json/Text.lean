import CallFabric.Text.Bytes
import CallFabric.Number.Digits
import CallFabric.Number.Shortest
import CallFabric.Json.Basic

namespace CallFabric.Json

def escapeOctet (b : UInt8) : Bytes :=
  if b = 0x22 then [0x5c, 0x22]
  else if b = 0x5c then [0x5c, 0x5c]
  else if b = 0x08 then [0x5c, 0x62]
  else if b = 0x0c then [0x5c, 0x66]
  else if b = 0x0a then [0x5c, 0x6e]
  else if b = 0x0d then [0x5c, 0x72]
  else if b = 0x09 then [0x5c, 0x74]
  else if b < 0x20 then
    [0x5c, 0x75, 0x30, 0x30, Bytes.hexDigit (b.toNat / 16), Bytes.hexDigit (b.toNat % 16)]
  else [b]

def quote (s : String) : Bytes :=
  0x22 :: (Bytes.ofText s).flatMap escapeOctet ++ [0x22]

def natText (n : Nat) : Bytes :=
  (digits n).map fun d => UInt8.ofNat (0x30 + d)

def intText (i : Int) : Bytes :=
  if i < 0 then 0x2d :: natText i.natAbs else natText i.natAbs

def leastPositional : Int := -5
def positionalBelow : Int := 16

-- Positional with a digit on both sides of the point, else one digit before the point, none
-- after it where there is none to write, and the exponent with its sign.
def decimalText (d : Decimal) : Bytes :=
  let ds := natText d.digits
  let first : Int := d.exponent + ds.length - 1
  if first < leastPositional ∨ positionalBelow ≤ first then
    let tail := match ds.drop 1 with
      | [] => []
      | rest => 0x2e :: rest
    ds.take 1 ++ tail ++ 0x65 :: (if first < 0 then 0x2d else 0x2b) :: natText first.natAbs
  else if 0 ≤ d.exponent then
    ds ++ List.replicate d.exponent.toNat 0x30 ++ [0x2e, 0x30]
  else if 0 ≤ first then
    ds.take (first.toNat + 1) ++ 0x2e :: ds.drop (first.toNat + 1)
  else
    [0x30, 0x2e] ++ List.replicate (-first - 1).toNat 0x30 ++ ds

def floatText (x : Binary64) : Bytes :=
  if x.isFinite then
    (if x.isNegative then [0x2d] else []) ++ decimalText x.shortest
  else [0x6e, 0x75, 0x6c, 0x6c]

mutual

def text : Json → Bytes
  | .null => [0x6e, 0x75, 0x6c, 0x6c]
  | .bool true => [0x74, 0x72, 0x75, 0x65]
  | .bool false => [0x66, 0x61, 0x6c, 0x73, 0x65]
  | .int i => intText i
  | .float x => floatText x
  | .str s => quote s
  | .arr [] => [0x5b, 0x5d]
  | .arr (x :: xs) => 0x5b :: x.text ++ itemsText xs
  | .obj [] => [0x7b, 0x7d]
  | .obj ((k, x) :: xs) => 0x7b :: quote k ++ 0x3a :: x.text ++ membersText xs

def itemsText : List Json → Bytes
  | [] => [0x5d]
  | x :: xs => 0x2c :: x.text ++ itemsText xs

def membersText : List (String × Json) → Bytes
  | [] => [0x7d]
  | (k, x) :: xs => 0x2c :: quote k ++ 0x3a :: x.text ++ membersText xs

end

def render (j : Json) : String :=
  (Bytes.text? j.text).getD ""

end CallFabric.Json
