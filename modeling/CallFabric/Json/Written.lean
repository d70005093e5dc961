import CallFabric.Text.Utf8
import CallFabric.Number.Numeral
import CallFabric.Json.Basic

namespace CallFabric.Json

-- A text as its grammar has it, repetitions and escapes included. Whether a number can be held, a
-- string is text and the nesting is shallow enough is asked only of what becomes a value.
inductive Written
  | null
  | bool (b : Bool)
  | number (n : Numeral)
  | string (escaped : Bytes)
  | array (items : List Written)
  | object (members : List (Bytes × Written))
  deriving Repr, Inhabited

namespace Written

def isBlank (b : UInt8) : Bool :=
  b = 0x20 || b = 0x09 || b = 0x0a || b = 0x0d

def skipBlank (bs : Bytes) : Bytes :=
  bs.dropWhile isBlank

def simpleEscape? (b : UInt8) : Option UInt8 :=
  if b = 0x22 ∨ b = 0x5c ∨ b = 0x2f then some b
  else if b = 0x62 then some 0x08
  else if b = 0x66 then some 0x0c
  else if b = 0x6e then some 0x0a
  else if b = 0x72 then some 0x0d
  else if b = 0x74 then some 0x09
  else none

def isHex (b : UInt8) : Bool :=
  (Bytes.hexValue? b).isSome

def stringTail? : Bytes → Option (Bytes × Bytes)
  | [] => none
  | 0x22 :: rest => some ([], rest)
  | 0x5c :: 0x75 :: h₁ :: h₂ :: h₃ :: h₄ :: rest =>
    if isHex h₁ && isHex h₂ && isHex h₃ && isHex h₄ then
      (stringTail? rest).map fun (octets, rest) =>
        (0x5c :: 0x75 :: h₁ :: h₂ :: h₃ :: h₄ :: octets, rest)
    else none
  | 0x5c :: b :: rest =>
    if (simpleEscape? b).isSome then
      (stringTail? rest).map fun (octets, rest) => (0x5c :: b :: octets, rest)
    else none
  | b :: rest =>
    if b < 0x20 ∨ b = 0x5c then none
    else (stringTail? rest).map fun (octets, rest) => (b :: octets, rest)

def digitValues (bs : Bytes) : List Nat :=
  bs.map fun b => b.toNat - 0x30

def digits? (bs : Bytes) : Option (List Nat × Bytes) :=
  let ds := bs.takeWhile Bytes.isDigit
  if ds.isEmpty then none else some (digitValues ds, bs.dropWhile Bytes.isDigit)

def wholePart? (bs : Bytes) : Option (List Nat × Bytes) :=
  (digits? bs).bind fun (ds, rest) =>
    if ds.head? = some 0 ∧ 1 < ds.length then none else some (ds, rest)

def fractionPart? : Bytes → Option (List Nat × Bytes)
  | 0x2e :: bs => digits? bs
  | bs => some ([], bs)

def exponentSign : Bytes → Bool × Bytes
  | 0x2d :: bs => (true, bs)
  | 0x2b :: bs => (false, bs)
  | bs => (false, bs)

def exponentPart? : Bytes → Option (Option (Bool × List Nat) × Bytes)
  | [] => some (none, [])
  | b :: bs =>
    if b = 0x65 ∨ b = 0x45 then
      let (minus, bs) := exponentSign bs
      (digits? bs).map fun (ds, rest) => (some (minus, ds), rest)
    else some (none, b :: bs)

def numeral? (bs : Bytes) : Option (Numeral × Bytes) := do
  let (negative, bs) := match bs with
    | 0x2d :: bs => (true, bs)
    | bs => (false, bs)
  let (whole, bs) ← wholePart? bs
  let (fraction, bs) ← fractionPart? bs
  let (exponent, bs) ← exponentPart? bs
  return (⟨negative, whole, fraction, exponent⟩, bs)

def itemsTail? (item? : Bytes → Option (Written × Bytes)) :
    Nat → Bytes → Option (List Written × Bytes)
  | 0, _ => none
  | fuel + 1, bs =>
    match item? bs with
    | none => none
    | some (x, bs) =>
      match skipBlank bs with
      | 0x2c :: bs => (itemsTail? item? fuel bs).map fun (xs, bs) => (x :: xs, bs)
      | 0x5d :: bs => some ([x], bs)
      | _ => none

def key? (bs : Bytes) : Option (Bytes × Bytes) :=
  match skipBlank bs with
  | 0x22 :: bs =>
    match stringTail? bs with
    | some (key, bs) =>
      match skipBlank bs with
      | 0x3a :: bs => some (key, bs)
      | _ => none
    | none => none
  | _ => none

def membersTail? (item? : Bytes → Option (Written × Bytes)) :
    Nat → Bytes → Option (List (Bytes × Written) × Bytes)
  | 0, _ => none
  | fuel + 1, bs =>
    match key? bs with
    | none => none
    | some (key, bs) =>
      match item? bs with
      | none => none
      | some (x, bs) =>
        match skipBlank bs with
        | 0x2c :: bs => (membersTail? item? fuel bs).map fun (xs, bs) => ((key, x) :: xs, bs)
        | 0x7d :: bs => some ([(key, x)], bs)
        | _ => none

def word? (word : Bytes) (w : Written) (bs : Bytes) : Option (Written × Bytes) :=
  (Bytes.dropLead? word bs).map fun rest => (w, rest)

def value? : Nat → Bytes → Option (Written × Bytes)
  | 0, _ => none
  | fuel + 1, bs =>
    match skipBlank bs with
    | [] => none
    | b :: rest =>
      if b = 0x6e then word? [0x75, 0x6c, 0x6c] .null rest
      else if b = 0x74 then word? [0x72, 0x75, 0x65] (.bool true) rest
      else if b = 0x66 then word? [0x61, 0x6c, 0x73, 0x65] (.bool false) rest
      else if b = 0x22 then (stringTail? rest).map fun (octets, rest) => (.string octets, rest)
      else if b = 0x5b then
        match skipBlank rest with
        | 0x5d :: rest => some (.array [], rest)
        | rest => (itemsTail? (value? fuel) (rest.length + 1) rest).map fun (xs, rest) =>
            (.array xs, rest)
      else if b = 0x7b then
        match skipBlank rest with
        | 0x7d :: rest => some (.object [], rest)
        | rest => (membersTail? (value? fuel) (rest.length + 1) rest).map fun (xs, rest) =>
            (.object xs, rest)
      else (numeral? (b :: rest)).map fun (n, rest) => (.number n, rest)

def first? (bs : Bytes) : Option Written :=
  (value? (bs.length + 1) bs).map Prod.fst

def ofText? (bs : Bytes) : Option Written :=
  match value? (bs.length + 1) bs with
  | some (w, rest) => if (skipBlank rest).isEmpty then some w else none
  | none => none

def hexQuad (h₁ h₂ h₃ h₄ : UInt8) : Nat :=
  [h₁, h₂, h₃, h₄].foldl (fun n h => n * 16 + (Bytes.hexValue? h).getD 0) 0

def isHighHalf (n : Nat) : Bool := 0xd800 ≤ n && n < 0xdc00
def isLowHalf (n : Nat) : Bool := 0xdc00 ≤ n && n < 0xe000

-- Escapes replaced by what they stand for; nothing where half of a surrogate pair stands alone.
def unescape? : Bytes → Option Bytes
  | [] => some []
  | 0x5c :: 0x75 :: h₁ :: h₂ :: h₃ :: h₄ :: rest =>
    let n := hexQuad h₁ h₂ h₃ h₄
    if isHighHalf n then
      match rest with
      | 0x5c :: 0x75 :: l₁ :: l₂ :: l₃ :: l₄ :: rest =>
        let low := hexQuad l₁ l₂ l₃ l₄
        if isLowHalf low then
          (unescape? rest).map
            (Utf8.encode (0x10000 + (n - 0xd800) * 0x400 + (low - 0xdc00)) ++ ·)
        else none
      | _ => none
    else if isLowHalf n then none
    else (unescape? rest).map (Utf8.encode n ++ ·)
  | 0x5c :: b :: rest =>
    match simpleEscape? b with
    | some c => (unescape? rest).map (c :: ·)
    | none => none
  | b :: rest => (unescape? rest).map (b :: ·)

def text? (escaped : Bytes) : Option String :=
  (unescape? escaped).bind Bytes.text?

def number? (n : Numeral) : Option Json :=
  n.value?.map fun
    | .int i => .int i
    | .float x => .float x

def depthLimit : Nat := 127

mutual

def toJson? (depth : Nat) : Written → Option Json
  | .null => some .null
  | .bool b => some (.bool b)
  | .number n => number? n
  | .string s => (text? s).map .str
  | .array items =>
    match depth with
    | 0 => none
    | depth + 1 => (toItems? depth items).map .arr
  | .object members =>
    match depth with
    | 0 => none
    | depth + 1 => (toMembers? depth [] members).map .obj

def toItems? (depth : Nat) : List Written → Option (List Json)
  | [] => some []
  | x :: xs =>
    match toJson? depth x with
    | none => none
    | some v => (toItems? depth xs).map (v :: ·)

-- A repeated key keeps its last value.
def toMembers? (depth : Nat) (seen : List (String × Json)) :
    List (Bytes × Written) → Option (List (String × Json))
  | [] => some seen
  | (key, x) :: rest =>
    match text? key, toJson? depth x with
    | some key, some v => toMembers? depth (Table.insert key v seen) rest
    | _, _ => none

end

end Written

def ofText? (bs : Bytes) : Option Json :=
  (Written.ofText? bs).bind (Written.toJson? Written.depthLimit)

end CallFabric.Json
