import CallFabric.Text.Blank

namespace CallFabric

inductive SocketAddress
  | octets (address : List Nat) (port : Nat)
  | groups (address : List Nat) (scope port : Nat)
  deriving DecidableEq, Repr

namespace SocketAddress

abbrev Reader (α : Type) := List Char → Option (α × List Char)

def symbol (c : Char) : Reader Unit
  | d :: rest => if d = c then some ((), rest) else none
  | [] => none

def digitOf? (radix : Nat) (c : Char) : Option Nat :=
  let n := c.toNat
  let value :=
    if Text.isDigit c then n - 0x30
    else if 'a' ≤ c ∧ c ≤ 'z' then n - 0x57
    else if 'A' ≤ c ∧ c ≤ 'Z' then n - 0x37
    else radix
  if value < radix then some value else none

def digitsOf (radix : Nat) : List Char → List Nat × List Char
  | [] => ([], [])
  | c :: rest =>
    match digitOf? radix c with
    | some d =>
      let (ds, rest) := digitsOf radix rest
      (d :: ds, rest)
    | none => ([], c :: rest)

def number (radix bound : Nat) (most : Option Nat) (leadingZero : Bool) : Reader Nat := fun cs =>
  let (ds, rest) := digitsOf radix cs
  let value := ds.foldl (fun n d => n * radix + d) 0
  if ds.isEmpty || most.any (· < ds.length) || bound ≤ value then none
  else if !leadingZero && ds.head? = some 0 && 1 < ds.length then none
  else some (value, rest)

def octet : Reader Nat := number 10 256 (some 3) false

def fourOctets : Reader (List Nat) := fun cs => do
  let (a, cs) ← octet cs
  let (_, cs) ← symbol '.' cs
  let (b, cs) ← octet cs
  let (_, cs) ← symbol '.' cs
  let (c, cs) ← octet cs
  let (_, cs) ← symbol '.' cs
  let (d, cs) ← octet cs
  return ([a, b, c, d], cs)

def groupsOf : List Nat → List Nat
  | [a, b, c, d] => [a * 256 + b, c * 256 + d]
  | _ => []

def portAfterColon : Reader Nat := fun cs => do
  let (_, cs) ← symbol ':' cs
  number 10 65536 none true cs

def separated {α : Type} (isFirst : Bool) (reader : Reader α) : Reader α := fun cs =>
  if isFirst then reader cs
  else (symbol ':' cs).bind fun (_, cs) => reader cs

-- Reads groups until one is missing or `left` were read: the groups, whether four octets ended
-- them, and what follows.
def groupsFrom : Nat → Bool → List Char → List Nat × Bool × List Char
  | 0, _, cs => ([], false, cs)
  | left + 1, isFirst, cs =>
    match (if 0 < left then separated isFirst fourOctets cs else none) with
    | some (quad, rest) => (groupsOf quad, true, rest)
    | none =>
      match separated isFirst (number 16 65536 (some 4) true) cs with
      | some (group, rest) =>
        let (more, inOctets, rest) := groupsFrom left false rest
        (group :: more, inOctets, rest)
      | none => ([], false, cs)

def eightGroups : Reader (List Nat) := fun cs =>
  let (head, inOctets, rest) := groupsFrom 8 true cs
  if head.length = 8 then some (head, rest)
  else if inOctets then none
  else do
    let (_, rest) ← symbol ':' rest
    let (_, rest) ← symbol ':' rest
    let (tail, _, rest) := groupsFrom (8 - (head.length + 1)) true rest
    return (head ++ List.replicate (8 - head.length - tail.length) 0 ++ tail, rest)

def scopeNumber : Reader Nat := fun cs =>
  match symbol '%' cs with
  | none => some (0, cs)
  | some (_, rest) => (number 10 0x100000000 none true rest).or (some (0, cs))

def withOctets : Reader SocketAddress := fun cs => do
  let (address, cs) ← fourOctets cs
  let (port, cs) ← portAfterColon cs
  return (.octets address port, cs)

def withGroups : Reader SocketAddress := fun cs => do
  let (_, cs) ← symbol '[' cs
  let (address, cs) ← eightGroups cs
  let (scope, cs) ← scopeNumber cs
  let (_, cs) ← symbol ']' cs
  let (port, cs) ← portAfterColon cs
  return (.groups address scope port, cs)

def ofText? (s : String) : Option SocketAddress :=
  match (withOctets s.toList).or (withGroups s.toList) with
  | some (address, []) => some address
  | _ => none

def isValid (s : String) : Bool := (ofText? s).isSome

def octetText (address : List Nat) : String := Text.join "." (address.map toString)

def hexText (n : Nat) : String := .ofList (Nat.toDigits 16 n)

def groupText (groups : List Nat) : String := Text.join ":" (groups.map hexText)

def zeros (groups : List Nat) : Nat := (groups.takeWhile (· = 0)).length

def longestZeros : List Nat → Nat × Nat
  | [] => (0, 0)
  | g :: gs =>
    let (start, length) := longestZeros gs
    let here := zeros (g :: gs)
    if length ≤ here then (0, here) else (start + 1, length)

-- Two zero groups or more are left out; octets that stand in for an address of groups are written
-- as octets.
def addressText (groups : List Nat) : String :=
  match groups with
  | [0, 0, 0, 0, 0, 0xffff, a, b] =>
    "::ffff:" ++ octetText [a / 256, a % 256, b / 256, b % 256]
  | _ =>
    let (start, length) := longestZeros groups
    if length < 2 then groupText groups
    else groupText (groups.take start) ++ "::" ++ groupText (groups.drop (start + length))

def text : SocketAddress → String
  | .octets address port => octetText address ++ ":" ++ toString port
  | .groups address scope port =>
    let scopeText := if scope = 0 then "" else "%" ++ toString scope
    "[" ++ addressText address ++ scopeText ++ "]:" ++ toString port

end SocketAddress
end CallFabric
