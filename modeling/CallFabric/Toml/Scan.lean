import CallFabric.Json.Basic
import CallFabric.Number.Numeral
import CallFabric.Text.Blank

namespace CallFabric.Toml

abbrev Reader (α : Type) := List Char → Option (α × List Char)

def isSpace (c : Char) : Bool := c = ' ' || c = '\t'

def skipSpace (cs : List Char) : List Char := cs.dropWhile isSpace

def newline? : List Char → Option (List Char)
  | '\n' :: rest => some rest
  | '\r' :: '\n' :: rest => some rest
  | _ => none

def isCommentChar (c : Char) : Bool :=
  c = '\t' || (' ' ≤ c && c.toNat ≠ 0x7f)

def skipComment (cs : List Char) : List Char :=
  match skipSpace cs with
  | '#' :: rest => rest.dropWhile isCommentChar
  | rest => rest

def lineEnd? (cs : List Char) : Option (List Char) :=
  match skipComment cs with
  | [] => some []
  | rest => newline? rest

def skipLines : Nat → List Char → List Char
  | 0, cs => cs
  | fuel + 1, cs =>
    let rest := skipComment cs
    match newline? rest with
    | some rest => skipLines fuel rest
    | none => rest

def hexValue? (c : Char) : Option Nat :=
  if Text.isDigit c then some (c.toNat - 0x30)
  else if 'a' ≤ c ∧ c ≤ 'f' then some (c.toNat - 0x57)
  else if 'A' ≤ c ∧ c ≤ 'F' then some (c.toNat - 0x37)
  else none

def codePoint? (count : Nat) (cs : List Char) : Option (Char × List Char) :=
  let ds := (cs.take count).filterMap hexValue?
  let n := ds.foldl (fun n d => n * 16 + d) 0
  if ds.length = count ∧ n.isValidChar then some (Char.ofNat n, cs.drop count) else none

def escape? : List Char → Option (Char × List Char)
  | 'b' :: rest => some ('\x08', rest)
  | 't' :: rest => some ('\t', rest)
  | 'n' :: rest => some ('\n', rest)
  | 'f' :: rest => some ('\x0c', rest)
  | 'r' :: rest => some ('\r', rest)
  | '"' :: rest => some ('"', rest)
  | '\\' :: rest => some ('\\', rest)
  | 'u' :: rest => codePoint? 4 rest
  | 'U' :: rest => codePoint? 8 rest
  | _ => none

def basicTail : Nat → Reader (List Char)
  | 0, _ => none
  | _ + 1, [] => none
  | fuel + 1, c :: rest =>
    if c = '"' then some ([], rest)
    else if c = '\\' then
      (escape? rest).bind fun (e, rest) => (basicTail fuel rest).map fun (s, rest) => (e :: s, rest)
    else if isCommentChar c then (basicTail fuel rest).map fun (s, rest) => (c :: s, rest)
    else none

def literalTail : Reader (List Char)
  | [] => none
  | c :: rest =>
    if c = '\'' then some ([], rest)
    else if isCommentChar c then (literalTail rest).map fun (s, rest) => (c :: s, rest)
    else none

-- At three quotes a string on many lines ends; up to two more belong to it.
def closing? (quote : Char) (cs : List Char) : Option (List Char × List Char) :=
  let found := (cs.takeWhile (· = quote)).length
  if found < 3 then none
  else
    let inside := min (found - 3) 2
    some (List.replicate inside quote, cs.drop (inside + 3))

-- Past a backslash at the end of a line: the line end and every blank and line end after it.
def skipFold (fuel : Nat) (cs : List Char) : Option (List Char) :=
  (newline? (skipSpace cs)).map (go fuel)
where
  go : Nat → List Char → List Char
    | 0, cs => cs
    | fuel + 1, cs =>
      match newline? (skipSpace cs) with
      | some rest => go fuel rest
      | none => skipSpace cs

def manyBasicTail : Nat → Reader (List Char)
  | 0, _ => none
  | fuel + 1, cs =>
    match closing? '"' cs with
    | some found => some found
    | none =>
      match newline? cs with
      | some rest => (manyBasicTail fuel rest).map fun (s, rest) => ('\n' :: s, rest)
      | none =>
        match cs with
        | '\\' :: rest =>
          match escape? rest with
          | some (e, rest) => (manyBasicTail fuel rest).map fun (s, rest) => (e :: s, rest)
          | none => (skipFold rest.length rest).bind (manyBasicTail fuel)
        | c :: rest =>
          if isCommentChar c then (manyBasicTail fuel rest).map fun (s, rest) => (c :: s, rest)
          else none
        | [] => none

def manyLiteralTail : Nat → Reader (List Char)
  | 0, _ => none
  | fuel + 1, cs =>
    match closing? '\'' cs with
    | some found => some found
    | none =>
      match newline? cs with
      | some rest => (manyLiteralTail fuel rest).map fun (s, rest) => ('\n' :: s, rest)
      | none =>
        match cs with
        | c :: rest =>
          if isCommentChar c then (manyLiteralTail fuel rest).map fun (s, rest) => (c :: s, rest)
          else none
        | [] => none

def dropFirstNewline (cs : List Char) : List Char :=
  (newline? cs).getD cs

def toText (r : Option (List Char × List Char)) : Option (String × List Char) :=
  r.map fun (s, rest) => (.ofList s, rest)

def lineString : Reader String
  | '"' :: rest => toText (basicTail (rest.length + 1) rest)
  | '\'' :: rest => toText (literalTail rest)
  | _ => none

def string : Reader String
  | '"' :: '"' :: '"' :: rest =>
    toText (manyBasicTail (rest.length + 1) (dropFirstNewline rest))
  | '\'' :: '\'' :: '\'' :: rest =>
    toText (manyLiteralTail (rest.length + 1) (dropFirstNewline rest))
  | cs => lineString cs

def isBareKeyChar (c : Char) : Bool :=
  ('a' ≤ c && c ≤ 'z') || ('A' ≤ c && c ≤ 'Z') || Text.isDigit c || c = '-' || c = '_'

def simpleKey (cs : List Char) : Option (String × List Char) :=
  match cs with
  | '"' :: _ | '\'' :: _ => lineString cs
  | _ =>
    let key := cs.takeWhile isBareKeyChar
    if key.isEmpty then none else some (.ofList key, cs.dropWhile isBareKeyChar)

def keyPath : Nat → Reader (List String)
  | 0, _ => none
  | fuel + 1, cs =>
    (simpleKey (skipSpace cs)).bind fun (key, rest) =>
      match skipSpace rest with
      | '.' :: rest => (keyPath fuel rest).map fun (keys, rest) => (key :: keys, rest)
      | rest => some ([key], rest)

def spacedDigits (value? : Char → Option Nat) : List Char → List Nat × List Char
  | c :: rest =>
    match value? c with
    | some d =>
      match rest with
      | '_' :: e :: more =>
        if (value? e).isSome then
          let (ds, rest) := spacedDigits value? (e :: more)
          (d :: ds, rest)
        else ([d], rest)
      | rest =>
        let (ds, rest) := spacedDigits value? rest
        (d :: ds, rest)
    | none => ([], c :: rest)
  | [] => ([], [])

def decimalValue? (c : Char) : Option Nat :=
  if Text.isDigit c then some (c.toNat - 0x30) else none

def below (radix : Nat) (c : Char) : Option Nat :=
  (hexValue? c).filter (· < radix)

def sign : List Char → Bool × List Char
  | '-' :: rest => (true, rest)
  | '+' :: rest => (false, rest)
  | cs => (false, cs)

def wholePart? (cs : List Char) : Option (List Nat × List Char) :=
  match cs with
  | '0' :: rest => some ([0], rest)
  | cs =>
    let (ds, rest) := spacedDigits decimalValue? cs
    if ds.isEmpty then none else some (ds, rest)

def fraction? : Reader (List Nat)
  | '.' :: rest =>
    let (ds, rest) := spacedDigits decimalValue? rest
    if ds.isEmpty then none else some (ds, rest)
  | _ => none

def exponent? : Reader (Bool × List Nat)
  | c :: rest =>
    if c = 'e' ∨ c = 'E' then
      let (minus, rest) := sign rest
      let (ds, rest) := spacedDigits decimalValue? rest
      if ds.isEmpty then none else some ((minus, ds), rest)
    else none
  | [] => none

-- What a float's numeral stands for; a positive one beyond the greatest float is refused.
def floatOf? (n : Numeral) : Option Json :=
  match n.value? with
  | some (.int i) => some (.int i)
  | some (.float x) => some (.float x)
  | none => if n.negative then some (.float (.ofFloat (-1.0 / 0.0))) else none

def float (cs : List Char) : Option (Json × List Char) :=
  let (negative, cs) := sign cs
  match cs with
  | 'i' :: 'n' :: 'f' :: rest =>
    some (.float (.ofFloat (if negative then -1.0 / 0.0 else 1.0 / 0.0)), rest)
  | 'n' :: 'a' :: 'n' :: rest => some (.float (.ofFloat (0.0 / 0.0)), rest)
  | _ => do
    let (whole, rest) ← wholePart? cs
    match fraction? rest with
    | some (fraction, rest) =>
      match exponent? rest with
      | some (e, rest) => return (← floatOf? ⟨negative, whole, fraction, some e⟩, rest)
      | none => return (← floatOf? ⟨negative, whole, fraction, none⟩, rest)
    | none =>
      let (e, rest) ← exponent? rest
      return (← floatOf? ⟨negative, whole, [], some e⟩, rest)

def inRange? (i : Int) : Option Json :=
  if -0x8000000000000000 ≤ i ∧ i < 0x8000000000000000 then some (.int i) else none

def radixInteger (radix : Nat) (cs : List Char) : Option (Json × List Char) :=
  let (ds, rest) := spacedDigits (below radix) cs
  if ds.isEmpty then none
  else (inRange? (ds.foldl (fun n d => n * radix + d) 0 : Nat)).map fun v => (v, rest)

def integer : List Char → Option (Json × List Char)
  | '0' :: 'x' :: rest => radixInteger 16 rest
  | '0' :: 'o' :: rest => radixInteger 8 rest
  | '0' :: 'b' :: rest => radixInteger 2 rest
  | cs => do
    let (negative, cs) := sign cs
    let (ds, rest) ← wholePart? cs
    let n := ofDigits ds
    let v ← inRange? (if negative then -(n : Int) else n)
    return (v, rest)

def fixedNumber (count least greatest : Nat) (cs : List Char) : Option (Nat × List Char) :=
  let ds := (cs.take count).filterMap decimalValue?
  let n := ofDigits ds
  if ds.length = count ∧ least ≤ n ∧ n ≤ greatest then some (n, cs.drop count) else none

def daysIn (year month : Nat) : Nat :=
  if month = 2 then
    if year % 4 = 0 ∧ (year % 100 ≠ 0 ∨ year % 400 = 0) then 29 else 28
  else if month = 4 ∨ month = 6 ∨ month = 9 ∨ month = 11 then 30
  else 31

def symbol? (c : Char) : List Char → Option (List Char)
  | d :: rest => if d = c then some rest else none
  | [] => none

def taken (before after : List Char) : List Char :=
  before.take (before.length - after.length)

def date (cs : List Char) : Option (List Char × List Char) := do
  let (year, rest) ← fixedNumber 4 0 9999 cs
  let rest ← symbol? '-' rest
  let (month, rest) ← fixedNumber 2 1 12 rest
  let rest ← symbol? '-' rest
  let (_, rest) ← fixedNumber 2 1 (daysIn year month) rest
  return (taken cs rest, rest)

-- Up to nine digits of a second's fraction count, without zeros at the end.
def secondFraction (ds : List Char) : List Char :=
  match ((ds.take 9).reverse.dropWhile (· = '0')).reverse with
  | [] => []
  | kept => '.' :: kept

def time (cs : List Char) : Option (List Char × List Char) := do
  let (_, rest) ← fixedNumber 2 0 23 cs
  let rest ← symbol? ':' rest
  let (_, rest) ← fixedNumber 2 0 59 rest
  let rest ← symbol? ':' rest
  let (_, rest) ← fixedNumber 2 0 60 rest
  let clock := taken cs rest
  match rest with
  | '.' :: more =>
    let ds := more.takeWhile Text.isDigit
    if ds.isEmpty then return (clock, rest)
    else return (clock ++ secondFraction ds, more.dropWhile Text.isDigit)
  | _ => return (clock, rest)

def offset (cs : List Char) : Option (List Char × List Char) :=
  match cs with
  | 'Z' :: rest | 'z' :: rest => some (['Z'], rest)
  | '+' :: rest | '-' :: rest => do
    let (_, rest) ← fixedNumber 2 0 23 rest
    let rest ← symbol? ':' rest
    let (_, rest) ← fixedNumber 2 0 59 rest
    return (taken cs rest, rest)
  | _ => none

-- The member under which a moment in time is an object.
def momentKey : String := "$__toml_private_datetime"

def moment (text : List Char) : Json := .obj [(momentKey, .str (.ofList text))]

def isDateEnd (c : Char) : Bool := c = 'T' || c = 't' || c = ' '

def dateTime (cs : List Char) : Option (Json × List Char) :=
  match date cs with
  | some (day, rest) =>
    match rest with
    | c :: more =>
      match (if isDateEnd c then time more else none) with
      | some (clock, rest) =>
        match offset rest with
        | some (zone, rest) => some (moment (day ++ 'T' :: clock ++ zone), rest)
        | none => some (moment (day ++ 'T' :: clock), rest)
      | none => some (moment day, rest)
    | [] => some (moment day, [])
  | none => (time cs).map fun (clock, rest) => (moment clock, rest)

def looksDated (cs : List Char) : Bool :=
  let ds := cs.takeWhile Text.isDigit
  (ds.length = 4 && (cs.drop 4).head? = some '-') || (ds.length = 2 && (cs.drop 2).head? = some ':')

def number (cs : List Char) : Option (Json × List Char) :=
  if looksDated cs then dateTime cs
  else (float cs).or (integer cs)

def word? (word : String) (v : Json) (cs : List Char) : Option (Json × List Char) :=
  if word.toList.isPrefixOf cs then some (v, cs.drop word.length) else none

end CallFabric.Toml
