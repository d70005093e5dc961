namespace CallFabric.Text

-- The Unicode property White_Space.
def isBlank (c : Char) : Bool :=
  let n := c.toNat
  (0x9 ≤ n && n ≤ 0xd) || n = 0x20 || n = 0x85 || n = 0xa0 || n = 0x1680
    || (0x2000 ≤ n && n ≤ 0x200a) || n = 0x2028 || n = 0x2029 || n = 0x202f || n = 0x205f
    || n = 0x3000

def trimEnd (cs : List Char) : List Char :=
  (cs.reverse.dropWhile isBlank).reverse

def trimChars (cs : List Char) : List Char :=
  trimEnd (cs.dropWhile isBlank)

def trim (s : String) : String :=
  .ofList (trimChars s.toList)

def lowerChar (c : Char) : Char :=
  if 'A' ≤ c ∧ c ≤ 'Z' then Char.ofNat (c.toNat + 32) else c

def lower (s : String) : String :=
  .ofList (s.toList.map lowerChar)

def splitChars (separator : Char) : List Char → List (List Char)
  | [] => [[]]
  | c :: cs =>
    match splitChars separator cs with
    | [] => [[c]]
    | piece :: more => if c = separator then [] :: piece :: more else (c :: piece) :: more

def split (separator : Char) (s : String) : List String :=
  (splitChars separator s.toList).map .ofList

def splitFirst? (separator : Char) (s : String) : Option (String × String) :=
  match s.toList.dropWhile (· ≠ separator) with
  | [] => none
  | _ :: after => some (.ofList (s.toList.takeWhile (· ≠ separator)), .ofList after)

def startsWith (s lead : String) : Bool :=
  lead.toList.isPrefixOf s.toList

def contains (s : String) (c : Char) : Bool :=
  s.toList.contains c

def join (separator : String) : List String → String
  | [] => ""
  | [s] => s
  | s :: rest => s ++ separator ++ join separator rest

def isDigit (c : Char) : Bool :=
  '0' ≤ c && c ≤ '9'

def natOfDigits? (cs : List Char) : Option Nat :=
  let ds := match cs with
    | '+' :: ds => ds
    | ds => ds
  if ds.isEmpty || !ds.all isDigit then none
  else some (ds.foldl (fun n d => n * 10 + (d.toNat - 0x30)) 0)

def word64? (s : String) : Option Nat :=
  (natOfDigits? s.toList).bind fun n => if n < 0x10000000000000000 then some n else none

end CallFabric.Text
