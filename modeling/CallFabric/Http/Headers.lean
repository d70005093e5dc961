import CallFabric.Text.Bytes
import CallFabric.Text.Blank

namespace CallFabric

abbrev Headers := List (String × Bytes)

namespace Headers

def isTokenChar (c : Char) : Bool :=
  ('a' ≤ c && c ≤ 'z') || ('A' ≤ c && c ≤ 'Z') || ('0' ≤ c && c ≤ '9')
    || c ∈ ['!', '#', '$', '%', '&', '\'', '*', '+', '-', '.', '^', '_', '\x60', '|', '~']

def isName (s : String) : Bool :=
  !s.toList.isEmpty && s.toList.all isTokenChar

def isValueOctet (b : UInt8) : Bool :=
  b = 0x09 || (0x20 ≤ b && b ≠ 0x7f)

def isVisible (b : UInt8) : Bool :=
  b = 0x09 || (0x20 ≤ b && b < 0x7f)

-- Appends a field that HTTP allows; any other is left out.
def add (hs : Headers) (name : String) (value : Bytes) : Headers :=
  if isName name && value.all isValueOctet then hs ++ [(Text.lower name, value)] else hs

def ofPairs (pairs : List (String × Bytes)) : Headers :=
  pairs.foldl (fun hs (name, value) => hs.add name value) []

def visible? (value : Bytes) : Option String :=
  if value.all isVisible then Bytes.text? value else none

def first? (hs : Headers) (name : String) : Option Bytes :=
  (hs.find? fun (n, _) => n = name).map Prod.snd

-- Only visible ASCII, spaces and tabs make a value text.
def text? (hs : Headers) (name : String) : Option String :=
  (hs.first? name).bind visible?

def texts (hs : Headers) (name : String) : List String :=
  hs.filterMap fun (n, v) => if n = name then visible? v else none

def names (hs : Headers) : List String :=
  (hs.map Prod.fst).eraseDups

end Headers
end CallFabric
