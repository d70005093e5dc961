import CallFabric.Text.Utf8
import CallFabric.Text.Blank
import CallFabric.Text.Charset.UpperHalves

namespace CallFabric

inductive Charset
  | utf8
  | utf16 (bigEndian : Bool)
  -- One octet a character: ASCII, and these from 128 on.
  | octet (upper : List Char)
  -- Nothing is read, and a replacement character stands for whatever was there.
  | replacement
  deriving DecidableEq, Repr

namespace Charset

def utf8Labels : List String :=
  ["unicode-1-1-utf-8", "unicode11utf8", "unicode20utf8", "utf-8", "utf8", "x-unicode20utf8"]

def littleLabels : List String :=
  ["csunicode", "iso-10646-ucs-2", "ucs-2", "unicode", "unicodefeff", "utf-16", "utf-16le"]

def bigLabels : List String := ["unicodefffe", "utf-16be"]

def replacementLabels : List String :=
  ["csiso2022kr", "hz-gb-2312", "iso-2022-cn", "iso-2022-cn-ext", "iso-2022-kr", "replacement"]

def userDefined : List Char := (List.range 128).map fun n => Char.ofNat (0xf780 + n)

-- Case and ASCII blanks around a label do not matter. The charsets of several octets a character
-- are left out (gbk, gb18030, big5, euc-jp, iso-2022-jp, shift_jis and euc-kr), so their labels
-- name nothing here, and text under them is read as UTF-8.
def ofLabel? (label : String) : Option Charset :=
  let label := Text.lower (Text.trim label)
  if label ∈ utf8Labels then some .utf8
  else if label ∈ littleLabels then some (.utf16 false)
  else if label ∈ bigLabels then some (.utf16 true)
  else if label ∈ replacementLabels then some .replacement
  else if label = "x-user-defined" then some (.octet userDefined)
  else (upperHalves.find? fun (labels, _) => label ∈ labels).map fun (_, upper) =>
    .octet upper.toList

def units (bigEndian : Bool) : Bytes → List (Option Nat)
  | [] => []
  | [_] => [none]
  | a :: b :: rest =>
    let unit := if bigEndian then a.toNat * 256 + b.toNat else b.toNat * 256 + a.toNat
    some unit :: units bigEndian rest

def ofUnits : List (Option Nat) → List Char
  | [] => []
  | none :: rest => Utf8.replacement :: ofUnits rest
  | some unit :: rest =>
    if 0xd800 ≤ unit ∧ unit < 0xdc00 then
      match rest with
      | some low :: rest' =>
        if 0xdc00 ≤ low ∧ low < 0xe000 then
          Char.ofNat (0x10000 + (unit - 0xd800) * 0x400 + (low - 0xdc00)) :: ofUnits rest'
        else Utf8.replacement :: ofUnits (some low :: rest')
      | none :: rest' => Utf8.replacement :: ofUnits rest'
      | [] => [Utf8.replacement]
    else if 0xdc00 ≤ unit ∧ unit < 0xe000 then Utf8.replacement :: ofUnits rest
    else Char.ofNat unit :: ofUnits rest

def ofOctet (upper : List Char) (b : UInt8) : Char :=
  if b < 0x80 then Char.ofNat b.toNat else upper.getD (b.toNat - 128) Utf8.replacement

def chars : Charset → Bytes → List Char
  | .utf8, bs => Utf8.chars bs
  | .utf16 bigEndian, bs => ofUnits (units bigEndian bs)
  | .octet upper, bs => bs.map (ofOctet upper)
  | .replacement, [] => []
  | .replacement, _ => [Utf8.replacement]

def ofMark? : Bytes → Option (Charset × Bytes)
  | 0xef :: 0xbb :: 0xbf :: rest => some (.utf8, rest)
  | 0xff :: 0xfe :: rest => some (.utf16 false, rest)
  | 0xfe :: 0xff :: rest => some (.utf16 true, rest)
  | _ => none

def decode (c : Charset) (bs : Bytes) : String :=
  let (charset, rest) := (ofMark? bs).getD (c, bs)
  .ofList (charset.chars rest)

end Charset
end CallFabric
