import CallFabric.Http.MediaType
import CallFabric.Text.Charset

namespace CallFabric.Multipart

structure PartHeader where
  name : Option String
  fileName : Option String
  charset : Option String
  deriving DecidableEq, Repr

structure Part where
  header : PartHeader
  content : Bytes
  deriving DecidableEq, Repr

def Part.text (p : Part) : String :=
  ((p.header.charset.bind Charset.ofLabel?).getD .utf8).decode p.content

inductive Ending
  | complete
  | broken
  | cutOff (header : PartHeader)
  deriving DecidableEq, Repr

def lineEnd : Bytes := [0x0d, 0x0a]
def hyphens : Bytes := [0x2d, 0x2d]

def isNameOctet (b : UInt8) : Bool := b < 0x80 && Headers.isTokenChar (Char.ofNat b.toNat)

def isPadding (b : UInt8) : Bool := b = 0x20 || b = 0x09

def trimEnd (bs : Bytes) : Bytes := (bs.reverse.dropWhile isPadding).reverse

def afterLine? : Bytes → Option Bytes
  | 0x0d :: 0x0a :: rest | 0x0a :: rest => some rest
  | _ => none

def field? (bs : Bytes) : Option ((String × Bytes) × Bytes) :=
  let name := bs.takeWhile isNameOctet
  match bs.dropWhile isNameOctet with
  | 0x3a :: rest =>
    let rest := rest.dropWhile isPadding
    let value := rest.takeWhile Headers.isValueOctet
    if name.isEmpty then none
    else (afterLine? (rest.dropWhile Headers.isValueOctet)).map fun after =>
      ((Text.lower (Bytes.lossy name), trimEnd value), after)
  | _ => none

def fields? : Nat → Bytes → Option Headers
  | limit, bs =>
    match afterLine? bs with
    | some _ => some []
    | none =>
      match limit, field? bs with
      | limit + 1, some (field, rest) => (fields? limit rest).map (field :: ·)
      | _, _ => none

def fieldLimit : Nat := 32

def last? (hs : Headers) (name : String) : Option Bytes := Headers.first? hs.reverse name

def isBlank (b : UInt8) : Bool := Bytes.isBlank b

def quotedTo? : Bytes → Option Bytes
  | [] => none
  | 0x22 :: _ => some []
  | 0x5c :: 0x22 :: rest => (quotedTo? rest).map fun value => 0x5c :: 0x22 :: value
  | b :: rest => (quotedTo? rest).map (b :: ·)

def unescape : List Char → List Char
  | '\\' :: '"' :: rest => '"' :: unescape rest
  | c :: rest => c :: unescape rest
  | [] => []

def valueAfter? (bs : Bytes) : Option String :=
  match bs.dropWhile isBlank with
  | 0x3d :: rest =>
    match rest.dropWhile isBlank with
    | 0x22 :: rest => do
      let s ← Bytes.text? (← quotedTo? rest)
      return .ofList (unescape s.toList)
    | rest => Bytes.text? (rest.takeWhile fun b => b ≠ 0x3b ∧ b ≠ 0x20)
  | _ => none

-- Looks for a name at the start, behind a blank or behind a semicolon; the first place where it
-- stands so decides. Where it stands otherwise it is passed over, and what follows it is a start.
def attributeFrom? (name : Bytes) : Nat → Option UInt8 → Bytes → Option String
  | _, _, [] => none
  | passing + 1, _, _ :: bs => attributeFrom? name passing none bs
  | 0, previous, b :: bs =>
    match Bytes.dropLead? name (b :: bs) with
    | none => attributeFrom? name 0 (some b) bs
    | some after =>
      if previous.all fun p => isBlank p || p = 0x3b then valueAfter? after
      else attributeFrom? name (name.length - 1) none bs

def attribute? (name : String) (disposition : Bytes) : Option String :=
  attributeFrom? (Bytes.ofText name) 0 none disposition

def headerOf (fields : Headers) : PartHeader :=
  let disposition := last? fields "content-disposition"
  let type := ((last? fields "content-type").bind Headers.visible?).bind MediaType.ofText?
  ⟨disposition.bind (attribute? "name"), disposition.bind (attribute? "filename"),
    type.bind (·.parameter? "charset")⟩

def delimiter (boundary : String) : Bytes := hyphens ++ Bytes.ofText boundary

inductive Step (α : Type)
  | finished (e : Ending)
  | part (p : Part) (rest : α)

def next (boundary : String) (bs : Bytes) : Step { rest : Bytes // rest.length < bs.length } :=
  match hh : Bytes.dropLead? hyphens bs with
  | some _ => .finished .complete
  | none =>
    if bs.length < 2 then .finished .broken
    else
      match hl : Bytes.dropLead? lineEnd (bs.dropWhile isPadding) with
      | none => .finished .broken
      | some afterLine =>
        match hs : Bytes.splitAt? (lineEnd ++ lineEnd) afterLine with
        | none => .finished .broken
        | some (section', afterFields) =>
          match fields? fieldLimit (section' ++ lineEnd ++ lineEnd) with
          | none => .finished .broken
          | some fields =>
            let header := headerOf fields
            match hd : Bytes.splitAt? (lineEnd ++ delimiter boundary) afterFields with
            | none => .finished (.cutOff header)
            | some (content, rest) => .part ⟨header, content⟩ ⟨rest, by
                have h₁ := Bytes.length_splitAt? hd
                have h₂ := Bytes.length_splitAt? hs
                have h₃ := Bytes.length_dropLead? hl
                have h₄ : (bs.dropWhile isPadding).length ≤ bs.length :=
                  (List.dropWhile_sublist _).length_le
                simp [lineEnd, delimiter, hyphens] at h₁ h₂ h₃
                omega⟩

def partsFrom (boundary : String) (bs : Bytes) : List Part × Ending :=
  match next boundary bs with
  | .finished e => ([], e)
  | .part p ⟨rest, _⟩ =>
    let (parts, ending) := partsFrom boundary rest
    (p :: parts, ending)
termination_by bs.length

-- The parts of a body; what stands in front of the first delimiter is not looked at.
def parts (boundary : String) (body : Bytes) : List Part × Ending :=
  match Bytes.splitAt? (delimiter boundary) body with
  | none => ([], .broken)
  | some (_, rest) => partsFrom boundary rest

end CallFabric.Multipart
