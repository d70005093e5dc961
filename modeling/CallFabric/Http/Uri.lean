import CallFabric.Text.Blank
import CallFabric.Text.Bytes

namespace CallFabric

structure PathAndQuery where
  path : String
  query : Option String
  deriving DecidableEq, Repr

namespace PathAndQuery

-- Characters that need no escape in a path; braces and quotes are let through, and so is whatever
-- is not ASCII.
def isPathChar (c : Char) : Bool :=
  c = '!' || ('$' ≤ c && c ≤ ';') || c = '=' || ('@' ≤ c && c ≤ '_') || ('a' ≤ c && c ≤ 'z')
    || c = '|' || c = '~' || c = '"' || c = '\x7b' || c = '\x7d' || '\x7f' ≤ c

def isQueryChar (c : Char) : Bool :=
  c = '!' || ('$' ≤ c && c ≤ ';') || c = '=' || '?' ≤ c

def ofChars? (cs : List Char) : Option PathAndQuery :=
  let target := cs.takeWhile (· ≠ '#')
  let path := target.takeWhile (· ≠ '?')
  let query := (target.dropWhile (· ≠ '?')).drop 1
  if !path.all isPathChar || !query.all isQueryChar then none
  else some ⟨if path.isEmpty then "/" else .ofList path,
    if '?' ∈ target then some (.ofList query) else none⟩

def ofText? (s : String) : Option PathAndQuery := ofChars? s.toList

end PathAndQuery

structure Uri where
  scheme : Option String
  authority : Option String
  path : String
  query : Option String
  deriving DecidableEq, Repr

namespace Uri

def isLetterOrDigit (c : Char) : Bool :=
  ('a' ≤ c && c ≤ 'z') || ('A' ≤ c && c ≤ 'Z') || Text.isDigit c

-- The characters of an authority. A percent sign is none: it may only stand where it is not part
-- of a name.
def isAuthorityChar (c : Char) : Bool :=
  isLetterOrDigit c
    || c ∈ ['!', '$', '&', '\'', '(', ')', '*', '+', ',', '-', '.', ';', '=', '_', '~']

structure AuthorityScan where
  colons : Nat
  opened : Bool
  closed : Bool
  percent : Bool

def maxColons : Nat := 8

def AuthorityScan.next (s : AuthorityScan) (c : Char) : Option AuthorityScan :=
  match c with
  | ':' => if maxColons ≤ s.colons then none else some { s with colons := s.colons + 1 }
  | '[' => if s.percent || s.opened then none else some { s with opened := true }
  | ']' =>
    if !s.opened || s.closed then none
    else some { s with closed := true, colons := 0, percent := false }
  | '@' => some { s with colons := 0, percent := false }
  | '%' => some { s with percent := true }
  | c => if isAuthorityChar c then some s else none

def isAuthority (cs : List Char) : Bool :=
  match cs.foldlM AuthorityScan.next ⟨0, false, false, false⟩ with
  | none => false
  | some s => s.opened = s.closed && s.colons ≤ 1 && !s.percent && cs.getLast? ≠ some '@'

def isSchemeChar (c : Char) : Bool :=
  isLetterOrDigit c || c = '+' || c = '-' || c = '.' || c = '~'

def maxScheme : Nat := 64

def schemeOf? (cs : List Char) : Option (Option String × List Char) :=
  let name := cs.takeWhile isSchemeChar
  match cs.dropWhile isSchemeChar with
  | ':' :: '/' :: '/' :: rest =>
    let text := String.ofList name
    let lowered := Text.lower text
    if lowered = "http" ∨ lowered = "https" then some (some lowered, rest)
    else if cs.length ≤ 3 then some (none, cs)
    else if maxScheme < name.length then none
    else some (some text, rest)
  | _ => some (none, cs)

def endsAuthority (c : Char) : Bool := c = '/' || c = '?' || c = '#'

def ofHost? (cs : List Char) : Option Uri := do
  let (scheme, rest) ← schemeOf? cs
  let authority := rest.takeWhile (!endsAuthority ·)
  let after := rest.dropWhile (!endsAuthority ·)
  if !isAuthority authority then none
  else if scheme.isSome then
    if authority.isEmpty then none
    else
      let target ← PathAndQuery.ofChars? after
      return ⟨scheme, some (.ofList authority), target.path, target.query⟩
  else if after.isEmpty then some ⟨none, some (.ofList authority), "", none⟩
  else none

def maxLength : Nat := 65534

def ofText? (s : String) : Option Uri :=
  if maxLength < (Bytes.ofText s).length then none
  else
    match s.toList with
    | [] => none
    | ['*'] => some ⟨none, none, "*", none⟩
    | '/' :: cs =>
      (PathAndQuery.ofChars? ('/' :: cs)).map fun target =>
        ⟨none, none, target.path, target.query⟩
    | cs => ofHost? cs

def text (u : Uri) : String :=
  (u.scheme.map (· ++ "://")).getD "" ++ u.authority.getD "" ++ u.path
    ++ (u.query.map ("?" ++ ·)).getD ""

end Uri
end CallFabric
