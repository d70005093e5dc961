import CallFabric.Http.Headers

namespace CallFabric

structure MediaType where
  type : String
  subtype : String
  parameters : List (String × String)
  deriving DecidableEq, Repr

namespace MediaType

-- The characters of a quoted value up to the quote that ends it, which is not the first.
def quoted? : List Char → Option (List Char × List Char)
  | [] => none
  | c :: cs =>
    if c.toNat < 32 ∨ c.toNat = 127 then none
    else
      match cs with
      | '"' :: rest => some ([c], rest)
      | _ => (quoted? cs).map fun (value, rest) => (c :: value, rest)

def afterQuoted? (cs : List Char) : Option (List Char) :=
  match cs.dropWhile (· = ' ') with
  | [] => some []
  | ';' :: rest => some rest
  | _ => none

def value? (cs : List Char) : Option (List Char × List Char) :=
  match cs with
  | '"' :: rest => do
    let (value, rest) ← quoted? rest
    return (value, ← afterQuoted? rest)
  | _ =>
    let value := cs.takeWhile Headers.isTokenChar
    match cs.dropWhile Headers.isTokenChar with
    | [] => some (value, [])
    | ';' :: rest => if value.isEmpty then none else some (value, rest)
    | _ => none

def parameters? : Nat → List Char → Option (List (String × String))
  | 0, _ => none
  | fuel + 1, cs =>
    match cs.dropWhile (· = ' ') with
    | [] => some []
    | cs =>
      let name := cs.takeWhile Headers.isTokenChar
      match cs.dropWhile Headers.isTokenChar with
      | '=' :: rest =>
        if name.isEmpty then none
        else do
          let (value, rest) ← value? rest
          let more ← parameters? fuel rest
          return (Text.lower (.ofList name), .ofList value) :: more
      | _ => none

def ofText? (s : String) : Option MediaType :=
  let type := s.toList.takeWhile Headers.isTokenChar
  match s.toList.dropWhile Headers.isTokenChar with
  | '/' :: rest =>
    let subtype := rest.takeWhile Headers.isTokenChar
    let found (parameters : List (String × String)) : MediaType :=
      ⟨Text.lower (.ofList type), Text.lower (.ofList subtype), parameters⟩
    if type.isEmpty then none
    else
      match rest.dropWhile Headers.isTokenChar with
      | [] => some (found [])
      | ';' :: rest =>
        if subtype.isEmpty then none else (parameters? (rest.length + 1) rest).map found
      | _ => none
  | _ => none

def parameter? (m : MediaType) (name : String) : Option String :=
  (m.parameters.find? fun (n, _) => n = name).map Prod.snd

end MediaType
end CallFabric
