import CallFabric.Shape.Basic

namespace CallFabric.Shape

def intIn? (least greatest i : Int) : Option Datum :=
  if least ≤ i ∧ i ≤ greatest then some (.int i) else none

def isUnit : Shape → Bool
  | .unit => true
  | _ => false

def missing? : Shape → Option Datum
  | .option _ => some .absent
  | _ => none

-- The payload of a choice's case keeps the form of its shape: a record's is an object, a tuple's
-- an array.
def payloadForm (s : Shape) (v : Json) : Bool :=
  match s, v with
  | .record _, .obj _ => true
  | .record _, _ => false
  | .tuple _, .arr _ => true
  | .tuple _, _ => false
  | _, _ => true

mutual

def ofJson? (s : Shape) (v : Json) : Option Datum :=
  match s with
  | .unit => if v = .null then some .unit else none
  | .bool => v.asBool?.map .bool
  | .int least greatest => v.asInt?.bind (intIn? least greatest)
  | .float =>
    match v with
    | .int i => some (.float (.ofInt i))
    | .float x => some (.float x)
    | _ => none
  | .text => v.asText?.map .text
  | .any => some (.json v)
  | .list item =>
    match v with
    | .arr items => (items.mapM (ofJson? item)).map .list
    | _ => none
  | .map value =>
    match v with
    | .obj members =>
      (members.mapM fun m : String × Json => (ofJson? value m.2).map fun d => (m.1, d)).map .map
    | _ => none
  | .option value =>
    match v with
    | .null => some .absent
    | v => (ofJson? value v).map .present
  | .tuple parts =>
    match v with
    | .arr items => (partsOfJson? parts items).map .tuple
    | _ => none
  | .record fields =>
    match v with
    | .obj members => (fieldsOfJson? fields members).map .record
    | .arr items => (orderedOfJson? fields items).map .record
    | _ => none
  | .choice cases =>
    match v with
    | .str name => bareCase? cases name
    | .obj [(name, payload)] => caseOfJson? cases name payload
    | _ => none

def bareCase? : List (String × Shape) → String → Option Datum
  | [], _ => none
  | (name, s) :: cases, given =>
    if name = given then (if s.isUnit then some (.tag name) else none) else bareCase? cases given

def caseOfJson? : List (String × Shape) → String → Json → Option Datum
  | [], _, _ => none
  | (name, s) :: cases, given, payload =>
    if name = given then
      if s.isUnit then (ofJson? s payload).map fun _ => .tag name
      else if payloadForm s payload then (ofJson? s payload).map (.tagged name)
      else none
    else caseOfJson? cases given payload

def partsOfJson? : List Shape → List Json → Option (List Datum)
  | [], [] => some []
  | s :: parts, v :: items =>
    match ofJson? s v with
    | none => none
    | some d => (partsOfJson? parts items).map (d :: ·)
  | _, _ => none

def fieldsOfJson? : List (String × Shape) → List (String × Json) → Option (List (String × Datum))
  | [], _ => some []
  | (name, s) :: fields, members =>
    match (match Table.get? name members with
      | some v => ofJson? s v
      | none => s.missing?) with
    | none => none
    | some d => (fieldsOfJson? fields members).map ((name, d) :: ·)

def orderedOfJson? : List (String × Shape) → List Json → Option (List (String × Datum))
  | [], [] => some []
  | (name, s) :: fields, v :: items =>
    match ofJson? s v with
    | none => none
    | some d => (orderedOfJson? fields items).map ((name, d) :: ·)
  | _, _ => none

end

end CallFabric.Shape
