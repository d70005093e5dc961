import CallFabric.Json.Written
import CallFabric.Shape.OfJson

namespace CallFabric.Shape

open Json (Written)

def textKeys? (members : List (Bytes × Written)) : Option (List (String × Written)) :=
  members.mapM fun (k, w) => (Written.text? k).map fun k => (k, w)

def distinctFields {α : Type} (fields : List (String × Shape)) (members : List (String × α)) :
    Bool :=
  fields.all fun (name, _) => (members.filter fun (k, _) => k = name).length ≤ 1

mutual

-- At most `depth` of the containers that become data may be nested; the parts that are passed over
-- are not looked into.
def ofWritten? (s : Shape) (depth : Nat) (w : Written) : Option Datum :=
  match s with
  | .unit =>
    match w with
    | .null => some .unit
    | _ => none
  | .bool =>
    match w with
    | .bool b => some (.bool b)
    | _ => none
  | .int least greatest =>
    match w with
    | .number n =>
      match n.value? with
      | some (.int i) => intIn? least greatest i
      | _ => none
    | _ => none
  | .float =>
    match w with
    | .number n =>
      match n.value? with
      | some (.int i) => some (.float (.ofInt i))
      | some (.float x) => some (.float x)
      | none => none
    | _ => none
  | .text =>
    match w with
    | .string bs => (Written.text? bs).map .text
    | _ => none
  | .any => (w.toJson? depth).map .json
  | .list item =>
    match depth, w with
    | depth + 1, .array items => (items.mapM (ofWritten? item depth)).map .list
    | _, _ => none
  | .map value =>
    match depth, w with
    | depth + 1, .object members =>
      (members.mapM fun m : Bytes × Written =>
        match Written.text? m.1, ofWritten? value depth m.2 with
        | some k, some d => some (k, d)
        | _, _ => none).map fun entries => .map (Table.ofList entries)
    | _, _ => none
  | .option value =>
    match w with
    | .null => some .absent
    | w => (ofWritten? value depth w).map .present
  | .tuple parts =>
    match depth, w with
    | depth + 1, .array items => (partsOfWritten? parts depth items).map .tuple
    | _, _ => none
  | .record fields =>
    match depth, w with
    | depth + 1, .object members =>
      match textKeys? members with
      | some members =>
        if distinctFields fields members then
          (fieldsOfWritten? fields depth members).map .record
        else none
      | none => none
    | depth + 1, .array items => (orderedOfWritten? fields depth items).map .record
    | _, _ => none
  | .choice cases =>
    match w with
    | .string bs => (Written.text? bs).bind (bareCase? cases)
    | .object [(k, payload)] =>
      match depth, Written.text? k with
      | depth + 1, some name => caseOfWritten? cases name depth payload
      | _, _ => none
    | _ => none

def caseOfWritten? : List (String × Shape) → String → Nat → Written → Option Datum
  | [], _, _, _ => none
  | (name, s) :: cases, given, depth, payload =>
    if name = given then
      (ofWritten? s depth payload).map fun d => if s.isUnit then .tag name else .tagged name d
    else caseOfWritten? cases given depth payload

def partsOfWritten? : List Shape → Nat → List Written → Option (List Datum)
  | [], _, [] => some []
  | s :: parts, depth, w :: items =>
    match ofWritten? s depth w with
    | none => none
    | some d => (partsOfWritten? parts depth items).map (d :: ·)
  | _, _, _ => none

def fieldsOfWritten? : List (String × Shape) → Nat → List (String × Written) →
    Option (List (String × Datum))
  | [], _, _ => some []
  | (name, s) :: fields, depth, members =>
    match (match Table.get? name members with
      | some w => ofWritten? s depth w
      | none => s.missing?) with
    | none => none
    | some d => (fieldsOfWritten? fields depth members).map ((name, d) :: ·)

def orderedOfWritten? : List (String × Shape) → Nat → List Written →
    Option (List (String × Datum))
  | [], _, [] => some []
  | (name, s) :: fields, depth, w :: items =>
    match ofWritten? s depth w with
    | none => none
    | some d => (orderedOfWritten? fields depth items).map ((name, d) :: ·)
  | _, _, _ => none

end

def ofText? (s : Shape) (bs : Bytes) : Option Datum :=
  (Written.ofText? bs).bind (s.ofWritten? Written.depthLimit)

end CallFabric.Shape
