import CallFabric.MessagePack.Json
import CallFabric.Shape.OfText

namespace CallFabric.Shape

open MessagePack (Item)

def octets? : Item → Option Bytes
  | .text bs | .binary bs => some bs
  | _ => none

def textOf? (i : Item) : Option String :=
  (octets? i).bind Bytes.text?

-- The name that a key stands for: `some none` for a key that names nothing known.
def nameOf? (names : List String) : Item → Option (Option String)
  | .text bs | .binary bs => some (Bytes.text? bs)
  | .unsigned n => some names[n]?
  | _ => none

def namedEntries? (names : List String) : List (Item × Item) → Option (List (String × Item))
  | [] => some []
  | (k, v) :: rest =>
    match nameOf? names k, namedEntries? names rest with
    | some (some name), some named => some ((name, v) :: named)
    | some none, some named => some named
    | _, _ => none

def elements? : Item → Option (List Item)
  | .array items => some items
  | .binary bs => some (bs.map fun b => .unsigned b.toNat)
  | _ => none

mutual

def ofItem? (s : Shape) (i : Item) : Option Datum :=
  match s with
  | .unit =>
    match i with
    | .nil => some .unit
    | _ => none
  | .bool =>
    match i with
    | .bool b => some (.bool b)
    | _ => none
  | .int least greatest =>
    match i with
    | .unsigned n => intIn? least greatest n
    | .signed i => intIn? least greatest i
    | _ => none
  | .float =>
    match i with
    | .unsigned n => some (.float (.ofInt n))
    | .signed i => some (.float (.ofInt i))
    | .float x => some (.float x)
    | _ => none
  | .text => (textOf? i).map .text
  | .any => i.toJson?.map .json
  | .list item => ((elements? i).bind fun items => items.mapM (ofItem? item)).map .list
  | .map value =>
    match i with
    | .map entries =>
      (entries.mapM fun e : Item × Item =>
        match textOf? e.1, ofItem? value e.2 with
        | some k, some d => some (k, d)
        | _, _ => none).map fun entries => .map (Table.ofList entries)
    | _ => none
  | .option value =>
    match i with
    | .nil => some .absent
    | i => (ofItem? value i).map .present
  | .tuple parts =>
    match i with
    | .array items => (partsOfItems? parts items).map .tuple
    | _ => none
  | .record fields =>
    match i with
    | .map entries =>
      match namedEntries? (fields.map Prod.fst) entries with
      | some entries =>
        if distinctFields fields entries then (fieldsOfItems? fields entries).map .record
        else none
      | none => none
    | .array items => (orderedOfItems? fields items).map .record
    | _ => none
  | .choice cases =>
    match i with
    | .map [(k, payload)] =>
      match nameOf? (cases.map Prod.fst) k with
      | some (some name) => caseOfItem? cases name payload
      | _ => none
    | .map _ => none
    | i =>
      match nameOf? (cases.map Prod.fst) i with
      | some (some name) => bareCase? cases name
      | _ => none

def caseOfItem? : List (String × Shape) → String → Item → Option Datum
  | [], _, _ => none
  | (name, s) :: cases, given, payload =>
    if name = given then
      (ofItem? s payload).map fun d => if s.isUnit then .tag name else .tagged name d
    else caseOfItem? cases given payload

def partsOfItems? : List Shape → List Item → Option (List Datum)
  | [], [] => some []
  | s :: parts, i :: items =>
    match ofItem? s i with
    | none => none
    | some d => (partsOfItems? parts items).map (d :: ·)
  | _, _ => none

def fieldsOfItems? : List (String × Shape) → List (String × Item) →
    Option (List (String × Datum))
  | [], _ => some []
  | (name, s) :: fields, entries =>
    match (match Table.get? name entries with
      | some i => ofItem? s i
      | none => s.missing?) with
    | none => none
    | some d => (fieldsOfItems? fields entries).map ((name, d) :: ·)

def orderedOfItems? : List (String × Shape) → List Item → Option (List (String × Datum))
  | [], [] => some []
  | (name, s) :: fields, i :: items =>
    match ofItem? s i with
    | none => none
    | some d => (orderedOfItems? fields items).map ((name, d) :: ·)
  | _, _ => none

end

def ofOctets? (s : Shape) (bs : Bytes) : Option Datum :=
  (MessagePack.ofOctets? bs).bind s.ofItem?

end CallFabric.Shape
