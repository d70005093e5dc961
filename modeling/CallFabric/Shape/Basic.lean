import CallFabric.Json.Basic
import CallFabric.MessagePack.Basic

namespace CallFabric

inductive Shape
  | unit
  | bool
  | int (least greatest : Int)
  | float
  | text
  | any
  | list (item : Shape)
  | map (value : Shape)
  | option (value : Shape)
  | tuple (parts : List Shape)
  | record (fields : List (String × Shape))
  | choice (cases : List (String × Shape))
  deriving Repr, Inhabited

namespace Shape

def i32 : Shape := .int (-0x80000000) 0x7fffffff
def i64 : Shape := .int (-0x8000000000000000) 0x7fffffffffffffff
def u8 : Shape := .int 0 0xff
def u16 : Shape := .int 0 0xffff
def u32 : Shape := .int 0 0xffffffff
def u64 : Shape := .int 0 0xffffffffffffffff

end Shape

inductive Datum
  | unit
  | bool (b : Bool)
  | int (i : Int)
  | float (x : Binary64)
  | text (s : String)
  | json (value : Json)
  | list (items : List Datum)
  | map (entries : List (String × Datum))
  | absent
  | present (value : Datum)
  | tuple (parts : List Datum)
  | record (fields : List (String × Datum))
  | tag (name : String)
  | tagged (name : String) (payload : Datum)
  -- A map whose keys are not text: JSON has no form for it, unless it is empty.
  | keyed (entries : List (Datum × Datum))
  deriving Repr, Inhabited

namespace Datum

mutual

-- A case of a choice whose shape is `unit` is written as its name alone, any other as a single
-- member from its name to what it carries.
def toJson? : Datum → Option Json
  | .unit | .absent => some .null
  | .bool b => some (.bool b)
  | .int i => some (.int i)
  | .float x => some (if x.isFinite then .float x else .null)
  | .text s | .tag s => some (.str s)
  | .json v => some v
  | .present d => toJson? d
  | .list items | .tuple items => (toItems? items).map .arr
  | .map members | .record members => (toMembers? members).map .obj
  | .tagged name d => (toJson? d).map fun v => .obj [(name, v)]
  | .keyed [] => some (.obj [])
  | .keyed (_ :: _) => none

def toItems? : List Datum → Option (List Json)
  | [] => some []
  | d :: ds =>
    match toJson? d with
    | none => none
    | some v => (toItems? ds).map (v :: ·)

def toMembers? : List (String × Datum) → Option (List (String × Json))
  | [] => some []
  | (k, d) :: ds =>
    match toJson? d with
    | none => none
    | some v => (toMembers? ds).map ((k, v) :: ·)

end

open MessagePack (Item)

def key (s : String) : Item := .text (Bytes.ofText s)

mutual

def itemOfJson : Json → Item
  | .null => .nil
  | .bool b => .bool b
  | .int i => .ofInt i
  | .float x => .float x
  | .str s => key s
  | .arr items => .array (itemsOfJson items)
  | .obj members => .map (entriesOfJson members)

def itemsOfJson : List Json → List Item
  | [] => []
  | v :: vs => itemOfJson v :: itemsOfJson vs

def entriesOfJson : List (String × Json) → List (Item × Item)
  | [] => []
  | (k, v) :: vs => (key k, itemOfJson v) :: entriesOfJson vs

end

mutual

def toItem : Datum → Item
  | .unit | .absent => .nil
  | .bool b => .bool b
  | .int i => .ofInt i
  | .float x => .float x
  | .text s | .tag s => key s
  | .json v => itemOfJson v
  | .present d => d.toItem
  | .list items | .tuple items => .array (toItems items)
  | .map members | .record members => .map (toEntries members)
  | .tagged name d => .map [(key name, d.toItem)]
  | .keyed entries => .map (toKeyed entries)

def toItems : List Datum → List Item
  | [] => []
  | d :: ds => d.toItem :: toItems ds

def toEntries : List (String × Datum) → List (Item × Item)
  | [] => []
  | (k, d) :: ds => (key k, d.toItem) :: toEntries ds

def toKeyed : List (Datum × Datum) → List (Item × Item)
  | [] => []
  | (k, d) :: ds => (k.toItem, d.toItem) :: toKeyed ds

end

def field? (name : String) : Datum → Option Datum
  | .record fields => Table.get? name fields
  | _ => none

def asInt (d : Datum) : Int :=
  match d with
  | .int i => i
  | _ => 0

def asText (d : Datum) : String :=
  match d with
  | .text s => s
  | _ => ""

def asItems (d : Datum) : List Datum :=
  match d with
  | .list items => items
  | _ => []

def intField (name : String) (d : Datum) : Int :=
  ((d.field? name).map asInt).getD 0

def textField (name : String) (d : Datum) : String :=
  ((d.field? name).map asText).getD ""

end Datum

def Binary64.ofInt (i : Int) : Binary64 :=
  let f := (UInt64.ofNat i.natAbs).toFloat
  .ofFloat (if i < 0 then -f else f)

end CallFabric
