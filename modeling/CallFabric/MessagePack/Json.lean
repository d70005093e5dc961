import CallFabric.MessagePack.Basic
import CallFabric.Json.Basic

namespace CallFabric.MessagePack.Item

-- Only the first key of an object has to be text; a later one may be an octet string that holds
-- text.
def key? (first : Bool) : Item → Option String
  | .text bs => Bytes.text? bs
  | .binary bs => if first then none else Bytes.text? bs
  | _ => none

mutual

def toJson? : Item → Option Json
  | .nil => some .null
  | .bool b => some (.bool b)
  | .unsigned n => some (.int n)
  | .signed i => some (.int i)
  | .float x => some (if x.isFinite then .float x else .null)
  | .text bs => (Bytes.text? bs).map .str
  | .binary _ => none
  | .array items => (toItems? items).map .arr
  | .map entries => (toMembers? true [] entries).map .obj
  | .extension => none

def toItems? : List Item → Option (List Json)
  | [] => some []
  | x :: xs =>
    match toJson? x with
    | none => none
    | some v => (toItems? xs).map (v :: ·)

def toMembers? (first : Bool) (seen : List (String × Json)) :
    List (Item × Item) → Option (List (String × Json))
  | [] => some seen
  | (key, x) :: rest =>
    match key? first key, toJson? x with
    | some key, some v => toMembers? false (Table.insert key v seen) rest
    | _, _ => none

end

end CallFabric.MessagePack.Item
