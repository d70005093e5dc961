import CallFabric.Toml.Scan

namespace CallFabric.Toml

-- What stands under a key. A table may be there only as the parent of others (`implied`) or
-- because keys with points made it (`dotted`).
inductive Node
  | value (v : Json)
  | table (implied dotted : Bool) (entries : List (String × Node))
  | tables (list : List Node)
  deriving Inhabited

namespace Node

def empty : Node := .table false false []

mutual

def toJson : Node → Json
  | .value v => v
  | .table _ _ entries => .obj (entriesToJson entries)
  | .tables list => .arr (listToJson list)

def entriesToJson : List (String × Node) → List (String × Json)
  | [] => []
  | (k, n) :: rest => (k, n.toJson) :: entriesToJson rest

def listToJson : List Node → List Json
  | [] => []
  | n :: rest => n.toJson :: listToJson rest

end

def replaceLast (n : Node) : List Node → List Node
  | [] => [n]
  | [_] => [n]
  | m :: rest => m :: replaceLast n rest

-- Changes the table that a path leads to, and makes those that are missing. Keys with points do
-- not lead into a table that was defined otherwise; of many tables the last is meant.
def update (change : Node → Option Node) (dotted : Bool) : List String → Node → Option Node
  | [], n => change n
  | key :: path, .table implied own entries =>
    match Table.get? key entries with
    | none =>
      (update change dotted path (.table true dotted [])).map fun n =>
        .table implied own (Table.insert key n entries)
    | some (.value _) => none
    | some (.tables list) =>
      match list.getLast? with
      | none => none
      | some last =>
        (update change dotted path last).map fun n =>
          .table implied own (Table.insert key (.tables (replaceLast n list)) entries)
    | some (.table i d es) =>
      if dotted && !i then none
      else (update change dotted path (.table i d es)).map fun n =>
        .table implied own (Table.insert key n entries)
  | _ :: _, _ => none

def define (key : String) (v : Json) (pointed : Bool) : Node → Option Node
  | .table implied dotted entries =>
    if dotted ≠ pointed || Table.contains entries key then none
    else some (.table implied dotted (Table.insert key (.value v) entries))
  | _ => none

def defineAt (path : List String) (v : Json) (n : Node) : Option Node :=
  match path.getLast? with
  | none => none
  | some key =>
    let parents := path.dropLast
    update (define key v !parents.isEmpty) true parents n

def place (key : String) (repeated : Bool) (table : Node) : Node → Option Node
  | .table implied dotted entries =>
    if repeated then
      match Table.get? key entries with
      | none => some (.table implied dotted (Table.insert key (.tables [table]) entries))
      | some (.tables list) =>
        some (.table implied dotted (Table.insert key (.tables (list ++ [table])) entries))
      | some _ => none
    else some (.table implied dotted (Table.insert key table entries))
  | _ => none

def nodeAt? (path : List String) : Node → Option Node
  | .table _ _ entries =>
    match path with
    | [] => none
    | [key] => Table.get? key entries
    | key :: path =>
      match Table.get? key entries with
      | some (.table i d es) => nodeAt? path (.table i d es)
      | some (.tables list) => (list.getLast?).bind (nodeAt? path)
      | _ => none
  | _ => none
termination_by path.length

end Node

def depthLimit : Nat := 79

def fromEntries (entries : List (List String × Json)) : Option Json :=
  (entries.foldlM (fun (n : Node) (path, v) => n.defineAt path v) Node.empty).map Node.toJson

def arrayTail (value : List Char → Option (Json × List Char)) :
    Nat → List Char → Option (List Json × List Char)
  | 0, _ => none
  | fuel + 1, cs =>
    match skipLines cs.length cs with
    | ']' :: rest => some ([], rest)
    | cs =>
      (value cs).bind fun (v, rest) =>
        match skipLines rest.length rest with
        | ',' :: rest => (arrayTail value fuel rest).map fun (vs, rest) => (v :: vs, rest)
        | ']' :: rest => some ([v], rest)
        | _ => none

def entry (value : List Char → Option (Json × List Char)) (cs : List Char) :
    Option ((List String × Json) × List Char) := do
  let (path, rest) ← keyPath (cs.length + 1) cs
  let rest ← symbol? '=' rest
  let (v, rest) ← value (skipSpace rest)
  if path.length ≤ depthLimit then return ((path, v), rest) else none

def inlineTail (value : List Char → Option (Json × List Char)) :
    Nat → List Char → Option (List (List String × Json) × List Char)
  | 0, _ => none
  | fuel + 1, cs =>
    (entry value cs).bind fun (e, rest) =>
      match skipSpace rest with
      | ',' :: rest => (inlineTail value fuel rest).map fun (es, rest) => (e :: es, rest)
      | '\x7d' :: rest => some ([e], rest)
      | _ => none

def value (depth : Nat) (cs : List Char) : Option (Json × List Char) :=
  match cs with
  | '"' :: _ | '\'' :: _ => (string cs).map fun (s, rest) => (.str s, rest)
  | '[' :: rest =>
    match depth with
    | 0 => none
    | depth + 1 =>
      (arrayTail (value depth) (rest.length + 1) rest).map fun (vs, rest) => (.arr vs, rest)
  | '\x7b' :: rest =>
    match depth with
    | 0 => none
    | depth + 1 =>
      match skipSpace rest with
      | '\x7d' :: rest => some (.obj [], rest)
      | rest =>
        (inlineTail (value depth) (rest.length + 1) rest).bind fun (es, rest) =>
          (fromEntries es).map fun v => (v, rest)
  | 't' :: _ => word? "true" (.bool true) cs
  | 'f' :: _ => word? "false" (.bool false) cs
  | _ => number cs

structure Draft where
  root : Node
  current : Node
  path : List String
  repeated : Bool

namespace Draft

def empty : Draft := ⟨.empty, .empty, [], false⟩

def finish (d : Draft) : Option Node :=
  match d.path.getLast? with
  | none => some d.current
  | some key => d.root.update (Node.place key d.repeated d.current) false d.path.dropLast

def withdraw (key : String) : Node → Option Node
  | .table implied dotted entries => some (.table implied dotted (Table.erase key entries))
  | _ => none

-- Starts the table of a header. A table that is only implied so far is gone on with.
def openTable (d : Draft) (path : List String) : Option Draft := do
  let root ← d.finish
  let key ← path.getLast?
  let root ← root.update some false path.dropLast
  match root.nodeAt? path with
  | none => return ⟨root, .empty, path, false⟩
  | some (.table true false entries) =>
    let root ← root.update (withdraw key) false path.dropLast
    return ⟨root, .table false false entries, path, false⟩
  | some _ => none

def openRepeated (d : Draft) (path : List String) : Option Draft := do
  let root ← d.finish
  let root ← root.update some false path.dropLast
  match root.nodeAt? path with
  | none | some (.tables _) => return ⟨root, .empty, path, true⟩
  | some _ => none

def define (d : Draft) (path : List String) (v : Json) : Option Draft :=
  (d.current.defineAt path v).map fun current => { d with current }

end Draft

def header (cs : List Char) : Option (List String × List Char) :=
  (keyPath (cs.length + 1) cs).filter fun (path, _) => path.length ≤ depthLimit

def line (d : Draft) (cs : List Char) : Option (Draft × List Char) :=
  match skipSpace cs with
  | '[' :: '[' :: rest => do
    let (path, rest) ← header rest
    let rest ← symbol? ']' rest
    let rest ← symbol? ']' rest
    let rest ← lineEnd? rest
    let d ← d.openRepeated path
    return (d, rest)
  | '[' :: rest => do
    let (path, rest) ← header rest
    let rest ← symbol? ']' rest
    let rest ← lineEnd? rest
    let d ← d.openTable path
    return (d, rest)
  | cs =>
    match lineEnd? cs with
    | some rest => some (d, rest)
    | none => do
      let ((path, v), rest) ← entry (value depthLimit) cs
      let rest ← lineEnd? rest
      let d ← d.define path v
      return (d, rest)

def lines : Nat → Draft → List Char → Option Draft
  | _, d, [] => some d
  | 0, _, _ => none
  | fuel + 1, d, cs => (line d cs).bind fun (d, rest) => lines fuel d rest

def ofText? (s : String) : Option Json := do
  let cs := match s.toList with
    | '\uFEFF' :: rest => rest
    | cs => cs
  let d ← lines (cs.length + 1) .empty cs
  let root ← d.finish
  return root.toJson

end CallFabric.Toml
