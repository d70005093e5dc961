import CallFabric.Json.Basic

namespace CallFabric.Json

mutual

def overlay (base : Json) : Json → Json
  | .obj patch =>
    match base with
    | .obj members => .obj (overlayMembers members patch)
    | _ => .obj patch
  | patch => patch

def overlayMembers (members : List (String × Json)) : List (String × Json) → List (String × Json)
  | [] => members
  | (key, value) :: rest =>
    match Table.get? key members with
    | some old => overlayMembers (Table.insert key (overlay old value) members) rest
    | none => overlayMembers (Table.insert key value members) rest

end

end CallFabric.Json
