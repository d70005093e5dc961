import CallFabric.Json.Text

namespace CallFabric.Json

def lineAt (depth : Nat) : String := "\n" ++ String.ofList (List.replicate (2 * depth) ' ')

mutual

def prettyAt (depth : Nat) : Json → String
  | .arr (x :: xs) =>
    "[" ++ lineAt (depth + 1) ++ prettyAt (depth + 1) x ++ prettyItems (depth + 1) xs
      ++ lineAt depth ++ "]"
  | .obj ((k, x) :: xs) =>
    "\x7b" ++ lineAt (depth + 1) ++ (str k).render ++ ": " ++ prettyAt (depth + 1) x
      ++ prettyMembers (depth + 1) xs ++ lineAt depth ++ "\x7d"
  | v => v.render

def prettyItems (depth : Nat) : List Json → String
  | [] => ""
  | x :: xs => "," ++ lineAt depth ++ prettyAt depth x ++ prettyItems depth xs

def prettyMembers (depth : Nat) : List (String × Json) → String
  | [] => ""
  | (k, x) :: xs =>
    "," ++ lineAt depth ++ (str k).render ++ ": " ++ prettyAt depth x ++ prettyMembers depth xs

end

def pretty (j : Json) : String := prettyAt 0 j

end CallFabric.Json
