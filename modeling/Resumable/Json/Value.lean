import Resumable.Number.Shortest

namespace Resumable

inductive Json where
  | null
  | bool (b : Bool)
  | int (n : Int)
  | double (x : Binary64)
  | str (s : String)
  | arr (items : List Json)
  | obj (members : List (String × Json))

namespace Json

/-- Put a member into a list sorted by key, in place of one with the same key. -/
def insertMember (key : String) (value : Json) :
    List (String × Json) → List (String × Json)
  | [] => [(key, value)]
  | (k, v) :: rest =>
      if key < k then (key, value) :: (k, v) :: rest
      else if key = k then (key, value) :: rest
      else (k, v) :: insertMember key value rest

/-- The object with these members, later ones replacing earlier ones of the same key. -/
def object (members : List (String × Json)) : Json :=
  .obj (members.foldl (fun sorted m => insertMember m.1 m.2 sorted) [])

mutual

def normalize : Json → Json
  | .arr items => .arr (normalizeItems items)
  | .obj members => object (normalizeMembers members)
  | v => v

def normalizeItems : List Json → List Json
  | [] => []
  | v :: rest => normalize v :: normalizeItems rest

def normalizeMembers : List (String × Json) → List (String × Json)
  | [] => []
  | (k, v) :: rest => (k, normalize v) :: normalizeMembers rest

end

def get? (v : Json) (key : String) : Option Json :=
  match v with
  | .obj members => (members.find? (·.1 == key)).map (·.2)
  | _ => none

def asString? : Json → Option String
  | .str s => some s
  | _ => none

end Json

end Resumable
