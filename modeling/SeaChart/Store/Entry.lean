import SeaChart.Dictionary
import SeaChart.Text.Utf8

namespace SeaChart

open Text (Bytes)

inductive Entry where
  | file (contents : Bytes)
  | directory (children : List (String × Entry))
deriving Inhabited

abbrev Location := List String

namespace Entry

def find? : Entry → Location → Option Entry
  | e, [] => some e
  | .file _, _ :: _ => none
  | .directory children, name :: names => (children.lookup name).bind fun e => e.find? names

def insert (new : Entry) : Location → Entry → Entry
  | [], _ => new
  | _ :: _, .file contents => .file contents
  | name :: names, .directory children =>
    let child := (children.lookup name).getD (.directory [])
    .directory (Dictionary.insertEntry name (new.insert names child) children)

def erase : Location → Entry → Entry
  | _, .file contents => .file contents
  | [], e => e
  | [name], .directory children => .directory (children.filter fun (n, _) => n ≠ name)
  | name :: names, .directory children =>
    match children.lookup name with
    | none => .directory children
    | some child => .directory (Dictionary.insertEntry name (child.erase names) children)

mutual

def files (location : Location) : Entry → List (Location × Bytes)
  | .file contents => [(location, contents)]
  | .directory children => filesOfAll location children

def filesOfAll (location : Location) : List (String × Entry) → List (Location × Bytes)
  | [] => []
  | (name, e) :: rest => files (location ++ [name]) e ++ filesOfAll location rest

end

mutual

def directories (location : Location) : Entry → List Location
  | .file _ => []
  | .directory children => location :: directoriesOfAll location children

def directoriesOfAll (location : Location) : List (String × Entry) → List Location
  | [] => []
  | (name, e) :: rest => directories (location ++ [name]) e ++ directoriesOfAll location rest

end

end Entry

end SeaChart
