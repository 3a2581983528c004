import SeaChart.Number.Binary64

/-!
The values of a TOML document, and the tables in which they are gathered. A table may be extended
only in the way in which it was begun.
-/

namespace SeaChart.Toml

inductive Value where
  | string (text : String)
  | integer (value : Int)
  | float (value : Binary64)
  | boolean (value : Bool)
  | moment
  | array (elements : List Value)
  | table (entries : List (String × Value))
deriving Repr, Inhabited

inductive Origin where
  | header
  | implied
  | dotted
deriving DecidableEq, Repr

inductive Item where
  | value (value : Value)
  | table (origin : Origin) (entries : List (String × Item))
  | tables (elements : List (List (String × Item)))
deriving Inhabited

structure Table where
  origin : Origin
  entries : List (String × Item)

namespace Table

def setEntry (key : String) (item : Item) : List (String × Item) → List (String × Item)
  | [] => [(key, item)]
  | (k, old) :: rest => if k = key then (k, item) :: rest else (k, old) :: setEntry key item rest

def set (t : Table) (key : String) (item : Item) : Table :=
  { t with entries := setEntry key item t.entries }

/--
Changes the table at the end of a path, making the tables on the way. A dotted key does not enter
tables that have a header; of an array of tables the last one is entered.
-/
def update (byDots : Bool) (change : Table → Option Table) : List String → Table → Option Table
  | [], t => change t
  | key :: path, t =>
    match t.entries.lookup key with
    | none =>
      let fresh : Table := ⟨if byDots then .dotted else .implied, []⟩
      (update byDots change path fresh).map fun u => t.set key (.table u.origin u.entries)
    | some (.value _) => none
    | some (.table origin entries) =>
      if byDots ∧ origin = .header then none
      else
        (update byDots change path ⟨origin, entries⟩).map fun u =>
          t.set key (.table u.origin u.entries)
    | some (.tables elements) =>
      match elements.reverse with
      | [] => none
      | last :: before =>
        (update byDots change path ⟨.header, last⟩).map fun u =>
          t.set key (.tables (u.entries :: before).reverse)

def add (t : Table) (key : String) (item : Item) : Option Table :=
  if (t.entries.lookup key).isSome then none else some (t.set key item)

def addValue (t : Table) (path : List String) (key : String) (value : Value) : Option Table :=
  let place (u : Table) : Option Table :=
    if path ≠ [] ∧ u.origin ≠ .dotted then none else u.add key (.value value)
  update true place path t

def begin (t : Table) (path : List String) (key : String) : Option Table :=
  let place (u : Table) : Option Table :=
    match u.entries.lookup key with
    | none => some (u.set key (.table .header []))
    | some (.table .implied entries) => some (u.set key (.table .header entries))
    | some _ => none
  update false place path t

def beginElement (t : Table) (path : List String) (key : String) : Option Table :=
  let place (u : Table) : Option Table :=
    match u.entries.lookup key with
    | none => some (u.set key (.tables [[]]))
    | some (.tables elements) => some (u.set key (.tables (elements ++ [[]])))
    | some _ => none
  update false place path t

end Table

mutual

def Item.toValue : Item → Value
  | .value v => v
  | .table _ entries => .table (entriesToValues entries)
  | .tables elements => .array (elementsToValues elements)

def entriesToValues : List (String × Item) → List (String × Value)
  | [] => []
  | (key, item) :: rest => (key, item.toValue) :: entriesToValues rest

def elementsToValues : List (List (String × Item)) → List Value
  | [] => []
  | entries :: rest => .table (entriesToValues entries) :: elementsToValues rest

end

end SeaChart.Toml
