import SeaChart.Chart.Columns
import SeaChart.Event
import SeaChart.Geometry
import SeaChart.Text.DecimalDigit
import SeaChart.Text.Numeral

namespace SeaChart

structure Shapefile where
  level : Nat
  geometry : Geometry
  feature : String
  fields : Option (List String)
deriving DecidableEq, Repr

namespace Shapefile

def fieldsLe : Option (List String) → Option (List String) → Bool
  | none, _ => true
  | some _, none => false
  | some xs, some ys => !List.lex ys xs

def le (a b : Shapefile) : Bool :=
  if a.level ≠ b.level then a.level < b.level
  else if a.geometry ≠ b.geometry then a.geometry.rank < b.geometry.rank
  else if a.feature ≠ b.feature then a.feature < b.feature
  else fieldsLe a.fields b.fields

def sort (files : List Shapefile) : List Shapefile :=
  files.mergeSort le

def levelName (level : Nat) : String :=
  "CL" ++ Text.natText level

def suffix : String := ".shp"

def baseName (f : Shapefile) : String :=
  levelName f.level ++ "-" ++ f.geometry.name ++ "-" ++ f.feature

structure NameParts where
  digit : Char
  geometry : Geometry
  feature : String
deriving DecidableEq, Repr

def before? (ending : String) (cs : List Char) : Option (List Char) :=
  if ending.toList.isSuffixOf cs then some (cs.take (cs.length - ending.length)) else none

def readKind (cs : List Char) : Option (Geometry × List Char) :=
  match cs.span (· != '-') with
  | (word, '-' :: rest) => (Geometry.ofName? (String.ofList word)).map fun g => (g, rest)
  | _ => none

def readName (name : String) : Option NameParts :=
  match name.toList with
  | 'C' :: 'L' :: digit :: '-' :: rest => do
    let (geometry, rest) ← readKind rest
    let feature ← before? suffix rest
    -- Digits of all scripts pass here; the level is compared afterwards.
    if Text.isDecimalDigit digit ∧ feature ≠ [] ∧ feature.contains '\n' = false then
      some ⟨digit, geometry, String.ofList feature⟩
    else none
  | _ => none

def tableName (name : String) : String :=
  String.ofList (name.toList.take (name.length - suffix.length)) ++ ".dbf"

def wrongLevel (p : Path) : Event :=
  .warning (p.text ++ " is in the wrong level directory")

def unknownFields (table : Path) (cause : FileError) (feature : String) : Event :=
  .warning ("failed to read " ++ table.text ++ ": " ++ cause.message ++ "; all rules of " ++
    feature ++ " are kept")

def ofEntry (s : Store) (directory : Path) (level : Nat) (name : String) :
    Option Shapefile × Log :=
  match readName name with
  | none => (none, [])
  | some parts =>
    if String.singleton parts.digit ≠ Text.natText level then
      (none, [wrongLevel (directory.below name)])
    else
      let table := directory.below (tableName name)
      match Columns.load s table with
      | .ok fields => (some ⟨level, parts.geometry, parts.feature, some fields⟩, [])
      | .error cause =>
        (some ⟨level, parts.geometry, parts.feature, none⟩,
          [unknownFields table cause parts.feature])

def scan (s : Store) (data : Path) (level : Nat) (list : Store.Listing := Store.names) :
    Except (Path × FileError) (List Shapefile × Log) :=
  let directory := data.below (levelName level)
  if s.isDirectory directory then
    match list s directory with
    | .error cause => .error (directory, cause)
    | .ok names =>
      let entries := names.map (ofEntry s directory level)
      .ok (sort (entries.filterMap Prod.fst), entries.flatMap Prod.snd)
  else .ok ([], [])

end Shapefile

end SeaChart
