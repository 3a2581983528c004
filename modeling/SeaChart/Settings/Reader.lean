import SeaChart.Settings.Basic
import SeaChart.Toml.Reader

namespace SeaChart

open Toml (Value)

structure WrittenSettings where
  debug : Bool := false
  pointTable : Option String := none
  tableName : Option String := none
  areaTable : Option String := none
  displayCategory : Option String := none
  topmarks : Option String := none
  excluded : Option (List String) := none
  data : Option Path := none
  map : Option Path := none
  ruleSet : Option Path := none
  library : Option Path := none
  depths : MarinerDepths := {}
deriving DecidableEq

namespace WrittenSettings

def string? : Value → Option String
  | .string s => some s
  | _ => none

def boolean? : Value → Option Bool
  | .boolean b => some b
  | _ => none

def number? : Value → Option Binary64
  | .integer n => some (.ofInt n)
  | .float x => some x
  | _ => none

def strings? : Value → Option (List String)
  | .array vs => vs.mapM string?
  | _ => none

def path? (v : Value) : Option Path :=
  (string? v).map Path.mk

def optionalEntry {α : Type} (read : Value → Option α) (entries : List (String × Value))
    (key : String) : Option (Option α) :=
  match entries.lookup key with
  | none => some none
  | some v => (read v).map some

def group? : Value → Option (List (String × Value))
  | .table entries => some entries
  | .moment => some []
  | _ => none

def pathKeys : List String := ["data", "map", "ruleset", "chartsymbols"]

def depthKeys : List String :=
  ["shallow_contour", "safety_contour", "deep_contour", "safety_depth"]

def pathEntries? : Value → Option (List (String × Value))
  | .array vs => if vs.length < pathKeys.length then none else some (pathKeys.zip vs)
  | v => group? v

def depthEntries? : Value → Option (List (String × Value))
  | .array vs => some (depthKeys.zip vs)
  | v => group? v

def readPaths (w : WrittenSettings) (v : Value) : Option WrittenSettings := do
  let entries ← pathEntries? v
  return { w with
    data := ← optionalEntry path? entries "data"
    map := ← optionalEntry path? entries "map"
    ruleSet := ← optionalEntry path? entries "ruleset"
    library := ← optionalEntry path? entries "chartsymbols" }

def readDepths (w : WrittenSettings) (v : Value) : Option WrittenSettings := do
  let entries ← depthEntries? v
  let depth (key : String) (usual : Binary64) : Option Binary64 :=
    (optionalEntry number? entries key).map (·.getD usual)
  return { w with
    depths := {
      shallowContour := ← depth "shallow_contour" w.depths.shallowContour
      safetyContour := ← depth "safety_contour" w.depths.safetyContour
      deepContour := ← depth "deep_contour" w.depths.deepContour
      safetyDepth := ← depth "safety_depth" w.depths.safetyDepth } }

def readGroup (read : WrittenSettings → Value → Option WrittenSettings)
    (entries : List (String × Value)) (key : String) (w : WrittenSettings) :
    Option WrittenSettings :=
  match entries.lookup key with
  | none => some w
  | some v => read w v

def ofEntries (entries : List (String × Value)) : Option WrittenSettings := do
  let w : WrittenSettings := {
    debug := (← optionalEntry boolean? entries "debug").getD false
    pointTable := ← optionalEntry string? entries "point_table"
    tableName := ← optionalEntry string? entries "tablename"
    areaTable := ← optionalEntry string? entries "area_table"
    displayCategory := ← optionalEntry string? entries "displaycategory"
    topmarks := ← optionalEntry string? entries "topmark_type"
    excluded := ← optionalEntry strings? entries "excluded_lookups" }
  let w ← readGroup readPaths entries "paths" w
  readGroup readDepths entries "mariner" w

def read (text : String) : Option WrittenSettings :=
  (Toml.readDocument text).bind ofEntries

end WrittenSettings

namespace Settings

def baseCategory : String := "Displaybase"

def libraryBelowResources : String := "chartsymbols/chartsymbols_S57.xml"

def categoriesOf (text : Option String) : List String :=
  Text.trimmedPieces ',' (text.getD "Standard") ++ [baseCategory]

def readTopmarks (text : String) : Except SettingsError TopmarkKind :=
  let word := (Text.trim text.toList).map Char.toLower
  if word = "rigid".toList then .ok .rigid
  else if word = "floating".toList then .ok .floating
  else .error (.invalidTopmarks text)

def placesOf (w : WrittenSettings) (data base resources : Path) : Places where
  data := data
  map := (w.map.map base.relativeTo).getD (data.below "../map").normalize
  ruleSet := ((w.ruleSet.map base.relativeTo).getD resources).endingIn "rules"
  library := (w.library.map base.relativeTo).getD (resources.below libraryBelowResources)

def logOf (w : WrittenSettings) (places : Places) (isFile : Path → Bool) : Log :=
  (if w.tableName.isSome then
    [.warning "`tablename` configuration option is deprecated. Use point_table instead"]
  else []) ++
  (if isFile places.library then []
  else [.error ("chartsymbols.xml not found at: " ++ places.library.text)])

/--
The settings that a text in the directory `base` gives, and what is reported on the way. `isFile`
tells which files there are.
-/
def ofText (text : String) (base resources : Path) (isFile : Path → Bool) :
    Except SettingsError Settings × Log :=
  match WrittenSettings.read text with
  | none => (.error .malformed, [])
  | some w =>
    match w.data with
    | none => (.error .missingDataPath, [])
    | some data =>
      let places := placesOf w (base.relativeTo data) base resources.normalize
      let topmarks := (w.topmarks.map readTopmarks).getD (.ok .rigid)
      (topmarks.map fun topmarks => {
        debug := w.debug
        pointTable := (w.tableName.or w.pointTable).getD "Simplified"
        areaTable := w.areaTable.getD "Plain"
        categories := categoriesOf w.displayCategory
        excluded := w.excluded
        mariner := { depths := w.depths, topmarks }
        places },
        logOf w places isFile)

def load (s : Store) (path resources : Path) : Except SettingsError Settings × Log :=
  let contents : Except FileError (String × Path) := do
    let text ← s.readText path
    let directory : Path :=
      match path.parent? with
      | none => ⟨"."⟩
      | some d => if d.text = "" then ⟨"."⟩ else d
    return (text, ← s.absolute directory)
  match contents with
  | .error cause => (.error (.unreadable path cause), [])
  | .ok (text, base) => ofText text base resources s.isFile

end Settings

end SeaChart
