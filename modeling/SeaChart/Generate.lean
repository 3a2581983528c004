import SeaChart.Chart.Level
import SeaChart.CommandLine
import SeaChart.RuleSet
import SeaChart.Settings.Reader

namespace SeaChart

inductive GenerateError where
  | unwritable (path : Path) (cause : FileError)
  | unreadable (path : Path) (cause : FileError)
  | missingLibrary (path : Path)
  | unreadableLibrary (cause : FileError)
  | library (cause : Presentation.ReadError)
  | unsupported (format : Format)
deriving DecidableEq, Repr

def GenerateError.message : GenerateError → String
  | .unwritable path cause => "failed to write " ++ path.text ++ ": " ++ cause.message
  | .unreadable path cause => "failed to read " ++ path.text ++ ": " ++ cause.message
  | .missingLibrary path => "chartsymbols file does not exist: " ++ path.text
  | .unreadableLibrary cause => "failed to read chartsymbols file: " ++ cause.message
  | .library cause => cause.message
  | .unsupported format =>
    "Data format \"" ++ format.name ++ "\" has not yet been ported to the configuration file. " ++
      "Use the old script to generate your mapfiles"

structure Progress where
  store : Store
  log : Log := []

/-- A job that may fail; what was done before the failure stays done. -/
abbrev Job := ExceptT GenerateError (StateM Progress)

namespace Job

def run {α : Type} (job : Job α) (store : Store) : Except GenerateError α × Progress :=
  let (result, progress) := (ExceptT.run job).run { store }
  (result, progress)

def report (log : Log) : Job Unit :=
  modify fun p => { p with log := p.log ++ log }

def store : Job Store := do
  return (← get).store

def save (path : Path) (text : String) (force : Bool) : Job Bool := do
  let (result, store) := (← store).save path text force
  modify fun p => { p with store }
  match result with
  | .error cause => throw (.unwritable path cause)
  | .ok written => return written

def loadLibrary (path : Path) (selection : Selection) : Job Presentation := do
  let store ← store
  if !store.isFile path then throw (.missingLibrary path)
  match store.readText path with
  | .error cause => throw (.unreadableLibrary cause)
  | .ok text =>
    match Presentation.read selection text with
    | .error cause => throw (.library cause)
    | .ok (p, log) =>
      report log
      return p

def savePalettes (p : Presentation) (directory : Path) : Job Unit :=
  (RuleSet.paletteFiles p).forM fun (name, text) => do
    let _ ← save (directory.below name) text true

def saveLayerRules (p : Presentation) (directory : Path) : Job Unit :=
  RuleSet.geometries.forM fun g => do
    report (RuleSet.log p g)
    let _ ← save (directory.below (RuleSet.layerFileName g)) (RuleSet.layerText p g) true

def scan (data : Path) (level : Nat) (list : Store.Listing := Store.names) :
    Job (List Shapefile) := do
  match Shapefile.scan (← store) data level list with
  | .error (directory, cause) => throw (.unreadable directory cause)
  | .ok (files, log) =>
    report log
    return files

def scanLevels (data : Path) (levels : List (Nat × Nat))
    (list : Store.Listing := Store.names) : Job (List (Nat × Nat × List Shapefile)) :=
  match levels with
  | [] => return []
  | (level, maxScale) :: rest => do
    let files ← scan data level list
    let others ← scanLevels data rest list
    -- A level without files is left out, but what was reported about it stays.
    return if files.isEmpty then others else (level, maxScale, files) :: others

def paint (p : Presentation) (t : Theme) : Job Presentation := do
  report (p.paletteLog t.palette)
  return p.withPalette t.palette

def saveMaps (p : Presentation) (s : Settings) (levels : List (Nat × Nat × List Shapefile))
    (force : Bool) (t : Theme) : Job Unit := do
  let p ← paint p t
  levels.forM fun (level, maxScale, files) => do
    report (Level.log p level maxScale files)
    let path := s.places.map.below (MainMap.includePath t level)
    let _ ← save path (Level.text p level maxScale files) force
  report (MainMap.log p)
  let path := s.places.map.below ("SeaChart_" ++ t.name ++ ".map")
  let _ ← save path (MainMap.text p s t (levels.map Prod.fst)) force

def noLevels (data : Path) : Event :=
  .warning ("no chart levels found in " ++ data.text)

def saveChart (p : Presentation) (s : Settings) (force : Bool)
    (list : Store.Listing := Store.names) : Job Unit := do
  let levels ← scanLevels s.places.data Level.all list
  if levels.isEmpty then report [noLevels s.places.data]
  Theme.all.forM (saveMaps p s levels force)

def saveSymbolSet (p : Presentation) (t : Theme) (directory : Path) (force : Bool) : Job Path := do
  let path := directory.below ("symbols-" ++ t.name ++ ".sym")
  let _ ← save path (SymbolSet.text p t) force
  return path

end Job

namespace RuleSet

def paletteDirectory (ruleSet : Path) : Path :=
  ruleSet.below "color_tables"

def layerDirectory (ruleSet : Path) : Path :=
  ruleSet.below "layer_rules"

end RuleSet

/-- Makes all files that a request asks for. Palettes are written before the format is looked at. -/
def generate (r : Request) (s : Settings) (list : Store.Listing := Store.names) :
    Job Unit := do
  let p ← Job.loadLibrary s.places.library (s.selection Theme.day.palette)
  let palettes := RuleSet.paletteDirectory s.places.ruleSet
  if !(← Job.store).hasEntries palettes list then Job.savePalettes p palettes
  if r.format ≠ .chart then throw (.unsupported r.format)
  let layers := RuleSet.layerDirectory s.places.ruleSet
  if !(← Job.store).hasEntries layers list ∨ r.force then Job.saveLayerRules p layers
  Job.saveChart p s r.force list
  Theme.all.forM fun t => do
    let p ← Job.paint p t
    let _ ← Job.saveSymbolSet p t (s.places.map.below "symbols") r.force

end SeaChart
