import SeaChart.Path
import SeaChart.Presentation.Reader
import SeaChart.Store.Basic

namespace SeaChart

structure Places where
  data : Path
  map : Path
  ruleSet : Path
  library : Path
deriving DecidableEq, Repr, Inhabited

structure Settings where
  debug : Bool
  pointTable : String
  areaTable : String
  categories : List String
  excluded : Option (List String)
  mariner : MarinerSettings
  places : Places
deriving Inhabited

namespace Settings

def selection (s : Settings) (palette : String) : Selection where
  pointTable := s.pointTable
  areaTable := s.areaTable
  categories := some s.categories
  palette := palette
  excluded := s.excluded
  settings := s.mariner

end Settings

inductive SettingsError where
  | unreadable (path : Path) (cause : FileError)
  | malformed
  | missingDataPath
  | invalidTopmarks (text : String)
deriving DecidableEq, Repr

namespace SettingsError

def message : SettingsError → String
  | .unreadable path cause => "failed to read " ++ path.text ++ ": " ++ cause.message
  | .malformed => "invalid configuration"
  | .missingDataPath => "Data path missing from configuration file"
  | .invalidTopmarks text =>
    "topmark_type must be either floating or rigid, not " ++ Text.displayed text

def exitCode : SettingsError → Nat
  | .invalidTopmarks _ => 2
  | _ => 1

end SettingsError

end SeaChart
