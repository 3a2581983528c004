import SeaChart.Instruction.Reader
import SeaChart.Procedure.Depth
import SeaChart.Procedure.Hazard
import SeaChart.Procedure.Navigation
import SeaChart.Procedure.Restriction
import SeaChart.Procedure.Shoreline

namespace SeaChart

namespace Procedure

def placeholder : Geometry → List Rule
  | .point => [otherwise [symbol "QUESMRK1"]]
  | .line => [otherwise [.simpleLine .dashed 1 "CHMGD"]]
  | .area => []

def alternatives (settings : MarinerSettings) (procedure : String) (geometry : Geometry)
    (feature : String) : List Rule :=
  match procedure with
  | "DEPARE" => depthArea geometry feature settings.depths
  | "DEPCNT" => depthContour settings.depths
  | "SOUNDG" => sounding settings.depths
  | "LIGHTS" => light
  | "TOPMAR" => topmark settings.topmarks
  | "WRECKS" => wreck geometry settings.depths
  | "OBSTRN" => obstruction geometry feature settings.depths
  | "RESARE" => restrictedArea
  | "RESTRN" => restriction
  | "SLCONS" => shorelineConstruction geometry
  | "QUAPOS" => positionQuality geometry
  | "QUALIN" => positionQuality geometry
  | "QUAPNT" => positionQuality geometry
  | _ => placeholder geometry

end Procedure

namespace Rule

def extend (settings : MarinerSettings) (geometry : Geometry) (feature : String)
    (rules : List Rule) : Instruction → List Rule
  | .procedure name => product rules (Procedure.alternatives settings name geometry feature)
  | i => rules.map (addInstruction i)

def expand (settings : MarinerSettings) (geometry : Geometry) (feature : String) (base : Rule)
    (instructions : String) : List Rule :=
  (Instruction.readAll instructions).foldl (extend settings geometry feature) [base]

end Rule

end SeaChart
