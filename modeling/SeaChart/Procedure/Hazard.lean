import SeaChart.Procedure.Basic

namespace SeaChart.Procedure

def hazardOutline (geometry : Geometry) (depths : MarinerDepths) : List Rule :=
  match geometry with
  | .line =>
    [alternative (setAndBelow "VALSOU" depths.safetyDepth) [.simpleLine .dotted 2 "CHBLK"],
      otherwise [.simpleLine .dashed 2 "CHBLK"]]
  | _ =>
    [alternative (setAndBelow "VALSOU" depths.safetyDepth)
        [.areaColor "DEPVS" 0, .simpleLine .dotted 2 "CHBLK"],
      alternative (.listContains "WATLEV" [1, 2])
        [.areaColor "CHBRN" 0, .simpleLine .solid 2 "CSTLN"],
      otherwise [.simpleLine .dotted 2 "CHBLK"]]

def isolatedDangers (depths : MarinerDepths) : List Rule :=
  [alternative (setAndBelow "VALSOU" depths.safetyDepth)
      [symbol "DANGER01", depthLabel "VALSOU" true "SNDG2"],
    alternative (setAndAtLeast "VALSOU" depths.safetyDepth) [symbol "DANGER02"]]

def wreckSymbols : List Rule :=
  [alternative (.equals "CATWRK" "1") [symbol "WRECKS04"],
    alternative (.listContains "WATLEV" [1, 2]) [symbol "WRECKS01"],
    otherwise [symbol "WRECKS05"]]

def obstructionSymbols (feature : String) : List Rule :=
  if feature = "UWTROC" then
    [alternative (.equals "WATLEV" "4") [symbol "UWTROC04"], otherwise [symbol "UWTROC03"]]
  else
    [alternative (.equals "CATOBS" "6") [symbol "FOULAR01"], otherwise [symbol "OBSTRN01"]]

def wreck (geometry : Geometry) (depths : MarinerDepths) : List Rule :=
  match geometry with
  | .point => isolatedDangers depths ++ wreckSymbols
  | _ => hazardOutline geometry depths

def obstruction (geometry : Geometry) (feature : String) (depths : MarinerDepths) : List Rule :=
  match geometry with
  | .point => isolatedDangers depths ++ obstructionSymbols feature
  | _ => hazardOutline geometry depths

end SeaChart.Procedure
