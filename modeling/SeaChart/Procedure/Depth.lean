import SeaChart.Procedure.Basic

namespace SeaChart.Procedure

def depthAreaOutline (depths : MarinerDepths) : List Rule :=
  [alternative
      (.both [setAndBelow "DRVAL1" depths.safetyContour,
        setAndAtLeast "DRVAL2" depths.safetyContour])
      [.simpleLine .solid 2 "DEPSC"],
    otherwise [.simpleLine .solid 1 "DEPCN"]]

def dredgedMarks (feature : String) : List Instruction :=
  if feature = "DRGARE" then
    [.areaPattern "DRGARE01" none, .simpleLine .dashed 1 "CHGRF"]
  else []

def shade (feature color : String) : List Instruction :=
  .areaColor color 0 :: dredgedMarks feature

def drying : Condition :=
  .disj [.isUnset "DRVAL1", .compares "DRVAL1" .less (.zero false)]

def depthBand (low high : Binary64) : Condition :=
  .both [setAndAtLeast "DRVAL1" low, .compares "DRVAL1" .less high]

def depthAreaShades (feature : String) (depths : MarinerDepths) : List Rule :=
  [alternative drying (shade feature "DEPIT"),
    alternative (depthBand (.zero false) depths.shallowContour) (shade feature "DEPVS"),
    alternative (depthBand depths.shallowContour depths.safetyContour) (shade feature "DEPMS"),
    alternative (depthBand depths.safetyContour depths.deepContour) (shade feature "DEPMD"),
    otherwise (shade feature "DEPDW")]

def depthArea (geometry : Geometry) (feature : String) (depths : MarinerDepths) : List Rule :=
  match geometry with
  | .line => depthAreaOutline depths
  | _ => depthAreaShades feature depths

def depthContour (depths : MarinerDepths) : List Rule :=
  let safety : Condition := .compares "VALDCO" .equal depths.safetyContour
  [alternative (.both [safety, approximatePosition]) [.simpleLine .dashed 2 "DEPSC"],
    alternative safety [.simpleLine .solid 2 "DEPSC"],
    alternative approximatePosition [.simpleLine .dashed 1 "DEPCN"],
    otherwise [.simpleLine .solid 1 "DEPCN"]]

def sounding (depths : MarinerDepths) : List Rule :=
  [alternative (setAndBelow "DEPTH" depths.safetyDepth) [depthLabel "DEPTH" true "SNDG2"],
    otherwise [depthLabel "DEPTH" false "SNDG1"]]

end SeaChart.Procedure
