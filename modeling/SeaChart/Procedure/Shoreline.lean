import SeaChart.Procedure.Basic

namespace SeaChart.Procedure

def positionQuality : Geometry → List Rule
  | .point => [alternative approximatePosition [symbol "LOWACC01"], otherwise []]
  | _ =>
    [alternative approximatePosition [.complexLine "LOWACC21"],
      otherwise [.simpleLine .solid 1 "CSTLN"]]

def shorelineConstruction : Geometry → List Rule
  | .point => positionQuality .point
  | _ =>
    [alternative approximatePosition [.complexLine "LOWACC01"],
      alternative (.listContains "CONDTN" [1, 2]) [.simpleLine .dashed 1 "CSTLN"],
      alternative (.listContains "CATSLC" [6, 15, 16]) [.simpleLine .solid 4 "CSTLN"],
      alternative (.listContains "WATLEV" [3, 4]) [.simpleLine .dashed 2 "CSTLN"],
      otherwise [.simpleLine .solid 2 "CSTLN"]]

end SeaChart.Procedure
