import SeaChart.Procedure.Basic

namespace SeaChart.Procedure

def entryProhibited : Condition := .listContains "RESTRN" [7, 8, 14]

def anchoringRestricted : Condition := .listContains "RESTRN" [1, 2]

def fishingRestricted : Condition := .listContains "RESTRN" [3, 4, 5, 6]

def otherwiseRestricted : Condition := .listContains "RESTRN" [9, 10, 11, 12, 13]

def restrictedArea : List Rule :=
  [alternative entryProhibited [symbol "ENTRES51", .complexLine "ENTRES51"],
    alternative anchoringRestricted [symbol "ACHRES51", .complexLine "ACHRES51"],
    alternative fishingRestricted [symbol "FSHRES51", .complexLine "FSHRES51"],
    alternative otherwiseRestricted [symbol "INFARE51", .complexLine "CTYARE51"],
    otherwise [symbol "RSRDEF51", .complexLine "CTYARE51"]]

def restriction : List Rule :=
  [alternative entryProhibited [symbol "ENTRES61"],
    alternative anchoringRestricted [symbol "ACHRES61"],
    alternative fishingRestricted [symbol "FSHRES61"],
    alternative (.isSet "RESTRN") [symbol "INFARE51"],
    otherwise []]

end SeaChart.Procedure
