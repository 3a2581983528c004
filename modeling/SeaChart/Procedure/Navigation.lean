import SeaChart.Procedure.Basic

namespace SeaChart.Procedure

def flare (name : String) : Instruction :=
  .symbol name (some (.fixed (.ofNat 135)))

def light : List Rule :=
  [alternative (.listContains "COLOUR" [3]) [flare "LIGHTS11"],
    alternative (.listContains "COLOUR" [4]) [flare "LIGHTS12"],
    alternative (.listContains "COLOUR" [1, 6, 11]) [flare "LIGHTS13"],
    otherwise [flare "LITDEF11"]]

def floatingTopmarks : List String :=
  ["TOPMAR02", "TOPMAR04", "TOPMAR10", "TOPMAR12", "TOPMAR13", "TOPMAR14", "TOPMAR65",
    "TOPMAR17", "TOPMAR16", "TOPMAR08", "TOPMAR07", "TOPMAR14", "TOPMAR05", "TOPMAR06",
    "TMARDEF2", "TMARDEF2", "TMARDEF2", "TOPMAR10", "TOPMAR13", "TOPMAR14", "TOPMAR13",
    "TOPMAR14", "TOPMAR14", "TOPMAR02", "TOPMAR04", "TOPMAR10", "TOPMAR17", "TOPMAR18",
    "TOPMAR02", "TOPMAR17", "TOPMAR14", "TOPMAR10", "TMARDEF2"]

def rigidTopmarks : List String :=
  ["TOPMAR22", "TOPMAR24", "TOPMAR30", "TOPMAR32", "TOPMAR33", "TOPMAR34", "TOPMAR85",
    "TOPMAR86", "TOPMAR36", "TOPMAR28", "TOPMAR27", "TOPMAR14", "TOPMAR25", "TOPMAR26",
    "TOPMAR88", "TOPMAR87", "TMARDEF1", "TOPMAR30", "TOPMAR33", "TOPMAR34", "TOPMAR33",
    "TOPMAR34", "TOPMAR34", "TOPMAR22", "TOPMAR24", "TOPMAR30", "TOPMAR86", "TOPMAR89",
    "TOPMAR22", "TOPMAR86", "TOPMAR14", "TOPMAR30", "TMARDEF1"]

def topmarkTable : TopmarkKind → List String
  | .floating => floatingTopmarks
  | .rigid => rigidTopmarks

def defaultTopmark : TopmarkKind → String
  | .floating => "TMARDEF2"
  | .rigid => "TMARDEF1"

def topmarkShape (shape : Nat) (name : String) : Rule :=
  alternative (.equals "TOPSHP" (Text.natText shape)) [symbol name]

def topmark (kind : TopmarkKind) : List Rule :=
  alternative (.isUnset "TOPSHP") [symbol "QUESMRK1"] ::
    ((topmarkTable kind).zipIdx 1).map (fun (name, shape) => topmarkShape shape name) ++
    [otherwise [symbol (defaultTopmark kind)]]

end SeaChart.Procedure
