import SeaChart.Text.Blank

namespace SeaChart

inductive DisplayPriority where
  | noData
  | group1
  | area1
  | area2
  | pointSymbol
  | lineSymbol
  | areaSymbol
  | routing
  | hazards
  | mariners
deriving DecidableEq, Repr

namespace DisplayPriority

def level : DisplayPriority → Nat
  | .noData => 0
  | .group1 => 1
  | .area1 => 2
  | .area2 => 3
  | .pointSymbol => 4
  | .lineSymbol => 5
  | .areaSymbol => 6
  | .routing => 7
  | .hazards => 8
  | .mariners => 9

def name : DisplayPriority → String
  | .noData => "No data"
  | .group1 => "Group 1"
  | .area1 => "Area 1"
  | .area2 => "Area 2"
  | .pointSymbol => "Point Symbol"
  | .lineSymbol => "Line Symbol"
  | .areaSymbol => "Area Symbol"
  | .routing => "Routing"
  | .hazards => "Hazards"
  | .mariners => "Mariners"

def spellings : List (String × DisplayPriority) :=
  [("No data", .noData), ("Group 1", .group1), ("Area 1", .area1), ("Area 2", .area2),
    ("Point Symbol", .pointSymbol), ("Line Symbol", .lineSymbol), ("Area Symbol", .areaSymbol),
    ("Routing", .routing), ("Hazards", .hazards), ("Mariners", .mariners),
    ("Mariners' Standard", .mariners), ("Mariners' Other", .mariners)]

def read (s : String) : Option DisplayPriority :=
  spellings.lookup (Text.trimmed s)

def higher (p q : DisplayPriority) : DisplayPriority :=
  if p.level < q.level then q else p

end DisplayPriority

end SeaChart
