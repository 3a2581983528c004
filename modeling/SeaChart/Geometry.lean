import SeaChart.Text.Blank

namespace SeaChart

inductive Geometry where
  | area
  | line
  | point
deriving DecidableEq, Repr

namespace Geometry

def name : Geometry → String
  | .area => "Area"
  | .line => "Line"
  | .point => "Point"

def layerType : Geometry → String
  | .area => "POLYGON"
  | .line => "LINE"
  | .point => "POINT"

def rank : Geometry → Nat
  | .area => 0
  | .line => 1
  | .point => 2

def ofName? (name : String) : Option Geometry :=
  if name = "Area" then some .area
  else if name = "Line" then some .line
  else if name = "Point" then some .point
  else none

theorem ofName?_name (g : Geometry) : ofName? g.name = some g := by
  cases g <;> decide

def read (s : String) : Option Geometry :=
  ofName? (Text.trimmed s)

end Geometry

end SeaChart
