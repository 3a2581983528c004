import SeaChart.Geometry
import SeaChart.Rule

/-!
Conditional symbology procedures choose how a feature is drawn from its attributes and the mariner's
settings. A procedure is laid out as a list of alternatives; the first whose condition holds is
drawn.
-/

namespace SeaChart

structure MarinerDepths where
  shallowContour : Binary64 := .ofNat 2
  safetyContour : Binary64 := .ofNat 10
  deepContour : Binary64 := .ofNat 30
  safetyDepth : Binary64 := .ofNat 10
deriving DecidableEq, Repr, Inhabited

inductive TopmarkKind where
  | rigid
  | floating
deriving DecidableEq, Repr, Inhabited

structure MarinerSettings where
  depths : MarinerDepths := {}
  topmarks : TopmarkKind := .rigid
deriving DecidableEq, Repr, Inhabited

namespace Procedure

def alternative (condition : Condition) (instructions : List Instruction) : Rule :=
  { condition, instructions }

def otherwise (instructions : List Instruction) : Rule :=
  alternative .always instructions

def symbol (name : String) : Instruction :=
  .symbol name none

def setAndBelow (acronym : String) (value : Binary64) : Condition :=
  .both [.isSet acronym, .compares acronym .less value]

def setAndAtLeast (acronym : String) (value : Binary64) : Condition :=
  .both [.isSet acronym, .compares acronym .atLeast value]

def approximatePosition : Condition :=
  .listContains "QUAPOS" [2, 3, 4, 5, 6, 7, 8, 9]

def depthLabel (acronym : String) (bold : Bool) (color : String) : Instruction :=
  .label
    { wording := .template "%s" [acronym]
      horizontal := 1
      vertical := 2
      bold
      size := 8
      offset := (.zero false, .zero false)
      color
      group := 33 }

end Procedure

end SeaChart
