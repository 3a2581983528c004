import SeaChart.Number.Binary64
import SeaChart.Text.Numeral

namespace SeaChart

inductive Rotation where
  | fixed (angle : Binary64)
  | byAttribute (acronym : String)
deriving DecidableEq, Repr

inductive LineStyle where
  | solid
  | dashed
  | dotted
deriving DecidableEq, Repr

inductive Wording where
  | byAttribute (acronym : String)
  | literal (text : String)
  | template (format : String) (acronyms : List String)
deriving DecidableEq, Repr

structure Label where
  wording : Wording
  /-- 2 is right, 3 is left, all else is centred. -/
  horizontal : Nat
  /-- 2 is centred, 3 is top, all else is bottom. -/
  vertical : Nat
  bold : Bool
  size : Nat
  offset : Binary64 × Binary64
  color : String
  group : Nat
deriving DecidableEq, Repr

inductive Instruction where
  | symbol (name : String) (rotation : Option Rotation)
  | simpleLine (style : LineStyle) (width : Nat) (color : String)
  | complexLine (name : String)
  | areaColor (color : String) (transparency : Nat)
  | areaPattern (name : String) (rotation : Option Rotation)
  | label (label : Label)
  | procedure (name : String)
  | unknown (text : String)
deriving DecidableEq, Repr

def Wording.acronyms : Wording → List String
  | .byAttribute a => [a]
  | .literal _ => []
  | .template _ as => as

def Label.position (l : Label) : String :=
  let vertical := if l.vertical = 3 then "l" else if l.vertical = 2 then "c" else "u"
  let horizontal := if l.horizontal = 3 then "r" else if l.horizontal = 2 then "l" else "c"
  vertical ++ horizontal

def isAcronym (cs : List Char) : Bool :=
  match cs with
  | [] => false
  | c :: rest => c.isAlpha && rest.length == 5 && rest.all fun d => d.isAlphanum || d == '_'

def Rotation.acronyms : Option Rotation → List String
  | some (.byAttribute a) => [a]
  | _ => []

namespace Instruction

def acronyms : Instruction → List String
  | .symbol _ rotation => Rotation.acronyms rotation
  | .areaPattern _ rotation => Rotation.acronyms rotation
  | .label l => l.wording.acronyms.filter fun a => isAcronym a.toList
  | _ => []

def isLabel : Instruction → Bool
  | .label _ => true
  | _ => false

end Instruction

end SeaChart
