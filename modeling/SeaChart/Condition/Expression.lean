import SeaChart.Condition.Basic
import SeaChart.Number.Shortest
import SeaChart.Text.Quoted

namespace SeaChart

def Comparison.symbol : Comparison → String
  | .less => "<"
  | .atMost => "<="
  | .greater => ">"
  | .atLeast => ">="
  | .equal => "="
  | .unequal => "!="

namespace Condition

def substituted (acronym : String) : String :=
  "[" ++ acronym ++ "]"

def textComparison (acronym operator value : String) : String :=
  "(\"" ++ substituted acronym ++ "\" " ++ operator ++ " " ++ Text.doubleQuoted value ++ ")"

def joined (operator : String) : List String → String
  | [] => ""
  | [t] => t
  | ts => "(" ++ String.intercalate (" " ++ operator ++ " ") ts ++ ")"

mutual

def expression : Condition → String
  | .isSet a => textComparison a "!=" ""
  | .isUnset a => textComparison a "=" ""
  | .equals a v => textComparison a "=" v
  | .compares a c v => "(" ++ substituted a ++ " " ++ c.symbol ++ " " ++ v.text ++ ")"
  | .fits a p => textComparison a "~" p
  | .conj cs => joined "AND" (expressions cs)
  | .disj cs => joined "OR" (expressions cs)
  | .neg c => "(NOT " ++ expression c ++ ")"

def expressions : List Condition → List String
  | [] => []
  | c :: cs => if c.isTrivial then expressions cs else expression c :: expressions cs

end

theorem expressions_eq (cs : List Condition) :
    expressions cs = (cs.filter fun c => !c.isTrivial).map expression := by
  induction cs with
  | nil => rfl
  | cons c cs ih => cases h : c.isTrivial <;> simp [expressions, h, ih]

end Condition

end SeaChart
