import SeaChart.Condition.Basic
import SeaChart.DisplayPriority
import SeaChart.Instruction.Basic

namespace SeaChart

structure Rule where
  id : String := ""
  table : String := ""
  display : String := ""
  comment : String := ""
  instructions : List Instruction := []
  condition : Condition := .always
  priority : Option DisplayPriority := none
deriving Inhabited

def preferLater (s t : String) : String :=
  if t = "" then s else t

theorem empty_preferLater (s : String) : preferLater "" s = s := by
  by_cases h : s = "" <;> simp [preferLater, h]

theorem preferLater_empty (s : String) : preferLater s "" = s := if_pos rfl

theorem preferLater_assoc (s t u : String) :
    preferLater (preferLater s t) u = preferLater s (preferLater t u) := by
  by_cases h : u = "" <;> simp [preferLater, h]

namespace Rule

/--
Joins a rule with a more specific one: texts and priority of the second win where they are set, the
conditions are both required and the instructions follow each other.
-/
def combine (r s : Rule) : Rule where
  id := preferLater r.id s.id
  table := preferLater r.table s.table
  display := preferLater r.display s.display
  comment := preferLater r.comment s.comment
  instructions := r.instructions ++ s.instructions
  condition := .both [r.condition, s.condition]
  priority := s.priority.or r.priority

def effectivePriority (r : Rule) : DisplayPriority :=
  r.priority.getD .noData

def addInstruction (i : Instruction) (r : Rule) : Rule :=
  { r with instructions := r.instructions ++ [i] }

def product (rules alternatives : List Rule) : List Rule :=
  match alternatives with
  | [] => rules
  | _ => rules.flatMap fun r => alternatives.map r.combine

theorem product_of_ne_nil (rules : List Rule) {alternatives : List Rule}
    (h : alternatives ≠ []) :
    product rules alternatives = rules.flatMap fun r => alternatives.map r.combine := by
  cases alternatives with
  | nil => exact absurd rfl h
  | cons a as => rfl

theorem length_product (rules : List Rule) {alternatives : List Rule} (h : alternatives ≠ []) :
    (product rules alternatives).length = rules.length * alternatives.length := by
  rw [product_of_ne_nil rules h]
  induction rules with
  | nil => simp
  | cons r rs ih =>
    rw [List.flatMap_cons, List.length_append, List.length_map, ih, List.length_cons, Nat.succ_mul,
      Nat.add_comm]

end Rule

end SeaChart
