namespace SeaChart

inductive Pattern where
  | empty
  | plain (c : Char)
  | start
  | finish
  | sequence (first second : Pattern)
  | choice (first second : Pattern)
deriving DecidableEq, Repr

namespace Pattern

/-- `p.Fits before middle after`: the pattern fits the characters between the two others. -/
def Fits : Pattern → List Char → List Char → List Char → Prop
  | .empty, _, middle, _ => middle = []
  | .plain c, _, middle, _ => middle = [c]
  | .start, before, middle, _ => before = [] ∧ middle = []
  | .finish, _, middle, after => middle = [] ∧ after = []
  | .sequence p q, before, middle, after =>
    ∃ left right, middle = left ++ right ∧ p.Fits before left (right ++ after) ∧
      q.Fits (before ++ left) right after
  | .choice p q, before, middle, after => p.Fits before middle after ∨ q.Fits before middle after

def FoundIn (p : Pattern) (s : String) : Prop :=
  ∃ before middle after, s.toList = before ++ (middle ++ after) ∧ p.Fits before middle after

def isOperator (c : Char) : Bool :=
  c ∈ ['.', '*', '+', '?', '[', ']', '{', '}', '\\']

/-- A group that is not closed: the choice before its last bar, and what stands behind the bar. -/
structure OpenGroup where
  earlier : Option Pattern := none
  current : Pattern := .empty

namespace OpenGroup

def pattern (g : OpenGroup) : Pattern :=
  match g.earlier with
  | none => g.current
  | some p => .choice p g.current

def append (g : OpenGroup) (p : Pattern) : OpenGroup :=
  { g with current := .sequence g.current p }

end OpenGroup

def take : List OpenGroup → Char → Option (List OpenGroup)
  | g :: groups, '(' => some ({} :: g :: groups)
  | g :: outer :: groups, ')' => some (outer.append g.pattern :: groups)
  | [_], ')' => none
  | g :: groups, '|' => some ({ earlier := some g.pattern } :: groups)
  | g :: groups, '^' => some (g.append .start :: groups)
  | g :: groups, '$' => some (g.append .finish :: groups)
  | g :: groups, c => if isOperator c then none else some (g.append (.plain c) :: groups)
  | [], _ => none

def read (s : String) : Option Pattern :=
  match s.toList.foldlM take [{}] with
  | some [g] => some g.pattern
  | _ => none

example : read "a^|(b|)" =
    some (.choice (.sequence (.sequence .empty (.plain 'a')) .start)
      (.sequence .empty (.choice (.sequence .empty (.plain 'b')) .empty))) := by
  decide

example : read "(a" = none ∧ read "a)" = none ∧ read "a*" = none := by decide

end Pattern

end SeaChart
