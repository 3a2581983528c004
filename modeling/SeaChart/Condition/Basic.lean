import SeaChart.Number.Binary64
import SeaChart.Text.Blank
import SeaChart.Text.Numeral

namespace SeaChart

inductive Comparison where
  | less
  | atMost
  | greater
  | atLeast
  | equal
  | unequal
deriving DecidableEq, Repr

inductive Condition where
  | isSet (acronym : String)
  | isUnset (acronym : String)
  | equals (acronym value : String)
  | compares (acronym : String) (comparison : Comparison) (value : Binary64)
  | fits (acronym pattern : String)
  | conj (conditions : List Condition)
  | disj (conditions : List Condition)
  | neg (condition : Condition)
deriving Repr

namespace Condition

def always : Condition := .conj []

instance : Inhabited Condition := ⟨always⟩

def acronymLength : Nat := 6

/--
Reads an attribute code: an acronym and what it must be. No value asks for any value, a question
mark for none, everything else is compared as text.
-/
def ofCode (code : String) : Condition :=
  let cs := Text.trim code.toList
  let acronym := String.ofList (cs.take acronymLength)
  match Text.trim (cs.drop acronymLength) with
  | [] => .isSet acronym
  | ['?'] => .isUnset acronym
  | value => .equals acronym (String.ofList value)

def listPattern (values : List Nat) : String :=
  "(^|,)(" ++ String.intercalate "|" (values.map Text.natText) ++ ")(,|$)"

def listContains (acronym : String) (values : List Nat) : Condition :=
  .fits acronym (listPattern values)

def members : Condition → List Condition
  | .conj cs => cs
  | c => [c]

def both (cs : List Condition) : Condition :=
  .conj (cs.flatMap members)

mutual

def isTrivial : Condition → Bool
  | .conj cs => areTrivial cs
  | _ => false

def areTrivial : List Condition → Bool
  | [] => true
  | c :: cs => isTrivial c && areTrivial cs

end

mutual

def count : Condition → Nat
  | .conj cs => countAll cs
  | .disj cs => countAll cs
  | .neg c => count c
  | _ => 1

def countAll : List Condition → Nat
  | [] => 0
  | c :: cs => count c + countAll cs

end

mutual

def attributes : Condition → List String
  | .isSet a => [a]
  | .isUnset a => [a]
  | .equals a _ => [a]
  | .compares a _ _ => [a]
  | .fits a _ => [a]
  | .conj cs => allAttributes cs
  | .disj cs => allAttributes cs
  | .neg c => attributes c

def allAttributes : List Condition → List String
  | [] => []
  | c :: cs => attributes c ++ allAttributes cs

end

theorem areTrivial_eq (cs : List Condition) : areTrivial cs = cs.all isTrivial := by
  induction cs with
  | nil => rfl
  | cons c cs ih => simp [areTrivial, ih]

theorem allAttributes_eq (cs : List Condition) : allAttributes cs = cs.flatMap attributes := by
  induction cs with
  | nil => rfl
  | cons c cs ih => simp [allAttributes, ih]

theorem countAll_append (xs ys : List Condition) :
    countAll (xs ++ ys) = countAll xs + countAll ys := by
  induction xs with
  | nil => simp [countAll]
  | cons x xs ih => simp [countAll, ih, Nat.add_assoc]

theorem countAll_members (c : Condition) : countAll c.members = c.count := by
  cases c <;> simp [members, countAll, count]

theorem allAttributes_append (xs ys : List Condition) :
    allAttributes (xs ++ ys) = allAttributes xs ++ allAttributes ys := by
  simp [allAttributes_eq]

theorem allAttributes_members (c : Condition) : allAttributes c.members = c.attributes := by
  cases c <;> simp [members, allAttributes, attributes]

theorem count_both_pair (c d : Condition) : (both [c, d]).count = c.count + d.count := by
  simp [both, count, countAll_append, countAll_members]

theorem attributes_both_pair (c d : Condition) :
    (both [c, d]).attributes = c.attributes ++ d.attributes := by
  simp [both, attributes, allAttributes_append, allAttributes_members]

end Condition

end SeaChart
