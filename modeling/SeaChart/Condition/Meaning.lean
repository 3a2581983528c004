import SeaChart.Condition.Basic

namespace SeaChart

def Binary64.sameNumber (x y : Binary64) : Bool :=
  x ≠ .nan && y ≠ .nan && !x.lt y && !y.lt x

def Comparison.holds : Comparison → Binary64 → Binary64 → Bool
  | .less, x, y => x.lt y
  | .atMost, x, y => x.lt y || x.sameNumber y
  | .greater, x, y => y.lt x
  | .atLeast, x, y => y.lt x || x.sameNumber y
  | .equal, x, y => x.sameNumber y
  | .unequal, x, y => !x.sameNumber y

structure Attributes where
  text : String → String
  number : String → Binary64
  /-- How a comparison with an attribute turns out that is not set; it may go either way. -/
  unsetCompares : (acronym : String) → Comparison → Binary64 → Bool
  fits : (text pattern : String) → Bool

namespace Condition

mutual

def holds (f : Attributes) : Condition → Bool
  | .isSet a => f.text a ≠ ""
  | .isUnset a => f.text a = ""
  | .equals a v => f.text a = v
  | .compares a c v => if f.text a = "" then f.unsetCompares a c v else c.holds (f.number a) v
  | .fits a p => f.fits (f.text a) p
  | .conj cs => allHold f cs
  | .disj cs => anyHolds f cs
  | .neg c => !holds f c

def allHold (f : Attributes) : List Condition → Bool
  | [] => true
  | c :: cs => holds f c && allHold f cs

def anyHolds (f : Attributes) : List Condition → Bool
  | [] => false
  | c :: cs => holds f c || anyHolds f cs

end

theorem allHold_eq (f : Attributes) (cs : List Condition) : allHold f cs = cs.all (holds f) := by
  induction cs with
  | nil => rfl
  | cons c cs ih => simp [allHold, ih]

theorem anyHolds_eq (f : Attributes) (cs : List Condition) : anyHolds f cs = cs.any (holds f) := by
  induction cs with
  | nil => rfl
  | cons c cs ih => simp [anyHolds, ih]

theorem all_holds_members (f : Attributes) (c : Condition) :
    c.members.all (holds f) = holds f c := by
  cases c <;> simp [members, holds, allHold_eq]

theorem holds_both (f : Attributes) (cs : List Condition) :
    holds f (both cs) = cs.all (holds f) := by
  simp only [both, holds, allHold_eq]
  induction cs with
  | nil => rfl
  | cons c cs ih =>
    rw [List.flatMap_cons, List.all_append, all_holds_members, ih, List.all_cons]

mutual

theorem holds_of_isTrivial (f : Attributes) :
    ∀ c : Condition, c.isTrivial = true → holds f c = true
  | .conj cs, h => by
    simp only [isTrivial] at h
    simpa only [holds] using allHold_of_areTrivial f cs h
  | .isSet _, h => by simp [isTrivial] at h
  | .isUnset _, h => by simp [isTrivial] at h
  | .equals _ _, h => by simp [isTrivial] at h
  | .compares _ _ _, h => by simp [isTrivial] at h
  | .fits _ _, h => by simp [isTrivial] at h
  | .disj _, h => by simp [isTrivial] at h
  | .neg _, h => by simp [isTrivial] at h

theorem allHold_of_areTrivial (f : Attributes) :
    ∀ cs : List Condition, areTrivial cs = true → allHold f cs = true
  | [], _ => rfl
  | c :: cs, h => by
    simp only [areTrivial, Bool.and_eq_true] at h
    simp only [allHold, holds_of_isTrivial f c h.1, allHold_of_areTrivial f cs h.2, Bool.and_self]

end

end Condition

end SeaChart
