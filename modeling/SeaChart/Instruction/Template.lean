import SeaChart.Instruction.Basic
import SeaChart.Text.Pieces
import SeaChart.Text.Quoted

namespace SeaChart

open Text

def isFlag (c : Char) : Bool :=
  c == '-' || c == '+' || c == ' ' || c == '#' || c == '0'

def isConversion (c : Char) : Bool :=
  "sdifcxeg".toList.contains c

def dropPrecision : List Char → List Char
  | '.' :: c :: cs => if isDigit c then cs.dropWhile isDigit else '.' :: c :: cs
  | cs => cs

def dropSize : List Char → List Char
  | 'l' :: cs => cs
  | 'h' :: cs => cs
  | cs => cs

/--
What follows a conversion specification whose percent sign has been read: flags, a width, a
precision, a size and the conversion letter, all but the last optional.
-/
def afterSpecification (cs : List Char) : Option (List Char) :=
  match dropSize (dropPrecision ((cs.dropWhile isFlag).dropWhile isDigit)) with
  | c :: rest => if isConversion c then some rest else none
  | [] => none

theorem dropPrecision_suffix (cs : List Char) : dropPrecision cs <:+ cs := by
  fun_cases dropPrecision cs with
  | case1 c cs h =>
    have hdigits := List.dropWhile_suffix isDigit (l := cs)
    exact hdigits.trans ((List.suffix_cons c cs).trans (List.suffix_cons '.' (c :: cs)))
  | case2 c cs h => exact List.suffix_refl _
  | case3 cs h => exact List.suffix_refl _

theorem dropSize_suffix (cs : List Char) : dropSize cs <:+ cs := by
  fun_cases dropSize cs with
  | case1 cs => exact List.suffix_cons 'l' cs
  | case2 cs => exact List.suffix_cons 'h' cs
  | case3 cs => exact List.suffix_refl _

theorem afterSpecification_suffix {cs rest : List Char} (h : afterSpecification cs = some rest) :
    ∃ c, c :: rest <:+ cs := by
  have hwidth := (List.dropWhile_suffix isDigit (l := cs.dropWhile isFlag)).trans
    (List.dropWhile_suffix isFlag)
  have hprecision := (dropPrecision_suffix ((cs.dropWhile isFlag).dropWhile isDigit)).trans hwidth
  have hsize := (dropSize_suffix _).trans hprecision
  simp only [afterSpecification] at h
  split at h
  · next c r heq =>
    split at h
    · cases h
      exact ⟨c, heq ▸ hsize⟩
    · simp at h
  · simp at h

theorem afterSpecification_length {cs rest : List Char} (h : afterSpecification cs = some rest) :
    rest.length < cs.length := by
  obtain ⟨c, hsuffix⟩ := afterSpecification_suffix h
  exact hsuffix.length_le

def nextSubstitution (acronyms : List String) : List Char :=
  match acronyms with
  | [] => []
  | a :: _ => '[' :: (a.toList ++ [']'])

def substitute (acronyms : List String) : List Char → List Char
  | [] => []
  | c :: cs =>
    if c = '%' then
      match _h : afterSpecification cs with
      | some rest => nextSubstitution acronyms ++ substitute acronyms.tail rest
      | none => c :: substitute acronyms cs
    else c :: substitute acronyms cs
termination_by cs => cs.length
decreasing_by
  · have := afterSpecification_length _h
    simp only [List.length_cons]
    omega
  · simp
  · simp

theorem mem_of_mem_substitute {acronyms : List String} {cs : List Char} {c : Char}
    (h : c ∈ substitute acronyms cs) :
    c = '[' ∨ c = ']' ∨ c ∈ cs ∨ ∃ a ∈ acronyms, c ∈ a.toList := by
  fun_induction substitute acronyms cs with
  | case1 acronyms => cases h
  | case2 acronyms cs rest hrest ih =>
    obtain ⟨d, hsuffix⟩ := afterSpecification_suffix hrest
    have hrest : rest ⊆ cs := fun x hx => hsuffix.subset (List.mem_cons_of_mem d hx)
    rcases List.mem_append.mp h with h | h
    · cases acronyms with
      | nil => cases h
      | cons a as =>
        simp only [nextSubstitution, List.mem_cons, List.mem_append] at h
        grind
    · have hmore := ih h
      grind [List.mem_of_mem_tail]
  | case3 acronyms cs hnone ih => grind
  | case4 acronyms d cs hd ih => grind

def Wording.body : Wording → List Char
  | .byAttribute a => '[' :: (a.toList ++ [']'])
  | .literal text => text.toList
  | .template format acronyms => mergePairs '%' (substitute acronyms format.toList)

def Wording.quoted (w : Wording) : String :=
  singleQuoted (String.ofList w.body)

end SeaChart
