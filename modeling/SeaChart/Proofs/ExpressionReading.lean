import Mathlib.Data.List.Basic
import SeaChart.Condition.Expression
import SeaChart.Number.Decimal
import SeaChart.Proofs.SolidConditions

/-!
The grammar of logical expressions, and what the expression of a condition means in it. An atom is a
comparison in parentheses, so is a negation and a group of at least two members; a text between
double quotes ends at its first bare quote.
-/

namespace SeaChart

open Text (readQuoted append_cons_inj)

namespace Binary64

open SeaChart.Text

theorem mem_toDigits {c : Char} {n : Nat} (h : c ∈ Nat.toDigits 10 n) : c.isDigit = true :=
  Nat.isDigit_of_mem_toDigits (by decide) (by decide) h

theorem mem_positional {c : Char} {n : Nat} {k : Int} (h : c ∈ positional n k) :
    c.isDigit = true ∨ c = '.' := by
  unfold positional at h
  split at h
  · exact Or.inl (mem_toDigits h)
  · next k =>
    rcases List.mem_append.mp h with h | h
    · exact Or.inl (mem_toDigits h)
    · split at h
      · cases h
      · rcases List.mem_cons.mp h with h | h
        · exact Or.inr h
        · have hplaces := List.dropWhile_subset _ (List.mem_reverse.mp h)
          rcases List.mem_append.mp (List.mem_reverse.mp hplaces) with h | h
          · rw [List.eq_of_mem_replicate h]
            exact Or.inl (by decide)
          · exact Or.inl (mem_toDigits h)

theorem mem_text {c : Char} {x : Binary64} (h : c ∈ x.text.toList) :
    c.isDigit = true ∨ c ∈ "-.NaNinf".toList := by
  cases x with
  | nan =>
    have hsub : "NaN".toList ⊆ "-.NaNinf".toList := by decide
    exact Or.inr (hsub h)
  | infinite negative =>
    have hsub : (infinite negative).text.toList ⊆ "-.NaNinf".toList := by
      cases negative <;> decide
    exact Or.inr (hsub h)
  | finite negative m e =>
    simp only [text, String.toList_append, String.toList_ofList, List.mem_append] at h
    rcases h with h | h
    · cases negative <;> simp_all
    · split at h
      · cases List.mem_singleton.mp h
        exact Or.inl (by decide)
      · rcases mem_positional h with h | rfl
        · exact Or.inl h
        · exact Or.inr (by decide)

theorem parenthesis_not_mem_text (x : Binary64) : ')' ∉ x.text.toList :=
  fun h => absurd (mem_text h) (by decide)

end Binary64

namespace Condition

inductive TextOperator where
  | equal
  | unequal
  | fits
deriving DecidableEq

def TextOperator.symbol : TextOperator → String
  | .equal => "="
  | .unequal => "!="
  | .fits => "~"

def TextOperator.condition (acronym value : String) : TextOperator → Condition
  | .equal => .equals acronym value
  | .unequal => .neg (.equals acronym value)
  | .fits => .fits acronym value

def comparison? : List Char → Option Comparison
  | ['<'] => some .less
  | ['<', '='] => some .atMost
  | ['>'] => some .greater
  | ['>', '='] => some .atLeast
  | ['='] => some .equal
  | ['!', '='] => some .unequal
  | _ => none

inductive Junction where
  | all
  | any
deriving DecidableEq

def Junction.word : Junction → String
  | .all => "AND"
  | .any => "OR"

def Junction.condition : Junction → List Condition → Condition
  | .all => .conj
  | .any => .disj

inductive Phrase where
  | single (condition : Condition)
  | members (junction : Junction) (conditions : List Condition)

def Phrase.junction? : Phrase → Option Junction
  | .single _ => none
  | .members j _ => some j

/-- `Reads cs p rest`: the characters `cs` are a text of the phrase `p` and then `rest`. -/
inductive Reads : List Char → Phrase → List Char → Prop where
  | text (o : TextOperator) {acronym : String} {cs value rest : List Char}
      (hquote : '"' ∉ acronym.toList) (hbracket : ']' ∉ acronym.toList)
      (hvalue : readQuoted '"' cs = some (value, ')' :: rest)) :
      Reads ('(' :: '"' :: '[' :: (acronym.toList ++ ']' :: '"' :: ' ' ::
          (o.symbol.toList ++ ' ' :: '"' :: cs)))
        (.single (o.condition acronym (String.ofList value))) rest
  | number {c : Comparison} {acronym : String} {operator digits rest : List Char}
      {value : Binary64} (hbracket : ']' ∉ acronym.toList)
      (hoperator : comparison? operator = some c) (hparenthesis : ')' ∉ digits)
      (hvalue : Binary64.read (String.ofList digits) = some value) :
      Reads ('(' :: '[' :: (acronym.toList ++ ']' :: ' ' ::
          (operator ++ ' ' :: (digits ++ ')' :: rest))))
        (.single (.compares acronym c value)) rest
  | negation {cs rest : List Char} {c : Condition} (h : Reads cs (.single c) (')' :: rest)) :
      Reads ('(' :: 'N' :: 'O' :: 'T' :: ' ' :: cs) (.single (.neg c)) rest
  | group (j : Junction) {cs ds rest : List Char} {c : Condition} {conditions : List Condition}
      (hfirst : Reads cs (.single c) (' ' :: (j.word.toList ++ ' ' :: ds)))
      (hothers : Reads ds (.members j conditions) rest) :
      Reads ('(' :: cs) (.single (j.condition (c :: conditions))) rest
  | last (j : Junction) {cs rest : List Char} {c : Condition}
      (h : Reads cs (.single c) (')' :: rest)) : Reads cs (.members j [c]) rest
  | more (j : Junction) {cs ds rest : List Char} {c : Condition} {conditions : List Condition}
      (hfirst : Reads cs (.single c) (' ' :: (j.word.toList ++ ' ' :: ds)))
      (hothers : Reads ds (.members j conditions) rest) :
      Reads cs (.members j (c :: conditions)) rest

theorem comparison?_symbol (c : Comparison) : comparison? c.symbol.toList = some c := by
  cases c <;> decide

theorem not_mem_of_comparison? {operator : List Char} {c : Comparison}
    (h : comparison? operator = some c) : ' ' ∉ operator := by
  unfold comparison? at h
  split at h
  case h_7 => cases h
  all_goals decide

theorem TextOperator.not_mem_symbol (o : TextOperator) : ' ' ∉ o.symbol.toList := by
  cases o <;> decide

theorem Junction.not_mem_word (j : Junction) : ' ' ∉ j.word.toList := by
  cases j <;> decide

theorem TextOperator.symbol_inj {o q : TextOperator} (h : o.symbol.toList = q.symbol.toList) :
    o = q := by
  cases o <;> cases q <;> first | rfl | exact absurd h (by decide)

theorem Junction.word_inj {j k : Junction} (h : j.word.toList = k.word.toList) : j = k := by
  cases j <;> cases k <;> first | rfl | exact absurd h (by decide)

theorem TextOperator.text_inj {o q : TextOperator} {a b : String} {xs ys : List Char}
    (ha : ']' ∉ a.toList) (hb : ']' ∉ b.toList)
    (h : a.toList ++ ']' :: '"' :: ' ' :: (o.symbol.toList ++ ' ' :: '"' :: xs) =
      b.toList ++ ']' :: '"' :: ' ' :: (q.symbol.toList ++ ' ' :: '"' :: ys)) :
    a = b ∧ o = q ∧ xs = ys := by
  obtain ⟨hname, h⟩ := (append_cons_inj ha hb).mp h
  simp only [List.cons.injEq, true_and] at h
  obtain ⟨hsymbol, h⟩ := (append_cons_inj o.not_mem_symbol q.not_mem_symbol).mp h
  exact ⟨String.toList_inj.mp hname, symbol_inj hsymbol, (List.cons.inj h).2⟩

theorem number_inj {c d : Comparison} {operator operator' : List Char} {a b : String}
    {xs ys : List Char} (ha : ']' ∉ a.toList) (hb : ']' ∉ b.toList)
    (hc : comparison? operator = some c) (hd : comparison? operator' = some d)
    (h : a.toList ++ ']' :: ' ' :: (operator ++ ' ' :: xs) =
      b.toList ++ ']' :: ' ' :: (operator' ++ ' ' :: ys)) :
    a = b ∧ c = d ∧ xs = ys := by
  obtain ⟨hname, h⟩ := (append_cons_inj ha hb).mp h
  simp only [List.cons.injEq, true_and] at h
  obtain ⟨rfl, hrest⟩ :=
    (append_cons_inj (not_mem_of_comparison? hc) (not_mem_of_comparison? hd)).mp h
  exact ⟨String.toList_inj.mp hname, Option.some.inj (hc.symm.trans hd), hrest⟩

theorem Junction.behind_inj {j k : Junction} {xs ys : List Char}
    (h : ' ' :: (j.word.toList ++ ' ' :: xs) = ' ' :: (k.word.toList ++ ' ' :: ys)) :
    j = k ∧ xs = ys := by
  obtain ⟨hword, h⟩ := (append_cons_inj j.not_mem_word k.not_mem_word).mp (List.cons.inj h).2
  exact ⟨word_inj hword, h⟩

theorem Reads.exists_cons {cs rest : List Char} {p : Phrase} (h : Reads cs p rest) :
    ∃ ds, cs = '(' :: ds := by
  induction h with
  | last j h ih => exact ih
  | more j hfirst hothers ih => exact ih
  | _ => exact ⟨_, rfl⟩

theorem Reads.unique {cs cs' rest rest' : List Char} {p q : Phrase} (h : Reads cs p rest)
    (h' : Reads cs' q rest') (hcs : cs = cs') (hkind : p.junction? = q.junction?) :
    p = q ∧ rest = rest' := by
  -- A condition and a list of members may begin alike; `hkind` says which of the two is read.
  induction h generalizing cs' q rest' with
  | @text o acronym vs value rest hquote hbracket hvalue =>
    cases h' with
    | @text o' acronym' vs' value' _ hquote' hbracket' hvalue' =>
      simp only [List.cons.injEq, true_and] at hcs
      obtain ⟨rfl, rfl, rfl⟩ := TextOperator.text_inj hbracket hbracket' hcs
      rw [hvalue'] at hvalue
      cases hvalue
      exact ⟨rfl, rfl⟩
    | group j hfirst hothers =>
      obtain ⟨ds, rfl⟩ := hfirst.exists_cons
      simp at hcs
    | number | negation => simp at hcs
    | last | more => cases hkind
  | @number c acronym operator digits rest value hbracket hoperator hparenthesis hvalue =>
    cases h' with
    | @number c' acronym' operator' digits' _ value' hbracket' hoperator' hparenthesis' hvalue' =>
      simp only [List.cons.injEq, true_and] at hcs
      obtain ⟨rfl, rfl, htail⟩ := number_inj hbracket hbracket' hoperator hoperator' hcs
      obtain ⟨rfl, rfl⟩ := (append_cons_inj hparenthesis hparenthesis').mp htail
      rw [hvalue'] at hvalue
      cases hvalue
      exact ⟨rfl, rfl⟩
    | group j hfirst hothers =>
      obtain ⟨ds, rfl⟩ := hfirst.exists_cons
      simp at hcs
    | text | negation => simp at hcs
    | last | more => cases hkind
  | negation h ih =>
    cases h' with
    | negation h' =>
      simp only [List.cons.injEq, true_and] at hcs
      obtain ⟨hsame, hrest⟩ := ih h' hcs rfl
      cases hsame
      cases hrest
      exact ⟨rfl, rfl⟩
    | group j hfirst hothers =>
      obtain ⟨ds, rfl⟩ := hfirst.exists_cons
      simp at hcs
    | text | number => simp at hcs
    | last | more => cases hkind
  | group j hfirst hothers ihfirst ihothers =>
    obtain ⟨ds, rfl⟩ := hfirst.exists_cons
    cases h' with
    | group j' hfirst' hothers' =>
      simp only [List.cons.injEq, true_and] at hcs
      obtain ⟨hsame, hrest⟩ := ihfirst hfirst' hcs rfl
      cases hsame
      obtain ⟨rfl, htail⟩ := Junction.behind_inj hrest
      obtain ⟨hsame, hrest⟩ := ihothers hothers' htail rfl
      cases hsame
      cases hrest
      exact ⟨rfl, rfl⟩
    | text | number | negation => simp at hcs
    | last | more => cases hkind
  | last j h ih =>
    cases h' with
    | last j' h' =>
      cases hkind
      obtain ⟨hsame, hrest⟩ := ih h' hcs rfl
      cases hsame
      cases hrest
      exact ⟨rfl, rfl⟩
    | more j' hfirst' hothers' =>
      obtain ⟨-, hrest⟩ := ih hfirst' hcs rfl
      simp at hrest
    | _ => cases hkind
  | more j hfirst hothers ihfirst ihothers =>
    cases h' with
    | last j' h' =>
      obtain ⟨-, hrest⟩ := ihfirst h' hcs rfl
      simp at hrest
    | more j' hfirst' hothers' =>
      cases hkind
      obtain ⟨hsame, hrest⟩ := ihfirst hfirst' hcs rfl
      cases hsame
      obtain ⟨hsame, hrest⟩ := ihothers hothers' (Junction.behind_inj hrest).2 rfl
      cases hsame
      cases hrest
      exact ⟨rfl, rfl⟩
    | _ => cases hkind

def isPlainName (acronym : String) : Bool :=
  !acronym.toList.contains '"' && !acronym.toList.contains ']'

def isClosedText (value : String) : Bool :=
  value.toList.getLast? ≠ some '\\'

mutual

def isLegible : Condition → Bool
  | .isSet a => isPlainName a
  | .isUnset a => isPlainName a
  | .equals a v => isPlainName a && isClosedText v
  | .compares a _ _ => isPlainName a
  | .fits a p => isPlainName a && isClosedText p
  | .conj cs => areLegible cs
  | .disj cs => areLegible cs
  | .neg c => isLegible c

def areLegible : List Condition → Bool
  | [] => true
  | c :: cs => isLegible c && areLegible cs

end

mutual

def numbers : Condition → List Binary64
  | .compares _ _ value => [value]
  | .conj cs => allNumbers cs
  | .disj cs => allNumbers cs
  | .neg c => numbers c
  | _ => []

def allNumbers : List Condition → List Binary64
  | [] => []
  | c :: cs => numbers c ++ allNumbers cs

end

def grouped (j : Junction) : List Condition → Condition
  | [c] => c
  | cs => j.condition cs

mutual

def reread : Condition → Condition
  | .isSet a => .neg (.equals a "")
  | .isUnset a => .equals a ""
  | .conj cs => grouped .all (rereadAll cs)
  | .disj cs => grouped .any (rereadAll cs)
  | .neg c => .neg (reread c)
  | c => c

def rereadAll : List Condition → List Condition
  | [] => []
  | c :: cs => if c.isTrivial then rereadAll cs else reread c :: rereadAll cs

end

theorem holds_grouped_all (f : Attributes) (cs : List Condition) :
    (grouped .all cs).holds f = cs.all (holds f) := by
  unfold grouped
  split
  · simp
  · simp only [Junction.condition, holds, allHold_eq]

theorem holds_grouped_any (f : Attributes) (cs : List Condition) :
    (grouped .any cs).holds f = cs.any (holds f) := by
  unfold grouped
  split
  · simp
  · simp only [Junction.condition, holds, anyHolds_eq]

mutual

theorem holds_reread (f : Attributes) :
    ∀ c : Condition, c.isSolid = true → c.reread.holds f = c.holds f
  | .isSet a, _ => by simp [reread, holds]
  | .isUnset a, _ => by simp [reread, holds]
  | .equals _ _, _ => rfl
  | .compares _ _ _, _ => rfl
  | .fits _ _, _ => rfl
  | .conj cs, h => by
    simp only [reread, holds_grouped_all, holds]
    exact all_holds_rereadAll f cs h
  | .disj cs, h => by
    simp only [isSolid, Bool.and_eq_true] at h
    simp only [reread, holds_grouped_any, holds]
    exact any_holds_rereadAll f cs h.1.2 h.2
  | .neg c, h => by
    simp only [isSolid, Bool.and_eq_true] at h
    simp only [reread, holds, holds_reread f c h.2]

theorem all_holds_rereadAll (f : Attributes) :
    ∀ cs : List Condition, areSolid cs = true → (rereadAll cs).all (holds f) = allHold f cs
  | [], _ => rfl
  | c :: cs, h => by
    simp only [areSolid, Bool.and_eq_true] at h
    have hothers := all_holds_rereadAll f cs h.2
    cases htrivial : c.isTrivial with
    | true => simp [rereadAll, htrivial, allHold, holds_of_isTrivial f c htrivial, hothers]
    | false => simp [rereadAll, htrivial, allHold, holds_reread f c h.1, hothers]

theorem any_holds_rereadAll (f : Attributes) :
    ∀ cs : List Condition, cs.all (fun c => !c.isTrivial) = true → areSolid cs = true →
      (rereadAll cs).any (holds f) = anyHolds f cs
  | [], _, _ => rfl
  | c :: cs, htrivial, h => by
    simp only [List.all_cons, Bool.and_eq_true, Bool.not_eq_true'] at htrivial
    simp only [areSolid, Bool.and_eq_true] at h
    have hothers := any_holds_rereadAll f cs htrivial.2 h.2
    simp [rereadAll, htrivial.1, anyHolds, holds_reread f c h.1, hothers]

end

theorem plainName_iff (acronym : String) :
    isPlainName acronym = true ↔ '"' ∉ acronym.toList ∧ ']' ∉ acronym.toList := by
  simp [isPlainName]

theorem reads_textComparison (o : TextOperator) {acronym value : String}
    (hname : isPlainName acronym = true) (hvalue : isClosedText value = true) (rest : List Char) :
    Reads ((textComparison acronym o.symbol value).toList ++ rest)
      (.single (o.condition acronym value)) rest := by
  obtain ⟨hquote, hbracket⟩ := (plainName_iff acronym).mp hname
  have hquoted := Text.readQuoted_escape (d := '"') (by decide) (of_decide_eq_true hvalue)
    (')' :: rest)
  have htext := Reads.text o hquote hbracket hquoted
  rw [String.ofList_toList] at htext
  convert htext using 1
  simp [textComparison, substituted, Text.doubleQuoted]

theorem reads_number (c : Comparison) {acronym : String} {value : Binary64}
    (hname : isPlainName acronym = true) (hvalue : Binary64.read value.text = some value)
    (rest : List Char) :
    Reads ((expression (.compares acronym c value)).toList ++ rest)
      (.single (.compares acronym c value)) rest := by
  have hread : Binary64.read (String.ofList value.text.toList) = some value := by
    rwa [String.ofList_toList]
  have hnumber : Reads _ _ rest :=
    Reads.number ((plainName_iff acronym).mp hname).2 (comparison?_symbol c)
      value.parenthesis_not_mem_text hread
  convert hnumber using 1
  simp [expression, substituted]

def ReadsAs (text : String) (c : Condition) : Prop :=
  ∀ rest, Reads (text.toList ++ rest) (.single c) rest

theorem reads_negation {text : String} {c : Condition} (h : ReadsAs text c) :
    ReadsAs ("(NOT " ++ text ++ ")") (.neg c) := by
  intro rest
  convert Reads.negation (h (')' :: rest)) using 1
  simp

theorem reads_members (j : Junction) {texts : List String} {conditions : List Condition}
    (h : List.Forall₂ ReadsAs texts conditions) (hne : texts ≠ []) (rest : List Char) :
    Reads ((String.intercalate (" " ++ j.word ++ " ") texts).toList ++ ')' :: rest)
      (.members j conditions) rest := by
  induction h with
  | nil => exact absurd rfl hne
  | @cons t c texts conditions hfirst hothers ih =>
    cases hothers with
    | nil =>
      convert Reads.last j (hfirst (')' :: rest)) using 1
      simp
    | @cons t' c' texts conditions hsecond hothers =>
      have hmore := ih (List.cons_ne_nil _ _)
      convert Reads.more j (hfirst _) hmore using 1
      simp

theorem reads_joined (j : Junction) {texts : List String} {conditions : List Condition}
    (h : List.Forall₂ ReadsAs texts conditions) (hne : texts ≠ []) :
    ReadsAs (joined j.word texts) (grouped j conditions) := by
  intro rest
  cases h with
  | nil => exact absurd rfl hne
  | @cons t c texts conditions hfirst hothers =>
    cases hothers with
    | nil => exact hfirst rest
    | @cons t' c' texts conditions hsecond hothers =>
      have hmore := reads_members j (.cons hsecond hothers) (List.cons_ne_nil _ _) rest
      convert Reads.group j (hfirst _) hmore using 1
      · simp [joined]
      · rfl

def AreReadBack (numbers : List Binary64) : Prop :=
  ∀ value ∈ numbers, Binary64.read value.text = some value

instance (numbers : List Binary64) : Decidable (AreReadBack numbers) :=
  inferInstanceAs (Decidable (∀ value ∈ numbers, Binary64.read value.text = some value))

theorem expressions_ne_nil {cs : List Condition} (h : areTrivial cs = false) :
    expressions cs ≠ [] := by
  rw [areTrivial_eq, List.all_eq_false] at h
  obtain ⟨c, hc, htrivial⟩ := h
  rw [expressions_eq]
  apply List.ne_nil_of_mem
  exact List.mem_map.mpr ⟨c, List.mem_filter.mpr ⟨hc, by simpa using htrivial⟩, rfl⟩

theorem areTrivial_of_isSolid {cs : List Condition} (h : (disj cs).isSolid = true) :
    areTrivial cs = false := by
  simp only [isSolid, Bool.and_eq_true, Bool.not_eq_true', List.isEmpty_eq_false_iff,
    List.all_eq_true] at h
  obtain ⟨c, hc⟩ := List.exists_mem_of_ne_nil cs h.1.1
  rw [areTrivial_eq, List.all_eq_false]
  exact ⟨c, hc, by simp [h.1.2 c hc]⟩

mutual

theorem reads_expression :
    ∀ c : Condition, c.isSolid = true → c.isLegible = true → AreReadBack c.numbers →
      c.isTrivial = false → ReadsAs c.expression c.reread
  | .isSet _, _, hname, _, _ => reads_textComparison .unequal hname rfl
  | .isUnset _, _, hname, _, _ => reads_textComparison .equal hname rfl
  | .equals _ _, _, hlegible, _, _ =>
    have h := Bool.and_eq_true_iff.mp hlegible
    reads_textComparison .equal h.1 h.2
  | .compares _ c v, _, hname, hnumbers, _ =>
    reads_number c hname (hnumbers v (List.mem_singleton_self v))
  | .fits _ _, _, hlegible, _, _ =>
    have h := Bool.and_eq_true_iff.mp hlegible
    reads_textComparison .fits h.1 h.2
  | .conj cs, hsolid, hlegible, hnumbers, htrivial =>
    reads_joined .all (reads_expressions cs hsolid hlegible hnumbers) (expressions_ne_nil htrivial)
  | .disj cs, hsolid, hlegible, hnumbers, _ =>
    have hmembers := (Bool.and_eq_true_iff.mp hsolid).2
    reads_joined .any (reads_expressions cs hmembers hlegible hnumbers)
      (expressions_ne_nil (areTrivial_of_isSolid hsolid))
  | .neg c, hsolid, hlegible, hnumbers, _ =>
    have h := Bool.and_eq_true_iff.mp hsolid
    reads_negation (reads_expression c h.2 hlegible hnumbers (by simpa using h.1))

theorem reads_expressions :
    ∀ cs : List Condition, areSolid cs = true → areLegible cs = true →
      AreReadBack (allNumbers cs) → List.Forall₂ ReadsAs (expressions cs) (rereadAll cs)
  | [], _, _, _ => .nil
  | c :: cs, hsolid, hlegible, hnumbers => by
    simp only [areSolid, areLegible, Bool.and_eq_true] at hsolid hlegible
    have hothers := reads_expressions cs hsolid.2 hlegible.2
      fun v hv => hnumbers v (List.mem_append_right _ hv)
    cases htrivial : c.isTrivial with
    | true => simpa only [expressions, rereadAll, htrivial, if_true] using hothers
    | false =>
      have hfirst := reads_expression c hsolid.1 hlegible.1
        (fun v hv => hnumbers v (List.mem_append_left _ hv)) htrivial
      simp only [expressions, rereadAll, htrivial, Bool.false_eq_true, if_false]
      exact .cons hfirst hothers

end

theorem expression_of_isTrivial {c : Condition} (h : c.isTrivial = true) : c.expression = "" := by
  cases c with
  | conj cs =>
    simp only [isTrivial, areTrivial_eq, List.all_eq_true] at h
    have hnone : expressions cs = [] := by
      rw [expressions_eq, List.map_eq_nil_iff, List.filter_eq_nil_iff]
      intro c hc
      simp [h c hc]
    rw [expression, hnone]
    rfl
  | _ => cases h

theorem expression_eq_empty_iff {c : Condition} (hsolid : c.isSolid = true)
    (hlegible : c.isLegible = true) (hnumbers : AreReadBack c.numbers) :
    c.expression = "" ↔ c.isTrivial = true := by
  refine ⟨?_, expression_of_isTrivial⟩
  intro hempty
  by_contra htrivial
  have hreads := reads_expression c hsolid hlegible hnumbers (Bool.not_eq_true _ ▸ htrivial) []
  obtain ⟨ds, hds⟩ := hreads.exists_cons
  simp [hempty] at hds

/--
A solid and legible condition has an empty expression just when it accepts everything. Any other
expression is read in one way, as a condition that says the same of every feature. All conditions of
a library are solid.
-/
theorem expression_reread {c : Condition} (hsolid : c.isSolid = true)
    (hlegible : c.isLegible = true) (hnumbers : AreReadBack c.numbers) :
    (c.expression = "" ↔ c.isTrivial = true) ∧
      (c.isTrivial = false →
        ∃ d, (∀ e, Reads c.expression.toList (.single e) [] ↔ e = d) ∧
          ∀ f : Attributes, d.holds f = c.holds f) ∧
      ∀ s text p log, Presentation.read s text = .ok (p, log) →
        ∀ g feature, ∀ r ∈ p.rules g feature, r.condition.isSolid = true := by
  refine ⟨expression_eq_empty_iff hsolid hlegible hnumbers, ?_, ?_⟩
  · intro htrivial
    have hreads := reads_expression c hsolid hlegible hnumbers htrivial []
    rw [List.append_nil] at hreads
    refine ⟨c.reread, ?_, fun f => holds_reread f c hsolid⟩
    intro e
    constructor
    · intro he
      obtain ⟨hsame, -⟩ := he.unique hreads rfl rfl
      cases hsame
      rfl
    · rintro rfl
      exact hreads
  · intro s text p log hread g feature r hr
    unfold Presentation.read at hread
    cases hroot : Presentation.readRoot text with
    | error cause =>
      rw [hroot] at hread
      cases hread
    | ok root =>
      rw [hroot] at hread
      cases hread
      exact List.all_eq_true.mp (Presentation.isSolid_rules s root g feature) r hr

def perplexing : Condition :=
  .conj [.always,
    .disj [.equals "OBJNAM" "1\") AND (\\\"[B]", .compares "DRVAL1" .less (.ofFraction false 5 2)],
    .neg (.conj [.always, .fits "RESTRN" "(^|,)(7|8)(,|$)"])]

theorem expression_reread_perplexing :
    (perplexing.expression = "" ↔ perplexing.isTrivial = true) ∧
      (perplexing.isTrivial = false →
        ∃ d, (∀ e, Reads perplexing.expression.toList (.single e) [] ↔ e = d) ∧
          ∀ f : Attributes, d.holds f = perplexing.holds f) ∧
      ∀ s text p log, Presentation.read s text = .ok (p, log) →
        ∀ g feature, ∀ r ∈ p.rules g feature, r.condition.isSolid = true :=
  expression_reread (by decide) (by decide) (by decide +kernel)

end Condition

end SeaChart
