import Mathlib.Data.List.TakeWhile
import SeaChart.Instruction.Template

/-!
Label templates against a single scan from left to right, as `printf` reads a format: a doubled
percent sign is a percent sign, a conversion specification takes the next attribute, and everything
else is copied. The label agrees with it unless a specification begins with the second sign of a
doubled one or an attribute in use has a doubled percent sign itself.
-/

namespace SeaChart

open Text

section Pairs

variable {d : Char}

theorem mergePairs_cons_of_ne {c : Char} (h : c ≠ d) (cs : List Char) :
    mergePairs d (c :: cs) = c :: mergePairs d cs :=
  mergePairs_append_cons h [] cs

theorem mergePairs_append_of_notMem {xs : List Char} (h : d ∉ xs) (ys : List Char) :
    mergePairs d (xs ++ ys) = xs ++ mergePairs d ys := by
  induction xs with
  | nil => rfl
  | cons x xs ih =>
    have hx := (List.ne_of_not_mem_cons h).symm
    rw [List.cons_append, mergePairs_cons_of_ne hx, ih (List.not_mem_of_not_mem_cons h),
      List.cons_append]

theorem mergePairs_cons_cons {c : Char} (h : c ≠ d) (cs : List Char) :
    mergePairs d (d :: c :: cs) = d :: mergePairs d (c :: cs) := by
  simp [mergePairs, h]

theorem length_mergePairs_cons_le (d c : Char) (cs : List Char) :
    (mergePairs d (c :: cs)).length ≤ (mergePairs d cs).length + 1 := by
  by_cases hc : c = d
  · subst hc
    fun_induction mergePairs c cs with
    | case1 => simp [mergePairs]
    | case2 b => by_cases hb : b = c <;> simp [mergePairs, hb]
    | case3 a b cs hpair ih =>
      rw [mergePairs, if_pos ⟨rfl, hpair.1⟩, hpair.2]
      simpa using ih
    | case4 a b cs hpair ih =>
      by_cases ha : a = c
      · subst ha
        simp [mergePairs]
      · simp [mergePairs, ha]
  · simp [mergePairs_cons_of_ne hc]

def leadingCount (d : Char) (cs : List Char) : Nat :=
  (cs.takeWhile (· = d)).length

theorem leadingCount_mergePairs_le {e : Char} (he : e ≠ d) (xs us vs : List Char) :
    leadingCount d (mergePairs d xs ++ e :: us) ≤ leadingCount d (xs ++ e :: vs) := by
  fun_induction mergePairs d xs with
  | case1 => simp [leadingCount, he]
  | case2 c => by_cases hc : c = d <;> simp [leadingCount, hc, he]
  | case3 a b cs hpair ih =>
    simp only [leadingCount, hpair.1, hpair.2, List.cons_append, List.takeWhile_cons, decide_true,
      if_true, List.length_cons] at ih ⊢
    omega
  | case4 a b cs hpair ih =>
    by_cases ha : a = d
    · simp only [leadingCount, ha, List.cons_append, List.takeWhile_cons, decide_true, if_true,
        List.length_cons] at ih ⊢
      omega
    · simp [leadingCount, ha]

theorem mergePairs_append_cons_eq_iff {e : Char} (he : e ≠ d) (xs us vs : List Char) :
    mergePairs d xs ++ e :: us = xs ++ e :: vs ↔ ¬[d, d] <:+: xs ∧ us = vs := by
  fun_induction mergePairs d xs with
  | case1 => simp
  | case2 c =>
    have hshort : ¬[d, d] <:+: [c] := fun h => absurd h.length_le (by simp)
    simp [hshort]
  | case3 a b cs hpair ih =>
    obtain ⟨rfl, rfl⟩ := hpair
    have hpair : [b, b] <:+: b :: b :: cs := (List.prefix_append [b, b] cs).isInfix
    simp only [hpair, not_true_eq_false, false_and, iff_false]
    intro h
    have hle := leadingCount_mergePairs_le he cs us vs
    simp only [List.cons_append, List.cons.injEq, true_and] at h
    rw [h] at hle
    simp only [leadingCount, List.takeWhile_cons, decide_true, if_true, List.length_cons] at hle
    omega
  | case4 a b cs hpair ih =>
    have hpairs : [d, d] <:+: a :: b :: cs ↔ [d, d] <:+: b :: cs := by
      rw [List.infix_cons_iff]
      simp only [or_iff_right_iff_imp, List.cons_prefix_cons]
      rintro ⟨rfl, rfl, -⟩
      exact absurd ⟨rfl, rfl⟩ hpair
    rw [hpairs, ← ih]
    simp

end Pairs

structure Specification where
  flags : List Char
  width : List Char
  precision : List Char
  size : List Char
  letter : Char
  areFlags : ∀ c ∈ flags, c ∈ ['-', '+', ' ', '#', '0']
  areDigits : ∀ c ∈ width, isDigit c = true
  isPrecision : precision = [] ∨
    ∃ c cs, precision = '.' :: c :: cs ∧ ∀ x ∈ c :: cs, isDigit x = true
  isSize : size = [] ∨ size = ['l'] ∨ size = ['h']
  isLetter : letter ∈ ['s', 'd', 'i', 'f', 'c', 'x', 'e', 'g']

namespace Specification

def chars (s : Specification) : List Char :=
  s.flags ++ s.width ++ s.precision ++ s.size ++ [s.letter]

theorem isFlag_iff (c : Char) : isFlag c = true ↔ c ∈ ['-', '+', ' ', '#', '0'] := by
  simp [isFlag, or_assoc]

theorem isConversion_iff (c : Char) :
    isConversion c = true ↔ c ∈ ['s', 'd', 'i', 'f', 'c', 'x', 'e', 'g'] := by
  simp [isConversion]

theorem dropWhile_append_cons {p : Char → Bool} {xs : List Char} {c : Char} (hc : p c = false)
    (cs : List Char) : (xs ++ c :: cs).dropWhile p = xs.dropWhile p ++ c :: cs := by
  induction xs with
  | nil => simp [hc]
  | cons x xs ih => cases hx : p x <;> simp [hx, ih]

theorem dropPrecision_append_cons {precision : List Char} (h : precision = [] ∨
    ∃ c cs, precision = '.' :: c :: cs ∧ ∀ x ∈ c :: cs, isDigit x = true) {d : Char}
    (hd : isDigit d = false) (hpoint : d ≠ '.') (ds : List Char) :
    dropPrecision (precision ++ d :: ds) = d :: ds := by
  rcases h with rfl | ⟨c, cs, rfl, hdigits⟩
  · rw [List.nil_append, dropPrecision]
    rintro c cs heq
    exact absurd (List.cons.inj heq).1 hpoint
  · obtain ⟨hc, hcs⟩ := List.forall_mem_cons.mp hdigits
    rw [List.cons_append, List.cons_append, dropPrecision, if_pos hc, dropWhile_append_cons hd,
      List.dropWhile_eq_nil_iff.mpr hcs, List.nil_append]

theorem dropSize_append_cons {size : List Char} (h : size = [] ∨ size = ['l'] ∨ size = ['h'])
    {d : Char} (hd : isConversion d = true) (ds : List Char) :
    dropSize (size ++ d :: ds) = d :: ds := by
  rcases h with rfl | rfl | rfl
  · rw [List.nil_append, dropSize]
    · rintro cs heq
      rw [(List.cons.inj heq).1] at hd
      cases hd
    · rintro cs heq
      rw [(List.cons.inj heq).1] at hd
      cases hd
  · rfl
  · rfl

theorem afterSpecification_append (s : Specification) (rest : List Char) :
    afterSpecification (s.chars ++ rest) = some rest := by
  have hletter : isConversion s.letter = true := (isConversion_iff _).mpr s.isLetter
  have hall : ∀ c ∈ ['s', 'd', 'i', 'f', 'c', 'x', 'e', 'g'],
      isFlag c = false ∧ isDigit c = false ∧ c ≠ '.' := by
    simp only [List.forall_mem_cons, List.not_mem_nil, false_implies, implies_true, and_true]
    decide
  obtain ⟨hflag, hdigit, hpoint⟩ := hall s.letter s.isLetter
  obtain ⟨d, ds, hsize, hd⟩ : ∃ d ds, s.size ++ s.letter :: rest = d :: ds ∧
      isFlag d = false ∧ isDigit d = false ∧ d ≠ '.' := by
    rcases s.isSize with h | h | h
    · exact ⟨s.letter, rest, by rw [h]; rfl, hflag, hdigit, hpoint⟩
    · exact ⟨'l', s.letter :: rest, by rw [h]; rfl, by decide⟩
    · exact ⟨'h', s.letter :: rest, by rw [h]; rfl, by decide⟩
  obtain ⟨e, es, hprecision, he⟩ : ∃ e es, s.precision ++ d :: ds = e :: es ∧
      isFlag e = false ∧ isDigit e = false := by
    rcases s.isPrecision with h | ⟨c, cs, h, -⟩
    · exact ⟨d, ds, by rw [h]; rfl, hd.1, hd.2.1⟩
    · exact ⟨'.', c :: cs ++ d :: ds, by rw [h]; rfl, by decide⟩
  have hwidth : ∀ c ∈ s.width.dropWhile isFlag, isDigit c = true :=
    fun c hc => s.areDigits c ((List.dropWhile_suffix isFlag).subset hc)
  have hchars : s.chars ++ rest = s.flags ++ (s.width ++ e :: es) := by
    rw [← hprecision, ← hsize]
    simp [chars]
  have hdrop : ((s.chars ++ rest).dropWhile isFlag).dropWhile isDigit = e :: es := by
    rw [hchars, List.dropWhile_append_of_pos fun c hc => (isFlag_iff c).mpr (s.areFlags c hc),
      dropWhile_append_cons he.1, List.dropWhile_append_of_pos hwidth,
      List.dropWhile_cons_of_neg (by simp [he.2])]
  rw [afterSpecification, hdrop, ← hprecision,
    dropPrecision_append_cons s.isPrecision hd.2.1 hd.2.2, ← hsize,
    dropSize_append_cons s.isSize hletter]
  simp only [hletter, if_true]

theorem exists_dropPrecision (cs : List Char) :
    ∃ precision, cs = precision ++ dropPrecision cs ∧ (precision = [] ∨
      ∃ d ds, precision = '.' :: d :: ds ∧ ∀ x ∈ d :: ds, isDigit x = true) := by
  fun_cases dropPrecision cs with
  | case1 c cs hc =>
    refine ⟨'.' :: c :: cs.takeWhile isDigit, ?_, .inr ⟨c, cs.takeWhile isDigit, rfl, ?_⟩⟩
    · simp
    · exact List.forall_mem_cons.mpr ⟨hc, fun x hx => List.mem_takeWhile_imp hx⟩
  | case2 c cs hc => exact ⟨[], rfl, .inl rfl⟩
  | case3 cs h => exact ⟨[], rfl, .inl rfl⟩

theorem exists_dropSize (cs : List Char) :
    ∃ size, cs = size ++ dropSize cs ∧ (size = [] ∨ size = ['l'] ∨ size = ['h']) := by
  fun_cases dropSize cs with
  | case1 cs => exact ⟨['l'], rfl, .inr (.inl rfl)⟩
  | case2 cs => exact ⟨['h'], rfl, .inr (.inr rfl)⟩
  | case3 cs => exact ⟨[], rfl, .inl rfl⟩

theorem afterSpecification_eq_some_iff (cs rest : List Char) :
    afterSpecification cs = some rest ↔ ∃ s : Specification, cs = s.chars ++ rest := by
  constructor
  · intro h
    simp only [afterSpecification] at h
    split at h
    · next letter r hsize =>
      split at h
      · next hletter =>
        cases h
        obtain ⟨precision, hprecision, isPrecision⟩ :=
          exists_dropPrecision ((cs.dropWhile isFlag).dropWhile isDigit)
        obtain ⟨size, hletter', isSize⟩ :=
          exists_dropSize (dropPrecision ((cs.dropWhile isFlag).dropWhile isDigit))
        rw [hsize] at hletter'
        refine ⟨⟨cs.takeWhile isFlag, (cs.dropWhile isFlag).takeWhile isDigit, precision, size,
          letter, fun c hc => (isFlag_iff c).mp (List.mem_takeWhile_imp hc),
          fun c hc => List.mem_takeWhile_imp hc, isPrecision, isSize,
          (isConversion_iff letter).mp hletter⟩, ?_⟩
        calc
          cs = cs.takeWhile isFlag ++ ((cs.dropWhile isFlag).takeWhile isDigit ++
              (cs.dropWhile isFlag).dropWhile isDigit) := by simp
          _ = _ := by
            rw [hprecision, hletter']
            simp [chars]
      · cases h
    · cases h
  · rintro ⟨s, rfl⟩
    exact s.afterSpecification_append rest

theorem ne_of_mem_chars (s : Specification) {c : Char} (h : c ∈ s.chars) : c ≠ '%' ∧ c ≠ '[' := by
  have hflags : ∀ c ∈ ['-', '+', ' ', '#', '0'], c ≠ '%' ∧ c ≠ '[' := by simp
  have hdigit {c : Char} (hc : isDigit c = true) : c ≠ '%' ∧ c ≠ '[' := by
    constructor
    · rintro rfl
      cases hc
    · rintro rfl
      cases hc
  have hletters : ∀ c ∈ ['s', 'd', 'i', 'f', 'c', 'x', 'e', 'g'], c ≠ '%' ∧ c ≠ '[' := by simp
  simp only [chars, List.mem_append, List.mem_singleton] at h
  rcases h with (((h | h) | h) | h) | rfl
  · exact hflags c (s.areFlags c h)
  · exact hdigit (s.areDigits c h)
  · rcases s.isPrecision with hnone | ⟨d, ds, hsome, hdigits⟩
    · rw [hnone] at h
      cases h
    · rw [hsome] at h
      rcases List.mem_cons.mp h with rfl | h
      · decide
      · exact hdigit (hdigits c h)
  · rcases s.isSize with hsize | hsize | hsize
    · rw [hsize] at h
      cases h
    · rw [hsize] at h
      rw [List.mem_singleton.mp h]
      decide
    · rw [hsize] at h
      rw [List.mem_singleton.mp h]
      decide
  · exact hletters s.letter s.isLetter

theorem percent_notMem_chars (s : Specification) : '%' ∉ s.chars :=
  fun h => (s.ne_of_mem_chars h).1 rfl

theorem exists_chars_cons (s : Specification) :
    ∃ c cs, s.chars = c :: cs ∧ c ≠ '%' ∧ c ≠ '[' := by
  cases hchars : s.chars with
  | nil => simp [chars] at hchars
  | cons c cs => exact ⟨c, cs, rfl, s.ne_of_mem_chars (hchars ▸ List.mem_cons_self)⟩

theorem chars_append_ne (s : Specification) (rest cs : List Char) :
    s.chars ++ rest ≠ '%' :: cs := by
  obtain ⟨c, ds, hchars, hc, -⟩ := s.exists_chars_cons
  rw [hchars]
  exact fun h => hc (List.cons.inj h).1

theorem eq_of_chars_append_eq {s t : Specification} {rest rest' : List Char}
    (h : s.chars ++ rest = t.chars ++ rest') : rest = rest' := by
  have hs := s.afterSpecification_append rest
  rw [h, t.afterSpecification_append rest'] at hs
  exact (Option.some.inj hs).symm

end Specification

def StartsSpecification (cs : List Char) : Prop :=
  ∃ (s : Specification) (rest : List Char), cs = s.chars ++ rest

theorem afterSpecification_eq_none_iff (cs : List Char) :
    afterSpecification cs = none ↔ ¬StartsSpecification cs := by
  rw [Option.eq_none_iff_forall_ne_some]
  simp only [ne_eq, Specification.afterSpecification_eq_some_iff, StartsSpecification]
  rw [exists_comm]
  exact not_exists.symm

/--
One scan of a format. It ends with the number of specifications that it met and the words that it
put together.
-/
inductive Scanned : List String → List Char → Nat → List Char → Prop
  | nil (acronyms : List String) : Scanned acronyms [] 0 []
  | percent {acronyms : List String} {cs words : List Char} {n : Nat}
      (h : Scanned acronyms cs n words) :
    Scanned acronyms ('%' :: '%' :: cs) n ('%' :: words)
  | filled (a : String) (s : Specification) {acronyms : List String} {rest words : List Char}
      {n : Nat} (h : Scanned acronyms rest n words) :
    Scanned (a :: acronyms) ('%' :: (s.chars ++ rest)) (n + 1)
      ('[' :: (a.toList ++ ']' :: words))
  | usedUp (s : Specification) {rest words : List Char} {n : Nat} (h : Scanned [] rest n words) :
    Scanned [] ('%' :: (s.chars ++ rest)) (n + 1) words
  | copy {c : Char} {acronyms : List String} {cs words : List Char} {n : Nat}
      (hc : c = '%' → cs.head? ≠ some '%' ∧ ¬StartsSpecification cs)
      (h : Scanned acronyms cs n words) :
    Scanned acronyms (c :: cs) n (c :: words)

namespace Scanned

variable {acronyms : List String} {cs words : List Char} {n : Nat}

theorem functional {m : Nat} {others : List Char} (h : Scanned acronyms cs n words)
    (h' : Scanned acronyms cs m others) : m = n ∧ others = words := by
  -- The input is generalized in each case because it is no constructor applied to variables.
  induction h generalizing m others with
  | nil acronyms =>
    cases h'
    exact ⟨rfl, rfl⟩
  | @percent acronyms cs words n h ih =>
    generalize hinput : '%' :: '%' :: cs = input at h'
    cases h' with
    | nil => cases hinput
    | percent h' =>
      cases hinput
      obtain ⟨rfl, rfl⟩ := ih h'
      exact ⟨rfl, rfl⟩
    | filled a s h' => exact absurd (List.cons.inj hinput).2.symm (s.chars_append_ne _ _)
    | usedUp s h' => exact absurd (List.cons.inj hinput).2.symm (s.chars_append_ne _ _)
    | copy hc h' =>
      cases hinput
      exact absurd rfl (hc rfl).1
  | @filled a s acronyms rest words n h ih =>
    generalize hinput : '%' :: (s.chars ++ rest) = input at h'
    cases h' with
    | nil => cases hinput
    | percent h' => exact absurd (List.cons.inj hinput).2 (s.chars_append_ne _ _)
    | filled _ t h' =>
      cases Specification.eq_of_chars_append_eq (List.cons.inj hinput).2
      obtain ⟨rfl, rfl⟩ := ih h'
      exact ⟨rfl, rfl⟩
    | copy hc h' =>
      cases hinput
      exact absurd ⟨s, rest, rfl⟩ (hc rfl).2
  | @usedUp s rest words n h ih =>
    generalize hinput : '%' :: (s.chars ++ rest) = input at h'
    cases h' with
    | nil => cases hinput
    | percent h' => exact absurd (List.cons.inj hinput).2 (s.chars_append_ne _ _)
    | usedUp t h' =>
      cases Specification.eq_of_chars_append_eq (List.cons.inj hinput).2
      exact (ih h').imp (congrArg (· + 1)) id
    | copy hc h' =>
      cases hinput
      exact absurd ⟨s, rest, rfl⟩ (hc rfl).2
  | @copy c acronyms cs words n hc h ih =>
    generalize hinput : c :: cs = input at h'
    cases h' with
    | nil => cases hinput
    | percent h' =>
      cases hinput
      exact absurd rfl (hc rfl).1
    | filled a s h' =>
      cases hinput
      exact absurd ⟨s, _, rfl⟩ (hc rfl).2
    | usedUp s h' =>
      cases hinput
      exact absurd ⟨s, _, rfl⟩ (hc rfl).2
    | copy hc' h' =>
      cases hinput
      obtain ⟨rfl, rfl⟩ := ih h'
      exact ⟨rfl, rfl⟩

theorem exists_cons {c : Char} (h : Scanned acronyms (c :: cs) n words) (hc : c ≠ '%') :
    ∃ others, words = c :: others := by
  cases h with
  | percent h => exact absurd rfl hc
  | filled a s h => exact absurd rfl hc
  | usedUp s h => exact absurd rfl hc
  | copy _ h => exact ⟨_, rfl⟩

theorem exists_scanned (acronyms : List String) (cs : List Char) :
    ∃ n words, Scanned acronyms cs n words := by
  -- By length, since a specification is passed as a whole.
  induction hlength : cs.length using Nat.strongRecOn generalizing acronyms cs with
  | ind length ih =>
    subst hlength
    cases cs with
    | nil => exact ⟨0, [], .nil acronyms⟩
    | cons c cs =>
      by_cases hspec : c = '%' ∧ StartsSpecification cs
      · obtain ⟨rfl, s, rest, rfl⟩ := hspec
        have hshorter : rest.length < ('%' :: (s.chars ++ rest)).length := by
          simp only [List.length_cons, List.length_append]
          omega
        cases acronyms with
        | nil =>
          obtain ⟨n, words, h⟩ := ih _ hshorter [] rest rfl
          exact ⟨n + 1, words, .usedUp s h⟩
        | cons a acronyms =>
          obtain ⟨n, words, h⟩ := ih _ hshorter acronyms rest rfl
          exact ⟨n + 1, _, .filled a s h⟩
      by_cases hpair : c = '%' ∧ cs.head? = some '%'
      · obtain ⟨rfl, hhead⟩ := hpair
        obtain ⟨ds, rfl⟩ := List.head?_eq_some_iff.mp hhead
        have hless : ds.length < ('%' :: '%' :: ds).length := by
          simp only [List.length_cons]
          omega
        obtain ⟨n, words, h⟩ := ih ds.length hless acronyms ds rfl
        exact ⟨n, _, .percent h⟩
      · obtain ⟨n, words, h⟩ := ih cs.length (by simp) acronyms cs rfl
        exact ⟨n, _, .copy (fun hc => ⟨fun h => hpair ⟨hc, h⟩, fun h => hspec ⟨hc, h⟩⟩) h⟩

end Scanned

def HidesSpecification (format : List Char) : Prop :=
  ∃ (before : List Char) (n : Nat) (s : Specification) (rest : List Char),
    format = before ++ List.replicate (2 * n + 2) '%' ++ s.chars ++ rest ∧
      before.getLast? ≠ some '%'

section Hidden

theorem hidesSpecification_nil : ¬HidesSpecification [] := by
  rintro ⟨before, n, s, rest, h, -⟩
  simp at h

theorem replicate_pair_succ (n : Nat) : List.replicate (2 * (n + 1) + 2) '%' =
    '%' :: '%' :: List.replicate (2 * n + 2) '%' :=
  rfl

theorem hidesSpecification_percent (cs : List Char) :
    HidesSpecification ('%' :: '%' :: cs) ↔ HidesSpecification cs ∨ StartsSpecification cs := by
  constructor
  · rintro ⟨before, n, s, rest, h, hlast⟩
    rcases before with _ | ⟨b, _ | ⟨c, before⟩⟩
    · cases n with
      | zero => exact .inr ⟨s, rest, by simpa using h⟩
      | succ n =>
        refine .inl ⟨[], n, s, rest, ?_, by simp⟩
        rw [replicate_pair_succ] at h
        exact (List.cons.inj (List.cons.inj h).2).2
    · simp at h
      simp [← h.1] at hlast
    · simp only [List.cons_append, List.cons.injEq] at h
      obtain ⟨rfl, rfl, h⟩ := h
      refine .inl ⟨before, n, s, rest, by simpa using h, ?_⟩
      cases before with
      | nil => simp
      | cons d before => simpa using hlast
  · rintro (⟨before, n, s, rest, rfl, hlast⟩ | ⟨s, rest, rfl⟩)
    · cases before with
      | nil =>
        refine ⟨[], n + 1, s, rest, ?_, by simp⟩
        rw [replicate_pair_succ]
        rfl
      | cons b before =>
        exact ⟨'%' :: '%' :: b :: before, n, s, rest, by simp, by simpa using hlast⟩
    · exact ⟨[], 0, s, rest, by simp, by simp⟩

theorem hidesSpecification_cons {c : Char} {cs : List Char}
    (hc : c = '%' → cs.head? ≠ some '%') :
    HidesSpecification (c :: cs) ↔ HidesSpecification cs := by
  constructor
  · rintro ⟨before, n, s, rest, h, hlast⟩
    cases before with
    | nil =>
      rw [List.replicate_succ, List.replicate_succ] at h
      simp only [List.nil_append, List.cons_append, List.cons.injEq] at h
      exact absurd (by rw [h.2]; rfl) (hc h.1)
    | cons b before =>
      simp only [List.cons_append, List.cons.injEq] at h
      obtain ⟨rfl, rfl⟩ := h
      refine ⟨before, n, s, rest, rfl, ?_⟩
      cases before with
      | nil => simp
      | cons d before => simpa using hlast
  · rintro ⟨before, n, s, rest, rfl, hlast⟩
    refine ⟨c :: before, n, s, rest, by simp, ?_⟩
    cases before with
    | nil =>
      intro h
      have hpercent : c = '%' := by simpa using h
      refine hc hpercent ?_
      simp [List.replicate_succ]
    | cons d before => simpa using hlast

theorem hidesSpecification_chars (s : Specification) (rest : List Char) :
    HidesSpecification ('%' :: (s.chars ++ rest)) ↔ HidesSpecification rest := by
  have hchars : ∀ xs : List Char, '%' ∉ xs →
      (HidesSpecification (xs ++ rest) ↔ HidesSpecification rest) := by
    intro xs hxs
    induction xs with
    | nil => rfl
    | cons x xs ih =>
      have hx : x = '%' → (xs ++ rest).head? ≠ some '%' :=
        fun h => absurd h (List.ne_of_not_mem_cons hxs).symm
      rw [List.cons_append, hidesSpecification_cons hx, ih (List.not_mem_of_not_mem_cons hxs)]
  obtain ⟨c, cs, hcons, hc, -⟩ := s.exists_chars_cons
  have hhead : (s.chars ++ rest).head? ≠ some '%' := by simpa [hcons] using hc
  rw [hidesSpecification_cons fun _ => hhead, hchars s.chars s.percent_notMem_chars]

end Hidden

section Agreement

variable {acronyms : List String} {cs words : List Char} {n : Nat}

theorem substitute_cons_of_ne {c : Char} (hc : c ≠ '%') (acronyms : List String)
    (cs : List Char) : substitute acronyms (c :: cs) = c :: substitute acronyms cs := by
  rw [substitute, if_neg hc]

theorem substitute_percent_chars (acronyms : List String) (s : Specification) (rest : List Char) :
    substitute acronyms ('%' :: (s.chars ++ rest)) =
      nextSubstitution acronyms ++ substitute acronyms.tail rest := by
  rw [substitute, if_pos rfl]
  split
  · next r h =>
    rw [s.afterSpecification_append rest] at h
    rw [Option.some.inj h]
  · next h =>
    rw [s.afterSpecification_append rest] at h
    cases h

theorem substitute_percent_of_not_starts (h : ¬StartsSpecification cs) (acronyms : List String) :
    substitute acronyms ('%' :: cs) = '%' :: substitute acronyms cs := by
  have hnone := (afterSpecification_eq_none_iff cs).mpr h
  rw [substitute, if_pos rfl]
  split
  · next r hsome =>
    rw [hnone] at hsome
    cases hsome
  · rfl

theorem substitute_append_of_notMem {xs : List Char} (h : '%' ∉ xs) (acronyms : List String)
    (cs : List Char) : substitute acronyms (xs ++ cs) = xs ++ substitute acronyms cs := by
  induction xs with
  | nil => rfl
  | cons x xs ih =>
    have hx := (List.ne_of_not_mem_cons h).symm
    rw [List.cons_append, substitute_cons_of_ne hx, ih (List.not_mem_of_not_mem_cons h),
      List.cons_append]

theorem not_startsSpecification_percent (cs : List Char) : ¬StartsSpecification ('%' :: cs) := by
  rintro ⟨s, rest, h⟩
  exact s.chars_append_ne rest cs h.symm

theorem length_mergePairs_substitute_le (h : Scanned [] cs n words) :
    (mergePairs '%' (substitute [] cs)).length ≤ words.length := by
  generalize hnone : ([] : List String) = acronyms at h
  induction h with
  | nil acronyms => simp [substitute, mergePairs]
  | @percent acronyms cs words n h ih =>
    subst hnone
    have ih := ih rfl
    rw [substitute_percent_of_not_starts (not_startsSpecification_percent cs), List.length_cons]
    by_cases hstarts : StartsSpecification cs
    · obtain ⟨s, rest, rfl⟩ := hstarts
      rw [substitute_append_of_notMem s.percent_notMem_chars,
        mergePairs_append_of_notMem s.percent_notMem_chars, List.length_append] at ih
      rw [substitute_percent_chars]
      have hle := length_mergePairs_cons_le '%' '%' (substitute [] rest)
      simp only [nextSubstitution, List.nil_append, List.tail_nil]
      omega
    · rw [substitute_percent_of_not_starts hstarts]
      simpa [mergePairs] using ih
  | filled a s h ih => cases hnone
  | usedUp s h ih =>
    rw [substitute_percent_chars]
    exact ih rfl
  | @copy c acronyms cs words n hc h ih =>
    subst hnone
    have hcopied : substitute [] (c :: cs) = c :: substitute [] cs := by
      by_cases hpercent : c = '%'
      · rw [hpercent, substitute_percent_of_not_starts (hc hpercent).2]
      · exact substitute_cons_of_ne hpercent [] cs
    have hle := length_mergePairs_cons_le '%' c (substitute [] cs)
    have ih := ih rfl
    rw [hcopied, List.length_cons]
    omega

theorem mergePairs_substitute_ne (s : Specification) {rest : List Char}
    (h : Scanned acronyms (s.chars ++ rest) n words) :
    mergePairs '%' (substitute acronyms ('%' :: '%' :: (s.chars ++ rest))) ≠ '%' :: words := by
  rw [substitute_percent_of_not_starts (not_startsSpecification_percent _),
    substitute_percent_chars]
  -- Without a name too little is left; with one, a bracket stands in place of the specification.
  cases acronyms with
  | nil =>
    intro heq
    have hle := length_mergePairs_substitute_le h
    have hcons := length_mergePairs_cons_le '%' '%' (substitute [] rest)
    obtain ⟨c, cs, hchars, -⟩ := s.exists_chars_cons
    rw [substitute_append_of_notMem s.percent_notMem_chars,
      mergePairs_append_of_notMem s.percent_notMem_chars, List.length_append, hchars] at hle
    simp only [nextSubstitution, List.nil_append, List.tail_nil] at heq
    rw [heq] at hcons
    simp only [List.length_cons] at hle hcons
    omega
  | cons a acronyms =>
    obtain ⟨c, cs, hchars, hc, hbracket⟩ := s.exists_chars_cons
    rw [hchars, List.cons_append] at h
    obtain ⟨others, rfl⟩ := h.exists_cons hc
    simp only [nextSubstitution, List.cons_append]
    rw [mergePairs_cons_cons (by decide), mergePairs_cons_of_ne (by decide)]
    intro heq
    exact hbracket (List.cons.inj (List.cons.inj heq).2).1.symm

theorem mergePairs_substitute_iff (h : Scanned acronyms cs n words) :
    mergePairs '%' (substitute acronyms cs) = words ↔
      ¬HidesSpecification cs ∧ ∀ a ∈ acronyms.take n, ¬['%', '%'] <:+: a.toList := by
  induction h with
  | nil acronyms => simp [substitute, mergePairs, hidesSpecification_nil]
  | @percent acronyms cs words n h ih =>
    rw [hidesSpecification_percent]
    by_cases hstarts : StartsSpecification cs
    · obtain ⟨s, rest, rfl⟩ := hstarts
      simp [mergePairs_substitute_ne s h, show StartsSpecification (s.chars ++ rest) from
        ⟨s, rest, rfl⟩]
    · rw [substitute_percent_of_not_starts (not_startsSpecification_percent cs),
        substitute_percent_of_not_starts hstarts]
      simp [mergePairs, ih, hstarts]
  | @filled a s acronyms rest words n h ih =>
    have hwords : mergePairs '%' (substitute (a :: acronyms) ('%' :: (s.chars ++ rest))) =
        '[' :: (mergePairs '%' a.toList ++ ']' :: mergePairs '%' (substitute acronyms rest)) := by
      rw [substitute_percent_chars, nextSubstitution, List.cons_append,
        mergePairs_cons_of_ne (by decide), List.append_assoc, List.singleton_append,
        mergePairs_append_cons (by decide)]
      rfl
    rw [hwords, List.cons.injEq, hidesSpecification_chars,
      mergePairs_append_cons_eq_iff (by decide), ih, List.take_succ_cons, List.forall_mem_cons]
    simp only [true_and]
    exact and_left_comm
  | @usedUp s rest words n h ih =>
    rw [substitute_percent_chars, hidesSpecification_chars]
    simpa [nextSubstitution] using ih
  | @copy c acronyms cs words n hc h ih =>
    rw [hidesSpecification_cons fun heq => (hc heq).1, ← ih]
    by_cases hpercent : c = '%'
    · subst hpercent
      obtain ⟨hhead, hstarts⟩ := hc rfl
      rw [substitute_percent_of_not_starts hstarts]
      cases cs with
      | nil => simp [substitute, mergePairs]
      | cons d cs =>
        have hd : d ≠ '%' := by simpa using hhead
        rw [substitute_cons_of_ne hd, mergePairs_cons_cons hd, List.cons.injEq]
        simp
    · rw [substitute_cons_of_ne hpercent, mergePairs_cons_of_ne hpercent, List.cons.injEq]
      simp

end Agreement

/--
A template has one scan, whatever its format and attributes. Its label is that scan's words in
quotes just when no doubled percent sign hides a specification and none stands in an attribute that
the scan uses.
-/
theorem quoted_template_iff (format : String) (acronyms : List String) :
    ∃ n words, (∀ m others, Scanned acronyms format.toList m others ↔ m = n ∧ others = words) ∧
      ((Wording.template format acronyms).quoted = singleQuoted (String.ofList words) ↔
        ¬HidesSpecification format.toList ∧
          ∀ a ∈ acronyms.take n, ¬['%', '%'] <:+: a.toList) := by
  obtain ⟨n, words, h⟩ := Scanned.exists_scanned acronyms format.toList
  refine ⟨n, words, fun m others => ⟨h.functional, ?_⟩, ?_⟩
  · rintro ⟨rfl, rfl⟩
    exact h
  · rw [Wording.quoted, singleQuoted_inj, String.ofList_inj, Wording.body]
    exact mergePairs_substitute_iff h

theorem doubledPercent_takes_attribute :
    Scanned ["OBJNAM"] "100%% sure".toList 0 "100% sure".toList ∧
      (Wording.template "100%% sure" ["OBJNAM"]).quoted = "'100%[OBJNAM]ure'" ∧
      (Wording.template "100%% sure" ["OBJNAM"]).quoted ≠ singleQuoted "100% sure" := by
  have hcopy (c : Char) {cs words : List Char} (hc : c ≠ '%')
      (h : Scanned ["OBJNAM"] cs 0 words) : Scanned ["OBJNAM"] (c :: cs) 0 (c :: words) :=
    .copy (fun heq => absurd heq hc) h
  have hquoted : (Wording.template "100%% sure" ["OBJNAM"]).quoted = "'100%[OBJNAM]ure'" := by
    decide +kernel
  refine ⟨?_, hquoted, ?_⟩
  · apply hcopy '1' (by decide)
    apply hcopy '0' (by decide)
    apply hcopy '0' (by decide)
    apply Scanned.percent
    apply hcopy ' ' (by decide)
    apply hcopy 's' (by decide)
    apply hcopy 'u' (by decide)
    apply hcopy 'r' (by decide)
    apply hcopy 'e' (by decide)
    exact .nil _
  · rw [hquoted]
    decide

end SeaChart
