import Mathlib.Data.List.MinMax
import SeaChart.Condition.Meaning
import SeaChart.Mapfile.Layer

namespace SeaChart

variable {α : Type}

theorem find?_mergeSort_eq_argmax (key : α → ℕ) (p : α → Bool) (l : List α) :
    (l.mergeSort fun a b => key b ≤ key a).find? p = (l.filter p).argmax key := by
  let le (a b : α) : Bool := key b ≤ key a
  have trans : ∀ a b c, le a b → le b c → le a c := by
    simp only [le, decide_eq_true_eq]
    omega
  have total : ∀ a b, le a b || le b a := by
    simp only [le, Bool.or_eq_true, decide_eq_true_eq]
    omega
  change (l.mergeSort le).find? p = _
  -- The head goes behind all that are greater, and before the rest of its equals.
  induction l with
  | nil => simp
  | cons a l ih =>
    obtain ⟨l₁, l₂, hcons, hl, hbefore⟩ := List.mergeSort_cons trans total a l
    have hsorted := List.pairwise_mergeSort trans total (a :: l)
    rw [hcons, List.pairwise_append, List.pairwise_cons] at hsorted
    rw [hl, List.find?_append] at ih
    rw [hcons, List.find?_append, List.find?_cons]
    cases hp : p a with
    | false => rw [List.filter_cons_of_neg (by simp [hp]), ← ih]
    | true =>
      rw [List.filter_cons_of_pos hp, List.argmax_cons, ← ih]
      cases h₁ : l₁.find? p with
      | some c =>
        have hc := hbefore c (List.mem_of_find?_eq_some h₁)
        have hlt : key a < key c := by simpa [le] using hc
        simp [hlt]
      | none =>
        cases h₂ : l₂.find? p with
        | none => simp
        | some c =>
          have hc := hsorted.2.1.1 c (List.mem_of_find?_eq_some h₂)
          have hle : ¬key a < key c := by simpa [le] using hc
          simp [hle]

theorem argmax_of_head? {key : α → ℕ} {l : List α} {a : α} (hhead : l.head? = some a)
    (hmost : ∀ b ∈ l, key b ≤ key a) : l.argmax key = some a := by
  cases l with
  | nil => simp at hhead
  | cons b l =>
    cases hhead
    rw [List.argmax_cons]
    cases h : l.argmax key with
    | none => rfl
    | some c =>
      have hc := hmost c (List.mem_cons_of_mem a (List.argmax_mem h))
      simp [hc]

namespace Layer

variable {fields : Option (List String)} {f : Attributes}

def meets (fields : Option (List String)) (f : Attributes) (r : Rule) : Bool :=
  isApplicable fields r && r.condition.holds f

def drawnRule (fields : Option (List String)) (f : Attributes) (rules : List Rule) :
    Option Rule :=
  (classOrder fields rules).find? fun r => r.condition.holds f

theorem drawnRule_eq_argmax (rules : List Rule) :
    drawnRule fields f rules =
      (rules.filter (meets fields f)).argmax fun r => r.condition.count := by
  have hmeets : (fun r => r.condition.holds f && isApplicable fields r) = meets fields f :=
    funext fun r => Bool.and_comm _ _
  unfold drawnRule classOrder byCount
  rw [find?_mergeSort_eq_argmax, List.filter_filter, hmeets]

theorem drawnRule_cons_of_not_meets {r : Rule} (rules : List Rule)
    (hr : meets fields f r = false) : drawnRule fields f (r :: rules) = drawnRule fields f rules := by
  rw [drawnRule_eq_argmax, drawnRule_eq_argmax, List.filter_cons_of_neg (by simp [hr])]

theorem drawnRule_cons_of_meets {r s : Rule} {rules : List Rule} (hr : meets fields f r = true)
    (hs : drawnRule fields f rules = some s) :
    drawnRule fields f (r :: rules) =
      some (if r.condition.count < s.condition.count then s else r) := by
  rw [drawnRule_eq_argmax] at hs ⊢
  rw [List.filter_cons_of_pos hr, List.argmax_cons, hs]
  exact (apply_ite some _ _ _).symm

structure Prevails (fields : Option (List String)) (f : Attributes) (rules : List Rule)
    (r : Rule) : Prop where
  first : rules.find? (meets fields f) = some r
  most : ∀ s ∈ rules, meets fields f s = true → s.condition.count ≤ r.condition.count

theorem Prevails.drawnRule_eq {rules : List Rule} {r : Rule} (h : Prevails fields f rules r) :
    drawnRule fields f rules = some r := by
  rw [drawnRule_eq_argmax]
  apply argmax_of_head?
  · rw [List.head?_filter]
    exact h.first
  · intro s hs
    exact h.most s (List.mem_filter.mp hs).1 (List.mem_filter.mp hs).2

theorem Prevails.cons_of_not_meets {rules : List Rule} {r s : Rule}
    (h : Prevails fields f rules r) (hs : meets fields f s = false) :
    Prevails fields f (s :: rules) r := by
  refine ⟨by rw [List.find?_cons, hs, h.first], ?_⟩
  intro t ht hmet
  rcases List.mem_cons.mp ht with rfl | ht
  · simp [hs] at hmet
  · exact h.most t ht hmet

theorem prevails_cons {rules : List Rule} {r : Rule} (hr : meets fields f r = true)
    (hmost : ∀ s ∈ rules, meets fields f s = true → s.condition.count ≤ r.condition.count) :
    Prevails fields f (r :: rules) r := by
  refine ⟨by rw [List.find?_cons, hr], ?_⟩
  intro s hs hmet
  rcases List.mem_cons.mp hs with rfl | hs
  · exact le_refl _
  · exact hmost s hs hmet

theorem prevails_of_pairwise {rules : List Rule} {r : Rule}
    (hrules : rules.Pairwise fun r s => s.condition.count ≤ r.condition.count)
    (hfirst : rules.find? (meets fields f) = some r) : Prevails fields f rules r := by
  refine ⟨hfirst, ?_⟩
  obtain ⟨-, before, after, rfl, hbefore⟩ := List.find?_eq_some_iff_append.mp hfirst
  rw [List.pairwise_append, List.pairwise_cons] at hrules
  intro s hs hmet
  rcases List.mem_append.mp hs with hs | hs
  · have := hbefore s hs
    simp [hmet] at this
  · rcases List.mem_cons.mp hs with rfl | hs
    · exact le_refl _
    · exact hrules.2.1.1 s hs

end Layer

end SeaChart
