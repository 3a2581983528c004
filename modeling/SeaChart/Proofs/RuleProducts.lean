import SeaChart.Proofs.OrderedChoices

namespace SeaChart

namespace Condition

theorem both_pair (c d : Condition) : both [c, d] = .conj (c.members ++ d.members) := by
  simp [both]

theorem both_assoc (c d e : Condition) : both [both [c, d], e] = both [c, both [d, e]] := by
  simp only [both_pair, members, List.append_assoc]

end Condition

namespace Rule

def flattened (r : Rule) : Rule :=
  { r with condition := .conj r.condition.members }

theorem flattened_of_isConjunction {r : Rule} (h : r.condition.isConjunction = true) :
    r.flattened = r := by
  obtain ⟨id, table, display, comment, instructions, condition, priority⟩ := r
  cases condition with
  | conj cs => rfl
  | _ => cases h

theorem combine_assoc (a b c : Rule) : (a.combine b).combine c = a.combine (b.combine c) := by
  simp only [combine, preferLater_assoc, List.append_assoc, Condition.both_assoc, Option.or_assoc]

theorem empty_combine (r : Rule) : combine {} r = r.flattened := by
  simp [combine, flattened, empty_preferLater, Condition.both_pair, Condition.always,
    Condition.members]

theorem combine_empty (r : Rule) : r.combine {} = r.flattened := by
  simp [combine, flattened, preferLater_empty, Condition.both_pair, Condition.always,
    Condition.members]

theorem combine_instruction (r : Rule) (i : Instruction) :
    r.combine { instructions := [i] } = addInstruction i r.flattened := by
  rw [← combine_empty]
  simp [combine, addInstruction]

theorem product_nil (rules : List Rule) : product rules [] = rules := rfl

theorem product_ne_nil {rules alternatives : List Rule} (hrules : rules ≠ [])
    (halternatives : alternatives ≠ []) : product rules alternatives ≠ [] := by
  apply List.ne_nil_of_length_pos
  rw [length_product rules halternatives]
  exact Nat.mul_pos (List.length_pos_of_ne_nil hrules) (List.length_pos_of_ne_nil halternatives)

theorem product_singleton (rules : List Rule) (s : Rule) :
    product rules [s] = rules.map (·.combine s) := by
  rw [product_of_ne_nil rules (List.cons_ne_nil s []), List.map_eq_flatMap]
  rfl

theorem product_product (rules : List Rule) {alternatives : List Rule} (h : alternatives ≠ [])
    (others : List Rule) :
    product (product rules alternatives) others = product rules (product alternatives others) := by
  by_cases hothers : others = []
  · rw [hothers, product_nil, product_nil]
  · calc product (product rules alternatives) others
      _ = rules.flatMap fun r => (alternatives.map r.combine).flatMap fun s =>
            others.map s.combine := by
          rw [product_of_ne_nil _ hothers, product_of_ne_nil _ h, List.flatMap_assoc]
      _ = rules.flatMap fun r => (product alternatives others).map r.combine := by
          congr 1
          funext r
          rw [product_of_ne_nil _ hothers, List.flatMap_map, List.map_flatMap]
          congr 1
          funext s
          rw [List.map_map]
          apply List.map_congr_left
          intro t _
          exact combine_assoc r s t
      _ = product rules (product alternatives others) := by
          rw [product_of_ne_nil _ (product_ne_nil h hothers)]

example : (product (product [{}] []) [{}, {}]).length = 2 ∧
    (product [{}] (product [] [{}, {}])).length = 1 := by decide

theorem map_addInstruction {rules : List Rule}
    (h : ∀ r ∈ rules, r.condition.isConjunction = true) (i : Instruction) :
    rules.map (addInstruction i) = product rules [{ instructions := [i] }] := by
  rw [product_singleton]
  apply List.map_congr_left
  intro r hr
  rw [combine_instruction, flattened_of_isConjunction (h r hr)]

/--
Rules are combined associatively into a flat conjunction, and the empty rule only flattens the other
condition. Products may be regrouped around a list that is not empty and have one rule for each pair.
An instruction is put to conjunctions by the product with the rule that carries nothing else.
-/
theorem combine_product_laws :
    (∀ a b c : Rule, (a.combine b).combine c = a.combine (b.combine c) ∧
      ((a.combine b).combine c).condition =
        .conj (a.condition.members ++ b.condition.members ++ c.condition.members)) ∧
    (∀ r : Rule, combine {} r = { r with condition := .conj r.condition.members } ∧
      r.combine {} = { r with condition := .conj r.condition.members }) ∧
    ∀ rules : List Rule,
      (∀ alternatives others, alternatives ≠ [] →
        product (product rules alternatives) others =
          product rules (product alternatives others)) ∧
      (∀ alternatives, alternatives ≠ [] →
        (product rules alternatives).length = rules.length * alternatives.length) ∧
      product rules [] = rules ∧
      ∀ i : Instruction, (∀ r ∈ rules, r.condition.isConjunction = true) →
        rules.map (addInstruction i) = product rules [{ instructions := [i] }] := by
  refine ⟨?associative, ?neutral, ?product⟩
  case associative =>
    intro a b c
    refine ⟨combine_assoc a b c, ?_⟩
    simp only [combine, Condition.both_pair, Condition.members]
  case neutral =>
    intro r
    exact ⟨empty_combine r, combine_empty r⟩
  case product =>
    intro rules
    refine ⟨?_, ?_, product_nil rules, ?_⟩
    · intro alternatives others h
      exact product_product rules h others
    · intro alternatives h
      exact length_product rules h
    · intro i h
      exact map_addInstruction h i

theorem combine_product_laws_restricted :
    let base : Rule := { id := "1", condition := .conj [.isSet "OBJNAM"] }
    let depths := Procedure.alternatives {} "DEPARE" .area "DEPARE"
    let restrictions := Procedure.alternatives {} "RESTRN" .area "DEPARE"
    depths ≠ [] ∧
      product (product [base] depths) restrictions = product [base] (product depths restrictions) ∧
      (product [base] depths).length = 5 ∧
      base.condition.isConjunction = true ∧
      [base].map (addInstruction (.complexLine "CTYARE51")) =
        product [base] [{ instructions := [.complexLine "CTYARE51"] }] := by
  intro base depths restrictions
  have hdepths : depths ≠ [] := List.cons_ne_nil _ _
  obtain ⟨hregroup, hlength, -, hinstruction⟩ := combine_product_laws.2.2 [base]
  refine ⟨hdepths, hregroup depths restrictions hdepths, ?_, rfl, ?_⟩
  · rw [hlength depths hdepths]
    rfl
  · apply hinstruction
    intro r hr
    cases List.mem_singleton.mp hr
    rfl

end Rule

end SeaChart
