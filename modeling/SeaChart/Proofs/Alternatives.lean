import SeaChart.Procedure.Expansion
import SeaChart.Proofs.ClassOrder
import SeaChart.Proofs.NumberOrder

/-!
Which alternative of a procedure prevails. In all lists but that of the shades of depth areas the
conditions never become more; there the drying alternative excludes those with more conditions.
-/

namespace SeaChart.Procedure

open Layer (meets isApplicable hasField Prevails prevails_cons prevails_of_pairwise)

variable {fields : Option (List String)} {f : Attributes}

theorem meets_alternative {condition : Condition} (instructions : List Instruction)
    (hfields : condition.attributes.all (hasField fields) = true) :
    meets fields f (alternative condition instructions) = condition.holds f := by
  rw [meets, isApplicable]
  simp only [alternative, hfields, Bool.true_and]

theorem meets_otherwise (instructions : List Instruction) :
    meets fields f (otherwise instructions) = true := by
  rw [otherwise, meets_alternative instructions rfl]
  exact Condition.holds_of_isTrivial f .always rfl

structure Graded (rules : List Rule) : Prop where
  ordered : rules.Pairwise fun r s => s.condition.count ≤ r.condition.count
  complete : ∃ instructions, rules.getLast? = some (otherwise instructions)

theorem exists_met {rules : List Rule} {instructions : List Instruction}
    (hlast : rules.getLast? = some (otherwise instructions)) :
    ∃ r, rules.find? (meets fields f) = some r := by
  apply Option.isSome_iff_exists.mp
  rw [List.find?_isSome]
  exact ⟨_, List.mem_of_getLast? hlast, meets_otherwise instructions⟩

theorem Graded.exists_prevails {rules : List Rule} (h : Graded rules) :
    ∃ r, Prevails fields f rules r := by
  obtain ⟨instructions, hlast⟩ := h.complete
  obtain ⟨r, hr⟩ : ∃ r, rules.find? (meets fields f) = some r := exists_met hlast
  exact ⟨r, prevails_of_pairwise h.ordered hr⟩

theorem Graded.drawnRule_eq_find? {rules : List Rule} (h : Graded rules) :
    Layer.drawnRule fields f rules = rules.find? (meets fields f) := by
  obtain ⟨r, hr⟩ := h.exists_prevails
  rw [hr.drawnRule_eq, hr.first]

theorem graded_of_counts (rules : List Rule) (counts : List ℕ) (instructions : List Instruction)
    (hcounts : rules.map (·.condition.count) = counts) (hordered : counts.Pairwise (· ≥ ·))
    (hlast : rules.getLast? = some (otherwise instructions)) : Graded rules := by
  refine ⟨?_, instructions, hlast⟩
  rw [← hcounts, List.pairwise_map] at hordered
  exact hordered

theorem depthAreaOutline_graded (depths : MarinerDepths) : Graded (depthAreaOutline depths) :=
  graded_of_counts _ [4, 0] _ rfl (by decide) rfl

theorem depthContour_graded (depths : MarinerDepths) : Graded (depthContour depths) :=
  graded_of_counts _ [2, 1, 1, 0] _ rfl (by decide) rfl

theorem sounding_graded (depths : MarinerDepths) : Graded (sounding depths) :=
  graded_of_counts _ [2, 0] _ rfl (by decide) rfl

theorem light_graded : Graded light :=
  graded_of_counts _ [1, 1, 1, 0] _ rfl (by decide) rfl

theorem topmark_graded (kind : TopmarkKind) : Graded (topmark kind) := by
  apply graded_of_counts _ (List.replicate 34 1 ++ [0]) [symbol (defaultTopmark kind)]
  · cases kind <;> rfl
  · decide
  · cases kind <;> rfl

theorem hazardOutline_graded (g : Geometry) (depths : MarinerDepths) :
    Graded (hazardOutline g depths) := by
  cases g with
  | line => exact graded_of_counts _ [2, 0] _ rfl (by decide) rfl
  | area => exact graded_of_counts _ [2, 1, 0] _ rfl (by decide) rfl
  | point => exact graded_of_counts _ [2, 1, 0] _ rfl (by decide) rfl

theorem wreck_graded (g : Geometry) (depths : MarinerDepths) : Graded (wreck g depths) := by
  cases g with
  | point => exact graded_of_counts _ [2, 2, 1, 1, 0] _ rfl (by decide) rfl
  | line => exact hazardOutline_graded .line depths
  | area => exact hazardOutline_graded .area depths

theorem obstruction_graded (g : Geometry) (feature : String) (depths : MarinerDepths) :
    Graded (obstruction g feature depths) := by
  cases g with
  | point =>
    simp only [obstruction, obstructionSymbols]
    split
    · exact graded_of_counts _ [2, 2, 1, 0] _ rfl (by decide) rfl
    · exact graded_of_counts _ [2, 2, 1, 0] _ rfl (by decide) rfl
  | line => exact hazardOutline_graded .line depths
  | area => exact hazardOutline_graded .area depths

theorem restrictedArea_graded : Graded restrictedArea :=
  graded_of_counts _ [1, 1, 1, 1, 0] _ rfl (by decide) rfl

theorem restriction_graded : Graded restriction :=
  graded_of_counts _ [1, 1, 1, 1, 0] _ rfl (by decide) rfl

theorem positionQuality_graded (g : Geometry) : Graded (positionQuality g) := by
  cases g <;> exact graded_of_counts _ [1, 0] _ rfl (by decide) rfl

theorem shorelineConstruction_graded (g : Geometry) : Graded (shorelineConstruction g) := by
  cases g with
  | point => exact positionQuality_graded .point
  | line => exact graded_of_counts _ [1, 1, 1, 1, 0] _ rfl (by decide) rfl
  | area => exact graded_of_counts _ [1, 1, 1, 1, 0] _ rfl (by decide) rfl

theorem placeholder_graded {g : Geometry} (h : placeholder g ≠ []) : Graded (placeholder g) := by
  cases g with
  | point => exact graded_of_counts _ [0] _ rfl (by decide) rfl
  | line => exact graded_of_counts _ [0] _ rfl (by decide) rfl
  | area => exact absurd rfl h

theorem holds_setAndBelow (acronym : String) (value : Binary64) :
    (setAndBelow acronym value).holds f = true ↔
      f.text acronym ≠ "" ∧ Comparison.less.holds (f.number acronym) value = true := by
  by_cases h : f.text acronym = "" <;>
    simp [setAndBelow, Condition.holds_both, Condition.holds, h]

theorem holds_setAndAtLeast (acronym : String) (value : Binary64) :
    (setAndAtLeast acronym value).holds f = true ↔
      f.text acronym ≠ "" ∧ Comparison.atLeast.holds (f.number acronym) value = true := by
  by_cases h : f.text acronym = "" <;>
    simp [setAndAtLeast, Condition.holds_both, Condition.holds, h]

theorem holds_drying :
    drying.holds f = true ↔
      f.text "DRVAL1" = "" ∨ Comparison.less.holds (f.number "DRVAL1") (.zero false) = true := by
  by_cases h : f.text "DRVAL1" = "" <;>
    simp [drying, Condition.holds, Condition.anyHolds, h]

theorem holds_depthBand (low high : Binary64) :
    (depthBand low high).holds f = true ↔
      f.text "DRVAL1" ≠ "" ∧ Comparison.atLeast.holds (f.number "DRVAL1") low = true ∧
        Comparison.less.holds (f.number "DRVAL1") high = true := by
  rw [depthBand, Condition.holds_both]
  simp only [List.all_cons, List.all_nil, Bool.and_true, Bool.and_eq_true, holds_setAndAtLeast]
  by_cases h : f.text "DRVAL1" = "" <;> simp [Condition.holds, h]

theorem not_holds_depthBand_of_drying {low : Binary64} (high : Binary64)
    (hlow : Comparison.atLeast.holds low (.zero false) = true) (h : drying.holds f = true) :
    (depthBand low high).holds f = false := by
  rw [← Bool.not_eq_true, holds_depthBand]
  rintro ⟨hset, hatLeast, -⟩
  rcases holds_drying.mp h with hunset | hless
  · exact hset hunset
  · have := Comparison.not_less_of_atLeast (Comparison.atLeast_trans hatLeast hlow)
    rw [this] at hless
    cases hless

theorem depthAreaShades_tail_graded (feature : String) (depths : MarinerDepths) :
    Graded (depthAreaShades feature depths).tail :=
  graded_of_counts _ [3, 3, 3, 0] _ rfl (by decide) rfl

theorem depthAreaShades_exists_prevails (feature : String) {depths : MarinerDepths}
    (hshallow : Comparison.atLeast.holds depths.shallowContour (.zero false) = true)
    (hsafety : Comparison.atLeast.holds depths.safetyContour (.zero false) = true) :
    ∃ r, Prevails fields f (depthAreaShades feature depths) r := by
  -- Behind the drying shade the list is graded; where drying holds, no band holds as well.
  cases hd : meets fields f (alternative drying (shade feature "DEPIT")) with
  | false =>
    obtain ⟨r, hr⟩ := (depthAreaShades_tail_graded feature depths).exists_prevails
    exact ⟨r, hr.cons_of_not_meets hd⟩
  | true =>
    have hdrying : drying.holds f = true := by
      simpa [alternative] using (Bool.and_eq_true_iff.mp hd).2
    have hzero : Comparison.atLeast.holds (.zero false) (.zero false) = true :=
      Comparison.atLeast_refl (by simp [Binary64.zero])
    refine ⟨_, prevails_cons hd ?_⟩
    intro s hs hmet
    have hholds := (Bool.and_eq_true_iff.mp hmet).2
    simp only [List.mem_cons, List.not_mem_nil, or_false] at hs
    rcases hs with rfl | rfl | rfl | rfl
    · simp [alternative, not_holds_depthBand_of_drying _ hzero hdrying] at hholds
    · simp [alternative, not_holds_depthBand_of_drying _ hshallow hdrying] at hholds
    · simp [alternative, not_holds_depthBand_of_drying _ hsafety hdrying] at hholds
    · exact Nat.zero_le _

theorem alternatives_exists_prevails {settings : MarinerSettings}
    (hshallow : Comparison.atLeast.holds settings.depths.shallowContour (.zero false) = true)
    (hsafety : Comparison.atLeast.holds settings.depths.safetyContour (.zero false) = true)
    (procedure : String) (g : Geometry) (feature : String)
    (hne : alternatives settings procedure g feature ≠ []) :
    ∃ r, Prevails fields f (alternatives settings procedure g feature) r := by
  unfold alternatives at hne ⊢
  split
  · cases g with
    | line => exact (depthAreaOutline_graded settings.depths).exists_prevails
    | area => exact depthAreaShades_exists_prevails feature hshallow hsafety
    | point => exact depthAreaShades_exists_prevails feature hshallow hsafety
  · exact (depthContour_graded settings.depths).exists_prevails
  · exact (sounding_graded settings.depths).exists_prevails
  · exact light_graded.exists_prevails
  · exact (topmark_graded settings.topmarks).exists_prevails
  · exact (wreck_graded g settings.depths).exists_prevails
  · exact (obstruction_graded g feature settings.depths).exists_prevails
  · exact restrictedArea_graded.exists_prevails
  · exact restriction_graded.exists_prevails
  · exact (shorelineConstruction_graded g).exists_prevails
  · exact (positionQuality_graded g).exists_prevails
  · exact (positionQuality_graded g).exists_prevails
  · exact (positionQuality_graded g).exists_prevails
  · next hother =>
    exact (placeholder_graded (by simpa using hne)).exists_prevails

end SeaChart.Procedure
