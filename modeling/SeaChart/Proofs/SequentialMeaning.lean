import SeaChart.Proofs.Alternatives

/-!
A procedure is carried out by its first alternative that applies. Procedures are expanded ahead of
time and the classes are sorted, and still each feature is drawn as if the parts of an instruction
text were carried out one after the other.
-/

namespace SeaChart

open Layer (meets isApplicable Prevails prevails_cons)

variable {fields : Option (List String)} {f : Attributes}

namespace Rule

theorem meets_combine (r s : Rule) :
    meets fields f (r.combine s) = (meets fields f r && meets fields f s) := by
  simp only [meets, isApplicable, combine, Condition.attributes_both_pair, List.all_append,
    Condition.holds_both, List.all_cons, List.all_nil, Bool.and_true]
  grind

theorem find?_map_combine (r : Rule) (alternatives : List Rule) :
    (alternatives.map r.combine).find? (meets fields f) =
      if meets fields f r then (alternatives.find? (meets fields f)).map r.combine else none := by
  rw [List.find?_map]
  cases h : meets fields f r with
  | false =>
    have hnone : alternatives.find? (meets fields f ∘ r.combine) = none := by
      rw [List.find?_eq_none]
      intro s _
      simp [meets_combine, h]
    rw [hnone]
    rfl
  | true =>
    have hsame : meets fields f ∘ r.combine = meets fields f := by
      funext s
      simp [meets_combine, h]
    rw [hsame, if_pos rfl]

theorem find?_product (rules : List Rule) {alternatives : List Rule} {a : Rule}
    (h : alternatives.find? (meets fields f) = some a) :
    (product rules alternatives).find? (meets fields f) =
      (rules.find? (meets fields f)).map (·.combine a) := by
  have hne : alternatives ≠ [] := by
    rintro rfl
    simp at h
  rw [product_of_ne_nil rules hne]
  induction rules with
  | nil => rfl
  | cons r rules ih =>
    rw [List.flatMap_cons, List.find?_append, find?_map_combine, ih, h]
    cases hr : meets fields f r <;> simp [hr]

theorem prevails_product {rules alternatives : List Rule} {r a : Rule}
    (hr : Prevails fields f rules r) (ha : Prevails fields f alternatives a) :
    Prevails fields f (product rules alternatives) (r.combine a) := by
  refine ⟨by rw [find?_product rules ha.first, hr.first, Option.map_some], ?_⟩
  have hne : alternatives ≠ [] := by
    rintro rfl
    simpa using ha.first
  intro u hu hmet
  rw [product_of_ne_nil rules hne] at hu
  obtain ⟨s, hs, hmap⟩ := List.mem_flatMap.mp hu
  obtain ⟨t, ht, rfl⟩ := List.mem_map.mp hmap
  rw [meets_combine, Bool.and_eq_true] at hmet
  have hcount := hr.most s hs hmet.1
  have hcount' := ha.most t ht hmet.2
  simp only [combine, Condition.count_both_pair]
  omega

theorem prevails_addInstruction {rules : List Rule} {r : Rule} (hr : Prevails fields f rules r)
    (i : Instruction) :
    Prevails fields f (rules.map (addInstruction i)) (addInstruction i r) := by
  constructor
  · rw [List.find?_map]
    exact congrArg (Option.map (addInstruction i)) hr.first
  · intro t hmap hmet
    obtain ⟨s, hs, rfl⟩ := List.mem_map.mp hmap
    exact hr.most s hs hmet

end Rule

/--
What a part of an instruction text comes to for a feature: itself, or the first alternative that
applies of a procedure that has any.
-/
def Instruction.carriedOut (settings : MarinerSettings) (g : Geometry) (feature : String)
    (fields : Option (List String)) (f : Attributes) : Instruction → Option (List Instruction)
  | .procedure name =>
    match Procedure.alternatives settings name g feature with
    | [] => some []
    | alternatives => (alternatives.find? (meets fields f)).map (·.instructions)
  | i => some [i]

namespace Rule

open Instruction (carriedOut)

variable {settings : MarinerSettings} {g : Geometry} {feature : String}

theorem exists_prevails_extend
    (hshallow : Comparison.atLeast.holds settings.depths.shallowContour (.zero false) = true)
    (hsafety : Comparison.atLeast.holds settings.depths.safetyContour (.zero false) = true)
    {rules : List Rule} {r : Rule} (hr : Prevails fields f rules r) (i : Instruction) :
    ∃ part r', carriedOut settings g feature fields f i = some part ∧
      Prevails fields f (extend settings g feature rules i) r' ∧
      r'.instructions = r.instructions ++ part := by
  cases i with
  | procedure name =>
    simp only [carriedOut, extend]
    cases halternatives : Procedure.alternatives settings name g feature with
    | nil => exact ⟨[], r, rfl, hr, (List.append_nil _).symm⟩
    | cons first rest =>
      obtain ⟨a, ha⟩ : ∃ a, Prevails fields f (first :: rest) a := by
        rw [← halternatives]
        apply Procedure.alternatives_exists_prevails hshallow hsafety
        rw [halternatives]
        exact List.cons_ne_nil first rest
      refine ⟨a.instructions, r.combine a, ?_, prevails_product hr ha, rfl⟩
      simp only [ha.first, Option.map_some]
  | _ => exact ⟨_, _, rfl, prevails_addInstruction hr _, rfl⟩

theorem exists_prevails_foldl_extend
    (hshallow : Comparison.atLeast.holds settings.depths.shallowContour (.zero false) = true)
    (hsafety : Comparison.atLeast.holds settings.depths.safetyContour (.zero false) = true)
    (is : List Instruction) {rules : List Rule} {r : Rule} (hr : Prevails fields f rules r) :
    ∃ parts r', is.mapM (carriedOut settings g feature fields f) = some parts ∧
      Prevails fields f (is.foldl (extend settings g feature) rules) r' ∧
      r'.instructions = r.instructions ++ parts.flatten := by
  induction is generalizing rules r with
  | nil => exact ⟨[], r, rfl, hr, (List.append_nil _).symm⟩
  | cons i is ih =>
    obtain ⟨part, s, hpart, hs, hinstructions⟩ :=
      exists_prevails_extend (g := g) hshallow hsafety hr i
    obtain ⟨parts, t, hparts, ht, hmore⟩ := ih hs
    refine ⟨part :: parts, t, ?_, ht, ?_⟩
    · rw [List.mapM_cons, hpart, hparts]
      rfl
    · rw [hmore, hinstructions, List.flatten_cons, List.append_assoc]

/--
Each feature that meets the condition of a rule is drawn as if the parts of its instruction text
were carried out one after the other, provided that no contour is negative.
-/
theorem drawnRule_expand
    (hshallow : Comparison.atLeast.holds settings.depths.shallowContour (.zero false) = true)
    (hsafety : Comparison.atLeast.holds settings.depths.safetyContour (.zero false) = true)
    (base : Rule) (text : String) (hfields : isApplicable fields base = true)
    (hbase : base.condition.holds f = true) :
    ∃ r parts, Layer.drawnRule fields f (expand settings g feature base text) = some r ∧
      (Instruction.readAll text).mapM (carriedOut settings g feature fields f) = some parts ∧
      r.instructions = base.instructions ++ parts.flatten := by
  have hmeets : meets fields f base = true := by rw [meets, hfields, hbase, Bool.and_self]
  have hstart : Prevails fields f [base] base :=
    prevails_cons hmeets fun s hs => absurd hs List.not_mem_nil
  obtain ⟨parts, r, hparts, hr, hinstructions⟩ :=
    exists_prevails_foldl_extend hshallow hsafety (Instruction.readAll text) hstart
  exact ⟨r, parts, hr.drawnRule_eq, hparts, hinstructions⟩

def closedFlat : Attributes where
  text a := if a = "DRVAL1" then "-1" else if a = "RESTRN" then "7" else ""
  number _ := .ofInt (-1)
  unsetCompares _ _ _ := false
  fits text pattern := text = "7" && pattern = Condition.listPattern [7, 8, 14]

theorem drawnRule_expand_closedFlat :
    let text := "CS(DEPARE01);CS(RESTRN01);LS(SOLD,1,CHBLK)"
    let known := some ["DRVAL1", "RESTRN"]
    ∃ r, Layer.drawnRule known closedFlat
        (expand {} .area "DEPARE" { condition := .isSet "RESTRN" } text) = some r ∧
      (Instruction.readAll text).mapM (carriedOut {} .area "DEPARE" known closedFlat) =
        some [[.areaColor "DEPIT" 0], [.symbol "ENTRES61" none],
          [.simpleLine .solid 1 "CHBLK"]] ∧
      r.instructions =
        [.areaColor "DEPIT" 0, .symbol "ENTRES61" none, .simpleLine .solid 1 "CHBLK"] := by
  intro text known
  have hparts : (Instruction.readAll text).mapM
      (carriedOut {} .area "DEPARE" known closedFlat) =
        some [[.areaColor "DEPIT" 0], [.symbol "ENTRES61" none],
          [.simpleLine .solid 1 "CHBLK"]] := by
    decide +kernel
  have hdrawn := @drawnRule_expand known closedFlat {} .area "DEPARE" (by decide +kernel)
    (by decide +kernel) { condition := .isSet "RESTRN" } text (by decide) (by decide)
  obtain ⟨r, parts, hr, hread, hinstructions⟩ := hdrawn
  rw [hparts] at hread
  obtain rfl := Option.some.inj hread
  exact ⟨r, hr, hparts, hinstructions⟩

end Rule

end SeaChart
