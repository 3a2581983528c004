import SeaChart.Proofs.Alternatives

namespace SeaChart.Procedure

open Layer (meets hasField drawnRule)

variable {fields : Option (List String)} {f : Attributes}

theorem Graded.exists_drawnRule {rules : List Rule} (h : Graded rules) :
    ∃ r, drawnRule fields f rules = some r := by
  obtain ⟨r, hr⟩ := h.exists_prevails
  exact ⟨r, hr.drawnRule_eq⟩

theorem Graded.instructions_eq_iff (before : List Rule) {after : List Rule}
    {condition : Condition} {instructions : List Instruction} {r : Rule}
    (h : Graded (before ++ alternative condition instructions :: after))
    (hfields : condition.attributes.all (hasField fields) = true)
    (hothers : ∀ s ∈ before ++ after, s.instructions ≠ instructions)
    (hr : drawnRule fields f (before ++ alternative condition instructions :: after) = some r) :
    r.instructions = instructions ↔
      (∀ s ∈ before, meets fields f s = false) ∧ condition.holds f = true := by
  rw [h.drawnRule_eq_find?, List.find?_append] at hr
  cases hbefore : before.find? (meets fields f) with
  | some s =>
    rw [hbefore, Option.some_or] at hr
    cases hr
    have hs := List.mem_of_find?_eq_some hbefore
    have hmet := List.find?_some hbefore
    apply iff_of_false
    · exact hothers r (List.mem_append_left after hs)
    · rintro ⟨hnone, -⟩
      rw [hnone r hs] at hmet
      cases hmet
  | none =>
    have hnone : ∀ s ∈ before, meets fields f s = false := by
      simpa using hbefore
    rw [hbefore, Option.none_or, List.find?_cons, meets_alternative instructions hfields] at hr
    cases hholds : condition.holds f with
    | true =>
      rw [hholds] at hr
      cases hr
      exact iff_of_true rfl ⟨hnone, rfl⟩
    | false =>
      rw [hholds] at hr
      apply iff_of_false
      · exact hothers r (List.mem_append_right before (List.mem_of_find?_eq_some hr))
      · simp

def IsShallower (f : Attributes) (acronym : String) (limit : Binary64) : Prop :=
  f.text acronym ≠ "" ∧ Comparison.less.holds (f.number acronym) limit = true

theorem not_isShallower_of_atLeast {acronym : String} {limit : Binary64}
    (h : Comparison.atLeast.holds (f.number acronym) limit = true) :
    ¬IsShallower f acronym limit := by
  rintro ⟨-, hless⟩
  rw [Comparison.not_less_of_atLeast h] at hless
  cases hless

def hazards : List String :=
  ["WRECKS", "OBSTRN"]

def dangerMarks : Geometry → List Instruction
  | .point => [symbol "DANGER01", depthLabel "VALSOU" true "SNDG2"]
  | .line => [.simpleLine .dotted 2 "CHBLK"]
  | .area => [.areaColor "DEPVS" 0, .simpleLine .dotted 2 "CHBLK"]

def categorySymbols (procedure feature : String) : List Rule :=
  if procedure = "WRECKS" then wreckSymbols else obstructionSymbols feature

theorem all_hasField {condition : Condition} {acronym : String}
    (hattributes : condition.attributes = [acronym, acronym])
    (h : hasField fields acronym = true) :
    condition.attributes.all (hasField fields) = true := by
  simp [hattributes, h]

theorem eq_of_mem_hazards {procedure : String} (h : procedure ∈ hazards) :
    procedure = "WRECKS" ∨ procedure = "OBSTRN" := by
  simpa [hazards] using h

section Hazards

variable {settings : MarinerSettings} {procedure feature : String} {g : Geometry} {r : Rule}

theorem graded_of_mem_hazards (h : procedure ∈ hazards) :
    Graded (alternatives settings procedure g feature) := by
  rcases eq_of_mem_hazards h with rfl | rfl
  · exact wreck_graded g settings.depths
  · exact obstruction_graded g feature settings.depths

theorem alternatives_point (h : procedure ∈ hazards) :
    alternatives settings procedure .point feature =
      isolatedDangers settings.depths ++ categorySymbols procedure feature := by
  rcases eq_of_mem_hazards h with rfl | rfl <;> rfl

theorem alternatives_outline (h : procedure ∈ hazards) (hg : g ≠ .point) :
    alternatives settings procedure g feature = hazardOutline g settings.depths := by
  rcases eq_of_mem_hazards h with rfl | rfl
  · cases g with
    | point => exact absurd rfl hg
    | _ => rfl
  · cases g with
    | point => exact absurd rfl hg
    | _ => rfl

theorem exists_symbol_of_mem (h : r ∈ categorySymbols procedure feature) :
    ∃ name, name ≠ "DANGER01" ∧ name ≠ "DANGER02" ∧ r.instructions = [symbol name] := by
  unfold categorySymbols obstructionSymbols wreckSymbols at h
  split at h
  · simp only [List.mem_cons, List.not_mem_nil, or_false] at h
    rcases h with rfl | rfl | rfl <;> exact ⟨_, by decide, by decide, rfl⟩
  · split at h
    all_goals
      simp only [List.mem_cons, List.not_mem_nil, or_false] at h
      rcases h with rfl | rfl <;> exact ⟨_, by decide, by decide, rfl⟩

theorem exists_alternatives (h : procedure ∈ hazards) :
    ∃ others, alternatives settings procedure g feature =
        alternative (setAndBelow "VALSOU" settings.depths.safetyDepth) (dangerMarks g) :: others ∧
      ∀ s ∈ others, s.instructions ≠ dangerMarks g := by
  by_cases hg : g = .point
  · subst hg
    refine ⟨_, alternatives_point h, ?_⟩
    intro s hs
    rcases List.mem_cons.mp hs with rfl | hs
    · exact (by decide : [symbol "DANGER02"] ≠ dangerMarks .point)
    · obtain ⟨name, -, -, hname⟩ := exists_symbol_of_mem hs
      simp [hname, dangerMarks]
  · rw [alternatives_outline h hg]
    cases g with
    | point => exact absurd rfl hg
    | line => exact ⟨_, rfl, by decide⟩
    | area => exact ⟨_, rfl, by decide⟩

theorem danger_iff (h : procedure ∈ hazards) (hfield : hasField fields "VALSOU" = true)
    (hr : drawnRule fields f (alternatives settings procedure g feature) = some r) :
    r.instructions = dangerMarks g ↔ IsShallower f "VALSOU" settings.depths.safetyDepth := by
  have hgraded : Graded (alternatives settings procedure g feature) := graded_of_mem_hazards h
  obtain ⟨others, heq, hothers⟩ :
      ∃ others, alternatives settings procedure g feature = _ :: others ∧ _ :=
    exists_alternatives h
  rw [heq] at hr hgraded
  have hfields : (setAndBelow "VALSOU" settings.depths.safetyDepth).attributes.all
      (hasField fields) = true := all_hasField rfl hfield
  rw [hgraded.instructions_eq_iff [] hfields hothers hr, holds_setAndBelow, IsShallower]
  simp

theorem lesserDanger_iff (h : procedure ∈ hazards) (hfield : hasField fields "VALSOU" = true)
    (hr : drawnRule fields f (alternatives settings procedure .point feature) = some r) :
    r.instructions = [symbol "DANGER02"] ↔
      f.text "VALSOU" ≠ "" ∧
        Comparison.atLeast.holds (f.number "VALSOU") settings.depths.safetyDepth = true := by
  have hgraded : Graded (alternatives settings procedure .point feature) := graded_of_mem_hazards h
  let danger := alternative (setAndBelow "VALSOU" settings.depths.safetyDepth) (dangerMarks .point)
  have heq : alternatives settings procedure .point feature = [danger] ++
      alternative (setAndAtLeast "VALSOU" settings.depths.safetyDepth) [symbol "DANGER02"] ::
        categorySymbols procedure feature :=
    alternatives_point h
  have hothers : ∀ s ∈ [danger] ++ categorySymbols procedure feature,
      s.instructions ≠ [symbol "DANGER02"] := by
    intro s hs
    rcases List.mem_cons.mp hs with rfl | hs
    · exact (by decide : dangerMarks .point ≠ [symbol "DANGER02"])
    · obtain ⟨name, -, hname, hdrawn⟩ := exists_symbol_of_mem hs
      simpa [hdrawn, symbol] using hname
  rw [heq] at hr hgraded
  have hfields : (setAndAtLeast "VALSOU" settings.depths.safetyDepth).attributes.all
      (hasField fields) = true := all_hasField rfl hfield
  have hdanger : meets fields f danger = false ↔
      ¬IsShallower f "VALSOU" settings.depths.safetyDepth := by
    rw [← Bool.not_eq_true, meets_alternative _ (all_hasField rfl hfield),
      holds_setAndBelow, IsShallower]
  rw [hgraded.instructions_eq_iff [danger] hfields hothers hr, holds_setAndAtLeast]
  constructor
  · exact fun h => h.2
  · rintro ⟨hset, hdeep⟩
    refine ⟨?_, hset, hdeep⟩
    simp only [List.mem_singleton, forall_eq]
    exact hdanger.mpr (not_isShallower_of_atLeast hdeep)

end Hazards

theorem bold_iff {depths : MarinerDepths} {r : Rule} (hfield : hasField fields "DEPTH" = true)
    (hr : drawnRule fields f (sounding depths) = some r) :
    r.instructions = [depthLabel "DEPTH" true "SNDG2"] ↔
      IsShallower f "DEPTH" depths.safetyDepth := by
  have hfields : (setAndBelow "DEPTH" depths.safetyDepth).attributes.all (hasField fields) =
      true := all_hasField rfl hfield
  have hothers : ∀ s ∈ [otherwise [depthLabel "DEPTH" false "SNDG1"]],
      s.instructions ≠ [depthLabel "DEPTH" true "SNDG2"] := by decide
  rw [(sounding_graded depths).instructions_eq_iff [] hfields hothers hr, holds_setAndBelow,
    IsShallower]
  simp

/--
Of hazards with a known depth, exactly those that are shallower than the safety depth are drawn as
dangers; the others are drawn by their category only while the depth is unknown. Exactly the
soundings that are shallower are bold.
-/
theorem shallow_standOut (fields : Option (List String)) (f : Attributes)
    {settings : MarinerSettings} (g : Geometry) (feature : String)
    (hsafety : settings.depths.safetyDepth ≠ .nan) :
    (hasField fields "VALSOU" = true → ∀ procedure ∈ hazards,
      ∃ r, drawnRule fields f (alternatives settings procedure g feature) = some r ∧
        (r.instructions = dangerMarks g ↔
          IsShallower f "VALSOU" settings.depths.safetyDepth) ∧
        (g = .point →
          (r.instructions = [symbol "DANGER02"] ↔ f.text "VALSOU" ≠ "" ∧
            Comparison.atLeast.holds (f.number "VALSOU") settings.depths.safetyDepth = true)) ∧
        (g = .point → (f.text "VALSOU" ≠ "" → f.number "VALSOU" ≠ .nan) →
          (r.instructions = [symbol "DANGER02"] ↔
            f.text "VALSOU" ≠ "" ∧ ¬IsShallower f "VALSOU" settings.depths.safetyDepth) ∧
          (r ∈ categorySymbols procedure feature → f.text "VALSOU" = ""))) ∧
    (hasField fields "DEPTH" = true →
      ∃ r, drawnRule fields f (alternatives settings "SOUNDG" g feature) = some r ∧
        (r.instructions = [depthLabel "DEPTH" true "SNDG2"] ↔
          IsShallower f "DEPTH" settings.depths.safetyDepth)) := by
  refine ⟨?hazards, ?soundings⟩
  case hazards =>
    intro hfield procedure hprocedure
    have hgraded : Graded (alternatives settings procedure g feature) :=
      graded_of_mem_hazards hprocedure
    obtain ⟨r, hr⟩ : ∃ r, drawnRule fields f _ = some r := hgraded.exists_drawnRule
    have hdanger := danger_iff hprocedure hfield hr
    refine ⟨r, hr, hdanger, ?_, ?_⟩
    · rintro rfl
      exact lesserDanger_iff hprocedure hfield hr
    rintro rfl hnumber
    have hlesser : r.instructions = [symbol "DANGER02"] ↔
        f.text "VALSOU" ≠ "" ∧ ¬IsShallower f "VALSOU" settings.depths.safetyDepth := by
      rw [lesserDanger_iff hprocedure hfield hr]
      apply and_congr_right
      intro hset
      constructor
      · exact not_isShallower_of_atLeast
      · intro hdeep
        apply Comparison.atLeast_of_not_less (hnumber hset) hsafety
        rw [← Bool.not_eq_true]
        exact fun hless => hdeep ⟨hset, hless⟩
    refine ⟨hlesser, fun hcategory => ?_⟩
    obtain ⟨name, -, hname, hdrawn⟩ := exists_symbol_of_mem hcategory
    by_contra hset
    by_cases hshallow : IsShallower f "VALSOU" settings.depths.safetyDepth
    · have hmarks := hdanger.mpr hshallow
      simp [hdrawn, dangerMarks] at hmarks
    · have hmarks := hlesser.mpr ⟨hset, hshallow⟩
      rw [hdrawn] at hmarks
      exact hname (by simpa [symbol] using hmarks)
  case soundings =>
    intro hfield
    obtain ⟨r, hr⟩ : ∃ r, drawnRule fields f _ = some r :=
      (sounding_graded settings.depths).exists_drawnRule
    exact ⟨r, hr, bold_iff hfield hr⟩

def sunken : Attributes where
  text acronym := if acronym = "CATWRK" then "" else "12"
  number _ := .ofNat 12
  unsetCompares _ _ _ := true
  fits _ _ := true

theorem shallow_standOut_sunken :
    (({} : MarinerSettings).depths.safetyDepth ≠ .nan) ∧
      ∃ r, drawnRule (some ["WATLEV", "VALSOU"]) sunken (alternatives {} "WRECKS" .point "WRECKS") =
          some r ∧
        r.instructions = [symbol "DANGER02"] := by
  have hsafety : ({} : MarinerSettings).depths.safetyDepth ≠ .nan := by decide +kernel
  have hdeep : ¬(sunken.text "VALSOU" ≠ "" ∧
      Comparison.less.holds (sunken.number "VALSOU") (.ofNat 10) = true) := by decide +kernel
  obtain ⟨r, hr, -, -, hpoint⟩ :=
    (shallow_standOut (some ["WATLEV", "VALSOU"]) sunken .point "WRECKS" hsafety).1 (by decide)
      "WRECKS" (by decide)
  exact ⟨hsafety, r, hr, (hpoint rfl fun _ => by decide +kernel).1.mpr ⟨by decide +kernel, hdeep⟩⟩

end SeaChart.Procedure
