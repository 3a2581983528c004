import SeaChart.Proofs.Alternatives

namespace SeaChart

def Rule.fills (r : Rule) : List String :=
  r.instructions.filterMap fun i =>
    match i with
    | .areaColor color _ => some color
    | _ => none

namespace Procedure

open Layer (meets hasField drawnRule drawnRule_cons_of_meets drawnRule_cons_of_not_meets)

variable {fields : Option (List String)} {f : Attributes} {depths : MarinerDepths}

def bandShade (depths : MarinerDepths) (f : Attributes) : Option String :=
  if (depthBand (.zero false) depths.shallowContour).holds f then some "DEPVS"
  else if (depthBand depths.shallowContour depths.safetyContour).holds f then some "DEPMS"
  else if (depthBand depths.safetyContour depths.deepContour).holds f then some "DEPMD"
  else none

/-- Classes put the bands before the drying alternative, since they have more conditions. -/
def drawnShade (depths : MarinerDepths) (f : Attributes) : String :=
  (bandShade depths f).getD (if drying.holds f then "DEPIT" else "DEPDW")

theorem fills_alternative_shade (condition : Condition) (feature color : String) :
    (alternative condition (shade feature color)).fills = [color] := by
  by_cases h : feature = "DRGARE" <;> simp [alternative, shade, dredgedMarks, Rule.fills, h]

theorem exists_drawnRule_tail (depths : MarinerDepths) (f : Attributes) (feature : String)
    (hfield : hasField fields "DRVAL1" = true) :
    ∃ r, drawnRule fields f (depthAreaShades feature depths).tail = some r ∧
      r.fills = [(bandShade depths f).getD "DEPDW"] ∧
      r.condition.count = if (bandShade depths f).isSome then 3 else 0 := by
  rw [(depthAreaShades_tail_graded feature depths).drawnRule_eq_find?]
  have hband (low high : Binary64) :
      (depthBand low high).attributes.all (hasField fields) = true := by
    change ["DRVAL1", "DRVAL1", "DRVAL1"].all (hasField fields) = true
    simp [hfield]
  simp only [depthAreaShades, List.tail_cons, List.find?_cons, meets_otherwise,
    meets_alternative _ (hband _ _)]
  unfold bandShade
  cases (depthBand (.zero false) depths.shallowContour).holds f with
  | true => exact ⟨_, rfl, fills_alternative_shade _ feature "DEPVS", rfl⟩
  | false =>
    cases (depthBand depths.shallowContour depths.safetyContour).holds f with
    | true => exact ⟨_, rfl, fills_alternative_shade _ feature "DEPMS", rfl⟩
    | false =>
      cases (depthBand depths.safetyContour depths.deepContour).holds f with
      | true => exact ⟨_, rfl, fills_alternative_shade _ feature "DEPMD", rfl⟩
      | false => exact ⟨_, rfl, fills_alternative_shade _ feature "DEPDW", rfl⟩

theorem exists_drawnRule_depthAreaShades (depths : MarinerDepths) (f : Attributes)
    (feature : String) (hfield : hasField fields "DRVAL1" = true) :
    ∃ r, drawnRule fields f (depthAreaShades feature depths) = some r ∧
      r.fills = [drawnShade depths f] := by
  obtain ⟨r, hr, hfills, hcount⟩ := exists_drawnRule_tail depths f feature hfield
  have hdrying : meets fields f (alternative drying (shade feature "DEPIT")) = drying.holds f := by
    apply meets_alternative
    change ["DRVAL1", "DRVAL1"].all (hasField fields) = true
    simp [hfield]
  have htwo : (alternative drying (shade feature "DEPIT")).condition.count = 2 := rfl
  have hcons : depthAreaShades feature depths =
      alternative drying (shade feature "DEPIT") :: (depthAreaShades feature depths).tail := rfl
  rw [hcons]
  cases hmet : drying.holds f with
  | false =>
    refine ⟨r, ?_, by simp [hfills, drawnShade, hmet]⟩
    rw [drawnRule_cons_of_not_meets _ (hdrying.trans hmet), hr]
  | true =>
    refine ⟨_, drawnRule_cons_of_meets (hdrying.trans hmet) hr, ?_⟩
    rw [htwo, hcount]
    cases hband : bandShade depths f with
    | some color => simp [hfills, hband, drawnShade]
    | none => simp [fills_alternative_shade, hband, drawnShade, hmet]

inductive Shade (depths : MarinerDepths) (f : Attributes) : String → Prop where
  | unknown (hunset : f.text "DRVAL1" = "") : Shade depths f "DEPIT"
  | drying (hset : f.text "DRVAL1" ≠ "")
      (hbelow : Comparison.less.holds (f.number "DRVAL1") (.zero false) = true) :
      Shade depths f "DEPIT"
  | veryShallow (hset : f.text "DRVAL1" ≠ "")
      (hatLeast : Comparison.atLeast.holds (f.number "DRVAL1") (.zero false) = true)
      (hbelow : Comparison.less.holds (f.number "DRVAL1") depths.shallowContour = true) :
      Shade depths f "DEPVS"
  | shallow (hset : f.text "DRVAL1" ≠ "")
      (hatLeast : Comparison.atLeast.holds (f.number "DRVAL1") depths.shallowContour = true)
      (hbelow : Comparison.less.holds (f.number "DRVAL1") depths.safetyContour = true) :
      Shade depths f "DEPMS"
  | medium (hset : f.text "DRVAL1" ≠ "")
      (hatLeast : Comparison.atLeast.holds (f.number "DRVAL1") depths.safetyContour = true)
      (hbelow : Comparison.less.holds (f.number "DRVAL1") depths.deepContour = true) :
      Shade depths f "DEPMD"
  | deep (hset : f.text "DRVAL1" ≠ "")
      (hatLeast : Comparison.atLeast.holds (f.number "DRVAL1") depths.deepContour = true) :
      Shade depths f "DEPDW"

structure Comparable (depths : MarinerDepths) : Prop where
  shallow : depths.shallowContour ≠ .nan
  safety : depths.safetyContour ≠ .nan
  deep : depths.deepContour ≠ .nan

structure Ascending (depths : MarinerDepths) : Prop where
  shallow : Comparison.atLeast.holds depths.shallowContour (.zero false) = true
  safety : Comparison.atLeast.holds depths.safetyContour depths.shallowContour = true
  deep : Comparison.atLeast.holds depths.deepContour depths.safetyContour = true

theorem atLeast_of_not_holds_depthBand {low high : Binary64} (hset : f.text "DRVAL1" ≠ "")
    (hx : f.number "DRVAL1" ≠ .nan) (hhigh : high ≠ .nan)
    (hlow : Comparison.atLeast.holds (f.number "DRVAL1") low = true)
    (hband : (depthBand low high).holds f = false) :
    Comparison.atLeast.holds (f.number "DRVAL1") high = true := by
  apply Comparison.atLeast_of_not_less hx hhigh
  rw [← Bool.not_eq_true] at hband ⊢
  intro hless
  exact hband ((holds_depthBand low high).mpr ⟨hset, hlow, hless⟩)

theorem atLeast_of_not_holds_drying (hx : f.text "DRVAL1" ≠ "" → f.number "DRVAL1" ≠ .nan)
    (hdrying : drying.holds f = false) :
    f.text "DRVAL1" ≠ "" ∧ Comparison.atLeast.holds (f.number "DRVAL1") (.zero false) = true := by
  rw [← Bool.not_eq_true, holds_drying, not_or, Bool.not_eq_true] at hdrying
  exact ⟨hdrying.1,
    Comparison.atLeast_of_not_less (hx hdrying.1) (by simp [Binary64.zero]) hdrying.2⟩

theorem bandShade_eq_none (hband : bandShade depths f = none) :
    (depthBand (.zero false) depths.shallowContour).holds f = false ∧
      (depthBand depths.shallowContour depths.safetyContour).holds f = false ∧
      (depthBand depths.safetyContour depths.deepContour).holds f = false := by
  unfold bandShade at hband
  grind

theorem atLeast_contours (hdepths : Comparable depths)
    (hx : f.text "DRVAL1" ≠ "" → f.number "DRVAL1" ≠ .nan) (hdrying : drying.holds f = false)
    (hband : bandShade depths f = none) :
    f.text "DRVAL1" ≠ "" ∧
      Comparison.atLeast.holds (f.number "DRVAL1") depths.safetyContour = true ∧
      Comparison.atLeast.holds (f.number "DRVAL1") depths.deepContour = true := by
  obtain ⟨hset, hzero⟩ := atLeast_of_not_holds_drying hx hdrying
  obtain ⟨hvs, hms, hmd⟩ := bandShade_eq_none hband
  have hshallow := atLeast_of_not_holds_depthBand hset (hx hset) hdepths.shallow hzero hvs
  have hsafety := atLeast_of_not_holds_depthBand hset (hx hset) hdepths.safety hshallow hms
  have hdeep := atLeast_of_not_holds_depthBand hset (hx hset) hdepths.deep hsafety hmd
  exact ⟨hset, hsafety, hdeep⟩

theorem shade_bandShade {color : String} (hband : bandShade depths f = some color) :
    Shade depths f color ∧ (color = "DEPVS" ∨ color = "DEPMS" ∨ color = "DEPMD") := by
  unfold bandShade at hband
  split at hband
  · next hholds =>
    cases hband
    obtain ⟨hset, hatLeast, hbelow⟩ := (holds_depthBand _ _).mp hholds
    exact ⟨.veryShallow hset hatLeast hbelow, Or.inl rfl⟩
  split at hband
  · next hholds =>
    cases hband
    obtain ⟨hset, hatLeast, hbelow⟩ := (holds_depthBand _ _).mp hholds
    exact ⟨.shallow hset hatLeast hbelow, Or.inr (Or.inl rfl)⟩
  split at hband
  · next hholds =>
    cases hband
    obtain ⟨hset, hatLeast, hbelow⟩ := (holds_depthBand _ _).mp hholds
    exact ⟨.medium hset hatLeast hbelow, Or.inr (Or.inr rfl)⟩
  · cases hband

theorem shade_drawnShade (hdepths : Comparable depths)
    (hx : f.text "DRVAL1" ≠ "" → f.number "DRVAL1" ≠ .nan) :
    Shade depths f (drawnShade depths f) := by
  rw [drawnShade]
  cases hband : bandShade depths f with
  | some color => exact (shade_bandShade hband).1
  | none =>
    cases hdrying : drying.holds f with
    | false =>
      obtain ⟨hset, -, hdeep⟩ := atLeast_contours hdepths hx hdrying hband
      exact .deep hset hdeep
    | true =>
      by_cases hset : f.text "DRVAL1" = ""
      · exact .unknown hset
      · exact .drying hset ((holds_drying.mp hdrying).resolve_left hset)

theorem safe_of_drawnShade (hdepths : Comparable depths)
    (hx : f.text "DRVAL1" ≠ "" → f.number "DRVAL1" ≠ .nan)
    (hsafe : drawnShade depths f = "DEPMD" ∨ drawnShade depths f = "DEPDW") :
    f.text "DRVAL1" ≠ "" ∧
      Comparison.atLeast.holds (f.number "DRVAL1") depths.safetyContour = true := by
  rw [drawnShade] at hsafe
  cases hband : bandShade depths f with
  | some color =>
    obtain ⟨hshade, hcolor⟩ := shade_bandShade hband
    have hmedium : color = "DEPMD" := by
      rw [hband, Option.getD_some] at hsafe
      grind
    cases hshade with
    | medium hset hatLeast _ => exact ⟨hset, hatLeast⟩
    | _ => simp at hmedium
  | none =>
    have hdrying : drying.holds f = false := by
      rw [hband, Option.getD_none] at hsafe
      grind
    obtain ⟨hset, hsafety, -⟩ := atLeast_contours hdepths hx hdrying hband
    exact ⟨hset, hsafety⟩

theorem Shade.unique (hdepths : Ascending depths) {color other : String}
    (h : Shade depths f color) (h' : Shade depths f other) : color = other := by
  obtain ⟨hshallow, hsafety, hdeep⟩ := hdepths
  have hsafetyShoreline := Comparison.atLeast_trans hsafety hshallow
  have hdeepShallow := Comparison.atLeast_trans hdeep hsafety
  have hdeepShoreline := Comparison.atLeast_trans hdeep hsafetyShoreline
  -- Of two shades, one ends where the other begins or nearer to the shoreline.
  cases h <;> cases h' <;> grind [Comparison.atLeast_trans, Comparison.not_less_of_atLeast]

/--
Shades of safe water are drawn only for depths known to reach the safety contour, and contours in
their order give each depth its own shade.
-/
theorem depthArea_shaded {settings : MarinerSettings} (feature : String)
    (hfield : hasField fields "DRVAL1" = true) (hdepths : Comparable settings.depths)
    (hx : f.text "DRVAL1" ≠ "" → f.number "DRVAL1" ≠ .nan) :
    ∃ r color,
      drawnRule fields f (alternatives settings "DEPARE" .area feature) = some r ∧
      r.fills = [color] ∧
      (color = "DEPMD" ∨ color = "DEPDW" →
        f.text "DRVAL1" ≠ "" ∧
          Comparison.atLeast.holds (f.number "DRVAL1") settings.depths.safetyContour = true) ∧
      (Ascending settings.depths → ∀ other, Shade settings.depths f other ↔ other = color) := by
  obtain ⟨r, hr, hfills⟩ := exists_drawnRule_depthAreaShades settings.depths f feature hfield
  have hshade := shade_drawnShade hdepths hx
  refine ⟨r, _, hr, hfills, safe_of_drawnShade hdepths hx, ?_⟩
  intro hascending other
  constructor
  · intro hother
    exact hother.unique hascending hshade
  · rintro rfl
    exact hshade

def dredged : Attributes where
  text _ := "12"
  number _ := .ofNat 12
  unsetCompares _ _ _ := false
  fits _ _ := false

theorem depthArea_shaded_dredged :
    ∃ r color,
      drawnRule none dredged (alternatives {} "DEPARE" .area "DRGARE") = some r ∧
      r.fills = [color] ∧
      (color = "DEPMD" ∨ color = "DEPDW" →
        dredged.text "DRVAL1" ≠ "" ∧
          Comparison.atLeast.holds (dredged.number "DRVAL1") (.ofNat 10) = true) ∧
      (Ascending {} → ∀ other, Shade {} dredged other ↔ other = color) :=
  depthArea_shaded "DRGARE" rfl ⟨by decide +kernel, by decide +kernel, by decide +kernel⟩
    fun _ => by decide +kernel

end Procedure

end SeaChart
