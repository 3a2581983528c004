import SeaChart.Mapfile.Layer
import SeaChart.Presentation.Reader

namespace SeaChart

open Text (mergePairs mergePairs_append_cons mergePairs_eq_self mem_mergePairs)

inductive TemplatePart where
  | char (c : Char)
  | field (acronym : String)

def TemplatePart.chars : TemplatePart → List Char
  | .char c => [c]
  | .field a => '[' :: (a.toList ++ [']'])

def templateParts (acronyms : List String) : List Char → List TemplatePart
  | [] => []
  | c :: cs =>
    if c = '%' then
      match _h : afterSpecification cs with
      | some rest => acronyms.head?.toList.map .field ++ templateParts acronyms.tail rest
      | none => .char c :: templateParts acronyms cs
    else .char c :: templateParts acronyms cs
termination_by cs => cs.length
decreasing_by
  · have := afterSpecification_length _h
    simp only [List.length_cons]
    omega
  · simp
  · simp

theorem flatMap_chars_templateParts (acronyms : List String) (cs : List Char) :
    (templateParts acronyms cs).flatMap TemplatePart.chars = substitute acronyms cs := by
  fun_induction substitute acronyms cs with
  | case1 acronyms => simp [templateParts]
  | case2 acronyms cs rest hrest ih =>
    rw [templateParts, if_pos rfl]
    split
    · next rest' hrest' =>
      rw [hrest] at hrest'
      cases hrest'
      rw [List.flatMap_append, ih]
      cases acronyms <;> simp [nextSubstitution, TemplatePart.chars]
    · next hnone => simp [hrest] at hnone
  | case3 acronyms cs hnone ih =>
    rw [templateParts, if_pos rfl]
    split
    · next rest hrest => simp [hnone] at hrest
    · rw [List.flatMap_cons, ih]
      rfl
  | case4 acronyms c cs hc ih => simp [templateParts, hc, TemplatePart.chars, ih]

theorem mem_acronyms_of_mem_templateParts {acronyms : List String} {cs : List Char} {a : String}
    (h : .field a ∈ templateParts acronyms cs) : a ∈ acronyms := by
  fun_induction templateParts acronyms cs with
  | case1 acronyms => cases h
  | case2 acronyms cs rest hrest ih =>
    rcases List.mem_append.mp h with h | h
    · cases acronyms with
      | nil => cases h
      | cons b bs =>
        have hab : a = b := by simpa using h
        exact hab ▸ List.mem_cons_self
    · exact List.mem_of_mem_tail (ih h)
  | case3 acronyms cs hnone ih =>
    apply ih
    simpa using h
  | case4 acronyms c cs hc ih =>
    apply ih
    simpa using h

def Wording.taken : Wording → List String
  | .byAttribute a => [a]
  | .literal _ => []
  | .template format acronyms =>
    (templateParts acronyms format.toList).filterMap fun part =>
      match part with
      | .char _ => none
      | .field a => some (String.ofList (mergePairs '%' a.toList))

theorem Wording.mem_taken_template {format : String} {acronyms : List String} {a : String}
    (h : a ∈ (Wording.template format acronyms).taken) :
    ∃ b, .field b ∈ templateParts acronyms format.toList ∧
      a = String.ofList (mergePairs '%' b.toList) := by
  obtain ⟨part, hpart, ha⟩ := List.mem_filterMap.mp h
  cases part with
  | char c => cases ha
  | field b =>
    cases ha
    exact ⟨b, hpart, rfl⟩

theorem Wording.body_of_mem_taken {w : Wording} {a : String} (h : a ∈ w.taken) :
    ∃ before after, w.body = before ++ '[' :: (a.toList ++ ']' :: after) := by
  cases w with
  | byAttribute b =>
    cases List.mem_singleton.mp h
    exact ⟨[], [], rfl⟩
  | literal text => cases h
  | template format acronyms =>
    obtain ⟨b, hb, rfl⟩ := mem_taken_template h
    obtain ⟨before, after, hparts⟩ := List.append_of_mem hb
    refine ⟨mergePairs '%' (before.flatMap TemplatePart.chars),
      mergePairs '%' (after.flatMap TemplatePart.chars), ?_⟩
    have hopen : '[' ≠ '%' := by decide
    have hclose : ']' ≠ '%' := by decide
    rw [body, ← flatMap_chars_templateParts, hparts, List.flatMap_append, List.flatMap_cons,
      TemplatePart.chars, List.cons_append, mergePairs_append_cons hopen, List.append_assoc,
      List.singleton_append, mergePairs_append_cons hclose, String.toList_ofList]

theorem not_mem_of_isAcronym {cs : List Char} (h : isAcronym cs = true) : '%' ∉ cs := by
  cases cs with
  | nil => exact List.not_mem_nil
  | cons c rest =>
    simp only [isAcronym, Bool.and_eq_true, List.all_eq_true] at h
    obtain ⟨⟨halpha, -⟩, hrest⟩ := h
    intro hmem
    rcases List.mem_cons.mp hmem with rfl | hmem
    · exact absurd halpha (by decide)
    · exact absurd (hrest '%' hmem) (by decide)

theorem Wording.mem_acronyms_of_mem_taken {w : Wording} {a : String} (h : a ∈ w.taken)
    (hacronym : isAcronym a.toList = true) : a ∈ w.acronyms := by
  cases w with
  | byAttribute b => exact h
  | literal text => exact h
  | template format acronyms =>
    obtain ⟨b, hb, rfl⟩ := mem_taken_template h
    rw [String.toList_ofList] at hacronym
    have hpercent : '%' ∉ b.toList := fun hmem =>
      not_mem_of_isAcronym hacronym (mem_mergePairs hmem)
    rw [mergePairs_eq_self hpercent, String.ofList_toList]
    exact mem_acronyms_of_mem_templateParts hb

/-- The attributes whose values an instruction takes; a pattern that is missing draws nothing. -/
def Instruction.taken (p : Presentation) : Instruction → List String
  | .symbol _ rotation => Rotation.acronyms rotation
  | .areaPattern name rotation =>
    if p.patterns.contains name then Rotation.acronyms rotation else []
  | .label l => l.wording.taken
  | _ => []

namespace Layer

def takenByLights (l : Layer) : List String :=
  if l.describesLights then (lightCharacteristics.map Prod.fst).filter (hasField l.fields) else []

def takenByClass (p : Presentation) (l : Layer) (r : Rule) : List String :=
  r.condition.attributes ++ (r.instructions.filter l.canDraw).flatMap (·.taken p) ++
    l.takenByLights

def taken (p : Presentation) (l : Layer) : List String :=
  l.rules.flatMap (l.takenByClass p)

theorem isApplicable_of_mem_classOrder {fields : Option (List String)} {rules : List Rule}
    {r : Rule} (h : r ∈ classOrder fields rules) : isApplicable fields r = true :=
  (List.mem_filter.mp (List.mem_mergeSort.mp h)).2

theorem hasField_of_mem_takenByLights {l : Layer} {a : String} (h : a ∈ l.takenByLights) :
    hasField l.fields a = true := by
  unfold takenByLights at h
  split at h
  · exact (List.mem_filter.mp h).2
  · cases h

theorem hasField_of_mem_taken {p : Presentation} {l : Layer} {i : Instruction} {a : String}
    (hdraw : l.canDraw i = true) (h : a ∈ i.taken p)
    (hlabel : i.isLabel = true → isAcronym a.toList = true) : hasField l.fields a = true := by
  have hchecked := List.all_eq_true.mp hdraw
  cases i with
  | symbol name rotation => exact hchecked a h
  | areaPattern name rotation =>
    simp only [Instruction.taken] at h
    split at h
    · exact hchecked a h
    · cases h
  | label l =>
    have hacronym := hlabel rfl
    exact hchecked a (List.mem_filter.mpr ⟨Wording.mem_acronyms_of_mem_taken h hacronym, hacronym⟩)
  | _ => cases h

/--
A layer takes only attributes that the data have just when this holds for those names in its labels
that are not of the form of an acronym, which are drawn unchecked. What a label takes stands in
square brackets in its text.
-/
theorem taken_known_iff (p : Presentation) (level feature : String) (g : Geometry)
    (group : String) (scale : Nat) (names : List String) (lights : Bool) :
    let l :=
      { ofFeature p level feature g group scale (some names) with describesLights := lights }
    ((∀ a ∈ l.taken p, a ∈ names.map capitals) ↔
      ∀ r ∈ l.rules, ∀ label, .label label ∈ r.instructions →
        l.canDraw (.label label) = true →
          ∀ a ∈ label.wording.taken, isAcronym a.toList = false → a ∈ names.map capitals) ∧
    ∀ label : Label, ∀ a ∈ label.wording.taken,
      ∃ before after, label.wording.body = before ++ '[' :: (a.toList ++ ']' :: after) := by
  intro l
  have hfields (a : String) : hasField l.fields a = true ↔ a ∈ names.map capitals :=
    List.contains_iff_mem
  refine ⟨⟨fun hknown => ?_, fun hlabels => ?_⟩, fun label a => Wording.body_of_mem_taken⟩
  · intro r hr label hlabel hdraw a ha hacronym
    apply hknown
    refine List.mem_flatMap.mpr ⟨r, hr, ?_⟩
    apply List.mem_append_left
    apply List.mem_append_right
    exact List.mem_flatMap.mpr ⟨_, List.mem_filter.mpr ⟨hlabel, hdraw⟩, ha⟩
  · intro a ha
    obtain ⟨r, hr, ha⟩ := List.mem_flatMap.mp ha
    rcases List.mem_append.mp ha with ha | ha
    · rcases List.mem_append.mp ha with ha | ha
      · have happlies := isApplicable_of_mem_classOrder hr
        exact (hfields a).mp (List.all_eq_true.mp happlies a ha)
      · obtain ⟨i, hi, ha⟩ := List.mem_flatMap.mp ha
        obtain ⟨hi, hdraw⟩ := List.mem_filter.mp hi
        by_cases hchecked : i.isLabel = true → isAcronym a.toList = true
        · exact (hfields a).mp (hasField_of_mem_taken hdraw ha hchecked)
        · obtain ⟨hlabel, hacronym⟩ := Classical.not_imp.mp hchecked
          cases i with
          | label label => exact hlabels r hr label hi hdraw a ha (Bool.not_eq_true _ ▸ hacronym)
          | _ => cases hlabel
    · exact (hfields a).mp (hasField_of_mem_takenByLights ha)

theorem sounding_takes_unknown :
    ∃ p log, Presentation.read {} "<chartsymbols/>" = .ok (p, log) ∧
      ¬∀ a ∈ (ofFeature p "CL1" "X-SNDG" .point "CL1" 0 (some ["OBJNAM"])).taken p,
        a ∈ ["OBJNAM"].map capitals := by
  refine ⟨_, _, rfl, ?_⟩
  decide +kernel

end Layer

end SeaChart
