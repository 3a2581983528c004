import SeaChart.Condition.Meaning
import SeaChart.Presentation.Reader

namespace SeaChart

namespace Condition

mutual

def isSolid : Condition → Bool
  | .conj cs => areSolid cs
  | .disj cs => !cs.isEmpty && cs.all (fun c => !c.isTrivial) && areSolid cs
  | .neg c => !c.isTrivial && isSolid c
  | _ => true

def areSolid : List Condition → Bool
  | [] => true
  | c :: cs => isSolid c && areSolid cs

end

theorem areSolid_eq (cs : List Condition) : areSolid cs = cs.all isSolid := by
  induction cs with
  | nil => rfl
  | cons c cs ih => simp [areSolid, ih]

theorem all_isSolid_members (c : Condition) : c.members.all isSolid = c.isSolid := by
  cases c <;> simp [members, isSolid, areSolid_eq]

theorem isSolid_both (cs : List Condition) : (both cs).isSolid = cs.all isSolid := by
  simp only [both, isSolid, areSolid_eq]
  induction cs with
  | nil => rfl
  | cons c cs ih =>
    rw [List.flatMap_cons, List.all_append, all_isSolid_members, ih, List.all_cons]

theorem isSolid_ofCode (code : String) : (ofCode code).isSolid = true := by
  simp only [ofCode]
  split <;> rfl

end Condition

namespace Procedure

theorem isSolid_topmark (kind : TopmarkKind) :
    (topmark kind).all (·.condition.isSolid) = true := by
  cases kind <;> rfl

theorem isSolid_alternatives (settings : MarinerSettings) (name : String) (g : Geometry)
    (feature : String) :
    (alternatives settings name g feature).all (·.condition.isSolid) = true := by
  unfold alternatives
  split
  case h_5 => exact isSolid_topmark settings.topmarks
  case h_7 =>
    cases g with
    | point =>
      simp only [obstruction, obstructionSymbols]
      split <;> rfl
    | line => rfl
    | area => rfl
  all_goals first | rfl | (cases g <;> rfl)

end Procedure

namespace Rule

variable {settings : MarinerSettings} {g : Geometry} {feature : String}

theorem isSolid_product {rules alternatives : List Rule}
    (hrules : rules.all (·.condition.isSolid) = true)
    (halternatives : alternatives.all (·.condition.isSolid) = true) :
    (product rules alternatives).all (·.condition.isSolid) = true := by
  cases alternatives with
  | nil => exact hrules
  | cons a as =>
    simp only [product, List.all_eq_true, List.mem_flatMap, List.mem_map] at *
    rintro _ ⟨r, hr, s, hs, rfl⟩
    simp [combine, Condition.isSolid_both, hrules r hr, halternatives s hs]

theorem isSolid_extend {rules : List Rule} (h : rules.all (·.condition.isSolid) = true)
    (i : Instruction) :
    (extend settings g feature rules i).all (·.condition.isSolid) = true := by
  cases i with
  | procedure name =>
    exact isSolid_product h (Procedure.isSolid_alternatives settings name g feature)
  | _ => simpa only [extend, List.all_map, Function.comp_def, addInstruction] using h

theorem isSolid_expand {base : Rule} (h : base.condition.isSolid = true) (text : String) :
    (expand settings g feature base text).all (·.condition.isSolid) = true := by
  have hbase : [base].all (·.condition.isSolid) = true := by simp [h]
  exact List.foldlRecOn (motive := fun rules : List Rule => rules.all (·.condition.isSolid) = true)
    _ _ hbase fun _ hrules i _ => isSolid_extend hrules i

end Rule

namespace Presentation

theorem all_tableOf {p : Rule → Bool} {g : Geometry}
    {compiled : List (Geometry × String × List Rule)}
    (h : ∀ e ∈ compiled, e.2.2.all p = true) (feature : String) :
    (((tableOf g compiled).find? feature).getD []).all p = true := by
  rw [tableOf_eq_foldl]
  refine List.foldlRecOn (motive := fun table : Dictionary (List Rule) =>
    ((table.find? feature).getD []).all p = true) _ _ ?empty ?add
  case empty => rfl
  case add =>
    intro table htable e he
    have hrules : e.2.2.all p = true := h e (List.mem_filter.mp he).1
    simp only [addRules]
    by_cases hname : feature = e.2.1
    · rw [hname, Dictionary.find?_insert_self, ← hname]
      simp [htable, hrules]
    · rwa [Dictionary.find?_insert_of_ne _ _ hname]

theorem isSolid_compiled (settings : MarinerSettings) {elements : List RuleElement}
    (h : ∀ e ∈ elements, e.condition.isSolid = true) :
    ∀ c ∈ compiled settings elements, c.2.2.all (·.condition.isSolid) = true := by
  intro c hc
  obtain ⟨e, he, hrules⟩ := List.mem_filterMap.mp hc
  obtain ⟨⟨g, rules⟩, hgrules, rfl⟩ := Option.map_eq_some_iff.mp hrules
  simp only [RuleElement.rules?, Option.bind_eq_bind, Option.bind_eq_some_iff, Option.pure_def,
    Option.some.injEq, Prod.mk.injEq] at hgrules
  obtain ⟨priority, -, geometry, -, rfl, rfl⟩ := hgrules
  exact Rule.isSolid_expand (h e he) _

theorem isSolid_selectedElements (s : Selection) (root : Markup.Node) :
    ∀ e ∈ selectedElements s root, e.condition.isSolid = true := by
  intro e he
  obtain ⟨n, -, hread⟩ := List.mem_filterMap.mp (List.mem_filter.mp he).1
  simp only [RuleElement.ofMarkup?, Option.bind_eq_bind, Option.bind_eq_some_iff, Option.pure_def,
    Option.some.injEq] at hread
  obtain ⟨_, -, _, -, _, -, _, -, _, -, _, -, _, -, rfl⟩ := hread
  rw [Condition.isSolid_both, List.all_map, List.all_eq_true]
  intro code _
  exact Condition.isSolid_ofCode code

theorem isSolid_carriedSoundingRules (s : Selection) :
    (carriedSoundingRules s).all (·.condition.isSolid) = true :=
  Rule.isSolid_product rfl (Procedure.isSolid_alternatives s.settings "SOUNDG" .point _)

theorem isSolid_rules (s : Selection) (root : Markup.Node) (g : Geometry) (feature : String) :
    ((ofRoot s root).rules g feature).all (·.condition.isSolid) = true := by
  have htable (g : Geometry) :=
    all_tableOf (g := g) (isSolid_compiled s.settings (isSolid_selectedElements s root)) feature
  cases g with
  | line => exact htable .line
  | area => exact htable .area
  | point =>
    simp only [rules, ruleTable, ofRoot]
    split
    · exact htable .point
    · by_cases hname : feature = carriedSounding
      · rw [hname, Dictionary.find?_insert_self]
        exact isSolid_carriedSoundingRules s
      · rw [Dictionary.find?_insert_of_ne _ _ hname]
        exact htable .point

end Presentation

end SeaChart
