import SeaChart.Presentation.Reader
import SeaChart.Proofs.DictionaryOrder
import SeaChart.Proofs.OrderedChoices

namespace SeaChart

namespace Rule

variable {settings : MarinerSettings} {g : Geometry} {feature display : String}

structure Unfolded (display : String) (rules : List Rule) : Prop where
  ne_nil : rules ≠ []
  display_eq : ∀ r ∈ rules, r.display = display

theorem Unfolded.product {rules alternatives : List Rule} (h : Unfolded display rules)
    (halternatives : alternatives.all isBare = true) :
    Unfolded display (product rules alternatives) := by
  cases alternatives with
  | nil => exact h
  | cons a as =>
    constructor
    · obtain ⟨r, rs, rfl⟩ := List.exists_cons_of_ne_nil h.ne_nil
      exact List.cons_ne_nil _ _
    · intro t ht
      obtain ⟨r, hr, ht⟩ := List.mem_flatMap.mp ht
      obtain ⟨b, hb, rfl⟩ := List.mem_map.mp ht
      rw [combine_of_isBare r (List.all_eq_true.mp halternatives b hb)]
      exact h.display_eq r hr

theorem Unfolded.extend {rules : List Rule} (h : Unfolded display rules) (i : Instruction) :
    Unfolded display (extend settings g feature rules i) := by
  cases i with
  | procedure name => exact h.product (Procedure.isBare_alternatives settings name g feature)
  | _ =>
    constructor
    · exact fun hnil => h.ne_nil (List.map_eq_nil_iff.mp hnil)
    · intro t ht
      obtain ⟨r, hr, rfl⟩ := List.mem_map.mp ht
      exact h.display_eq r hr

theorem unfolded_expand (base : Rule) (text : String) :
    Unfolded base.display (expand settings g feature base text) := by
  have hbase : Unfolded base.display [base] := by
    constructor
    · exact List.cons_ne_nil base []
    · intro r hr
      rw [List.mem_singleton.mp hr]
  exact List.foldlRecOn _ _ hbase fun _ h i _ => h.extend i

end Rule

namespace RuleElement

def isFor (g : Geometry) (feature : String) (e : RuleElement) : Bool :=
  e.feature = feature ∧ Geometry.read e.geometry = some g

def expansion (settings : MarinerSettings) (e : RuleElement) : List Rule :=
  (e.rules? settings).elim [] Prod.snd

theorem rules?_eq_some {settings : MarinerSettings} {e : RuleElement} {g : Geometry}
    {rules : List Rule} (h : e.rules? settings = some (g, rules)) :
    Geometry.read e.geometry = some g ∧ Rule.Unfolded (Text.trimmed e.category) rules := by
  simp only [rules?, Option.bind_eq_bind, Option.bind_eq_some_iff, Option.pure_def,
    Option.some.injEq, Prod.mk.injEq] at h
  obtain ⟨priority, -, _, hread, rfl, rfl⟩ := h
  exact ⟨hread, Rule.unfolded_expand (e.base priority) e.instructions⟩

theorem filter_expansion (s : Selection) (settings : MarinerSettings) (e : RuleElement) :
    (e.expansion settings).filter (fun r => s.acceptsCategory r.display) =
      if s.acceptsCategory (Text.trimmed e.category) then e.expansion settings else [] := by
  cases h : e.rules? settings with
  | none => simp [expansion, h]
  | some found =>
    obtain ⟨g, rules⟩ := found
    have hdisplay := (rules?_eq_some h).2.display_eq
    have hsame : rules.filter (fun r => s.acceptsCategory r.display) =
        rules.filter fun _ => s.acceptsCategory (Text.trimmed e.category) := by
      apply List.filter_congr
      intro r hr
      rw [hdisplay r hr]
    simp only [expansion, h, Option.elim_some, hsame]
    cases s.acceptsCategory (Text.trimmed e.category) <;> simp

end RuleElement

namespace Selection

def unrestricted (s : Selection) : Selection :=
  { s with categories := none, excluded := some [] }

def stored (rules : List Rule) : Option (List Rule) :=
  if rules = [] then none else some rules

def keep (s : Selection) (feature : String) (rules : List Rule) : Option (List Rule) :=
  if s.excludes feature then none else stored (rules.filter fun r => s.acceptsCategory r.display)

def restrict (s : Selection) (table : Dictionary (List Rule)) : Dictionary (List Rule) :=
  table.filterMap s.keep

theorem stored_ne (rules : List Rule) : stored rules ≠ some [] := by
  unfold stored
  split
  · exact Option.some_ne_none _ |>.symm
  · next hne => exact fun h => hne (Option.some.inj h)

theorem getD_stored (rules : List Rule) : (stored rules).getD [] = rules := by
  unfold stored
  split
  · next hnil => exact hnil.symm
  · rfl

theorem bind_stored_keep (s : Selection) (feature : String) (rules : List Rule) :
    (stored rules).bind (s.keep feature) = s.keep feature rules := by
  by_cases h : rules = []
  · subst h
    simp [stored, keep]
  · rw [stored, if_neg h, Option.bind_some]

theorem isSelected_unrestricted (s : Selection) (e : RuleElement) :
    e.isSelected s =
      (e.isSelected s.unrestricted && !s.excludes e.feature &&
        s.acceptsCategory (Text.trimmed e.category)) := by
  simp only [RuleElement.isSelected, unrestricted, acceptsTable, excludes, acceptsCategory]
  grind

end Selection

namespace Presentation

open Selection (stored getD_stored)

variable {settings : MarinerSettings} {g : Geometry} {feature : String}

def entriesOf (root : Markup.Node) (g : Geometry) (feature : String) : List RuleElement :=
  ((root.elements "lookup").filterMap RuleElement.ofMarkup?).filter (·.isFor g feature)

theorem sorted_tableOf (compiled : List (Geometry × String × List Rule)) :
    (tableOf g compiled).Sorted := by
  have hempty : (Dictionary.empty : Dictionary (List Rule)).Sorted := List.Pairwise.nil
  rw [tableOf_eq_foldl]
  exact List.foldlRecOn _ _ hempty fun _ h _ _ => h.insert _ _

theorem find?_tableOf {compiled : List (Geometry × String × List Rule)}
    (h : ∀ c ∈ compiled, c.2.2 ≠ []) (feature : String) :
    (tableOf g compiled).find? feature =
      stored ((compiled.filter fun c => c.1 = g ∧ c.2.1 = feature).flatMap fun c => c.2.2) := by
  -- What is stored so far grows by the rules of each entry of the feature, which are not empty.
  have hfold (es : List (Geometry × String × List Rule)) (table : Dictionary (List Rule))
      (rules : List Rule) (hes : ∀ c ∈ es, c.2.2 ≠ [])
      (htable : table.find? feature = stored rules) :
      (es.foldl (fun table c => addRules table c.2.1 c.2.2) table).find? feature =
        stored (rules ++ (es.filter fun c => c.2.1 = feature).flatMap fun c => c.2.2) := by
    induction es generalizing table rules with
    | nil => simpa using htable
    | cons e es ih =>
      have hrest : ∀ c ∈ es, c.2.2 ≠ [] := fun c hc => hes c (List.mem_cons_of_mem e hc)
      rw [List.foldl_cons]
      by_cases hname : e.2.1 = feature
      · have hadded : (addRules table e.2.1 e.2.2).find? feature = stored (rules ++ e.2.2) := by
          have hne : rules ++ e.2.2 ≠ [] := by simp [hes e List.mem_cons_self]
          rw [addRules, ← hname, Dictionary.find?_insert_self, hname, htable, getD_stored, stored,
            if_neg hne]
        rw [ih _ _ hrest hadded]
        simp [hname]
      · have hkept : (addRules table e.2.1 e.2.2).find? feature = stored rules := by
          rw [addRules, Dictionary.find?_insert_of_ne _ _ (Ne.symm hname), htable]
        rw [ih _ _ hrest hkept]
        simp [hname]
  have hfiltered : ∀ c ∈ compiled.filter (fun c => c.1 = g), c.2.2 ≠ [] :=
    fun c hc => h c (List.mem_filter.mp hc).1
  rw [tableOf_eq_foldl, hfold _ _ [] hfiltered rfl, List.nil_append, List.filter_filter]
  congr 3
  funext c
  simp [and_comm]

theorem compiled_ne_nil (elements : List RuleElement) :
    ∀ c ∈ compiled settings elements, c.2.2 ≠ [] := by
  intro c hc
  obtain ⟨e, -, hrules⟩ := List.mem_filterMap.mp hc
  obtain ⟨⟨g, rules⟩, hsome, rfl⟩ := Option.map_eq_some_iff.mp hrules
  exact (RuleElement.rules?_eq_some hsome).2.ne_nil

theorem flatMap_compiled (elements : List RuleElement) :
    ((compiled settings elements).filter fun c => c.1 = g ∧ c.2.1 = feature).flatMap
        (fun c => c.2.2) =
      (elements.filter (·.isFor g feature)).flatMap (·.expansion settings) := by
  induction elements with
  | nil => rfl
  | cons e elements ih =>
    cases h : e.rules? settings with
    | none =>
      have hnone : e.expansion settings = [] := by rw [RuleElement.expansion, h, Option.elim_none]
      by_cases hfor : e.isFor g feature
      · simp [compiled, h, hfor, hnone, ← ih]
      · simp [compiled, h, hfor, ← ih]
    | some found =>
      obtain ⟨k, rules⟩ := found
      have hread := (RuleElement.rules?_eq_some h).1
      have hfor : e.isFor g feature = decide (k = g ∧ e.feature = feature) := by
        simp [RuleElement.isFor, hread, and_comm]
      have hsome : e.expansion settings = rules := by rw [RuleElement.expansion, h]; rfl
      by_cases heq : k = g ∧ e.feature = feature
      · simp [compiled, h, hfor, heq, hsome, ← ih]
      · simp [compiled, h, hfor, heq, ← ih]

theorem find?_tableOf_selected (s : Selection) (root : Markup.Node) (g : Geometry)
    (feature : String) :
    (tableOf g (compiled s.settings (selectedElements s root))).find? feature =
      stored (((entriesOf root g feature).filter (·.isSelected s)).flatMap
        (·.expansion s.settings)) := by
  rw [find?_tableOf (compiled_ne_nil _), flatMap_compiled, selectedElements, entriesOf,
    List.filter_filter, List.filter_filter]
  congr 3
  funext e
  exact Bool.and_comm _ _

theorem keep_flatMap_expansion (s : Selection) (root : Markup.Node) (g : Geometry)
    (feature : String) :
    s.keep feature (((entriesOf root g feature).filter (·.isSelected s.unrestricted)).flatMap
        (·.expansion s.settings)) =
      stored (((entriesOf root g feature).filter (·.isSelected s)).flatMap
        (·.expansion s.settings)) := by
  have hfeature : ∀ e ∈ entriesOf root g feature, e.feature = feature := by
    intro e he
    have hfor := (List.mem_filter.mp he).2
    simp only [RuleElement.isFor, decide_eq_true_eq] at hfor
    exact hfor.1
  generalize entriesOf root g feature = entries at hfeature
  unfold Selection.keep
  split
  · next hexcluded =>
    have hnone : entries.filter (·.isSelected s) = [] := by
      apply List.filter_eq_nil_iff.mpr
      intro e he
      simp [RuleElement.isSelected, hfeature e he, hexcluded]
    rw [hnone]
    rfl
  · next htaken =>
    congr 1
    induction entries with
    | nil => rfl
    | cons e entries ih =>
      have ih := ih fun e' he' => hfeature e' (List.mem_cons_of_mem e he')
      have hselected := Selection.isSelected_unrestricted s e
      rw [hfeature e List.mem_cons_self, Bool.eq_false_of_not_eq_true htaken] at hselected
      cases hwhole : e.isSelected s.unrestricted with
      | false =>
        have hnot : e.isSelected s = false := by simp [hselected, hwhole]
        simpa [hwhole, hnot] using ih
      | true =>
        have hcategory : e.isSelected s = s.acceptsCategory (Text.trimmed e.category) := by
          simp [hselected, hwhole]
        have hfilter := RuleElement.filter_expansion s s.settings e
        cases haccepted : s.acceptsCategory (Text.trimmed e.category) with
        | false => simpa [hwhole, hcategory, haccepted, hfilter] using ih
        | true => simpa [hwhole, hcategory, haccepted, hfilter] using ih

theorem carriedSoundingRules_eq (s : Selection) :
    carriedSoundingRules s =
      (Procedure.sounding s.settings.depths).map fun a =>
        { a with
          id := carriedSounding
          table := s.pointTable
          comment := "non-SOUNDG features with sounding"
          priority := some .areaSymbol } := by
  rfl

theorem sorted_ruleTable (s : Selection) (root : Markup.Node) (g : Geometry) :
    ((ofRoot s root).ruleTable g).Sorted := by
  cases g with
  | line => exact sorted_tableOf _
  | area => exact sorted_tableOf _
  | point =>
    simp only [ruleTable, ofRoot]
    split
    · exact sorted_tableOf _
    · exact (sorted_tableOf _).insert _ _

theorem find?_ruleTable (s : Selection) (root : Markup.Node) (g : Geometry) (feature : String) :
    ((ofRoot s root).ruleTable g).find? feature =
      if g = .point ∧ feature = carriedSounding then
        if s.excludes carriedSounding then none else some (carriedSoundingRules s)
      else
        stored (((entriesOf root g feature).filter (·.isSelected s)).flatMap
          (·.expansion s.settings)) := by
  have htable := find?_tableOf_selected s root g feature
  cases g with
  | line => exact htable
  | area => exact htable
  | point =>
    simp only [ruleTable, ofRoot, true_and]
    by_cases hname : feature = carriedSounding
    · subst hname
      rw [if_pos rfl]
      split
      · next hexcluded =>
        rw [htable, ← keep_flatMap_expansion, Selection.keep, if_pos hexcluded]
      · exact Dictionary.find?_insert_self _ _ _
    · rw [if_neg hname]
      split
      · exact htable
      · rw [Dictionary.find?_insert_of_ne _ _ hname, htable]

theorem find?_restrict (s : Selection) (root : Markup.Node) (g : Geometry) (feature : String) :
    (s.restrict ((ofRoot s.unrestricted root).ruleTable g)).find? feature =
      (((ofRoot s.unrestricted root).ruleTable g).find? feature).bind (s.keep feature) :=
  (sorted_ruleTable s.unrestricted root g).find?_filterMap s.keep feature

theorem find?_ruleTable_selected (s : Selection) (root : Markup.Node) {g : Geometry}
    {feature : String} (h : ¬(g = .point ∧ feature = carriedSounding)) :
    ((ofRoot s root).ruleTable g).find? feature =
      (s.restrict ((ofRoot s.unrestricted root).ruleTable g)).find? feature := by
  have hkeep := keep_flatMap_expansion s root g feature
  rw [find?_restrict, find?_ruleTable, if_neg h, find?_ruleTable, if_neg h,
    Selection.bind_stored_keep]
  exact hkeep.symm

theorem sorted_restrict (s : Selection) (root : Markup.Node) (g : Geometry) :
    (s.restrict ((ofRoot s.unrestricted root).ruleTable g)).Sorted :=
  (sorted_ruleTable s.unrestricted root g).filterMap s.keep

theorem ruleTable_point (s : Selection) (root : Markup.Node)
    (h : s.excludes carriedSounding = false) :
    (ofRoot s root).ruleTable .point =
      (s.restrict ((ofRoot s.unrestricted root).ruleTable .point)).insert carriedSounding
        (carriedSoundingRules s) := by
  apply (sorted_ruleTable s root .point).eq_of_find? ((sorted_restrict s root .point).insert _ _)
  intro feature
  by_cases hname : feature = carriedSounding
  · rw [hname, find?_ruleTable, if_pos ⟨rfl, rfl⟩, h, Dictionary.find?_insert_self]
    rfl
  · rw [Dictionary.find?_insert_of_ne _ _ hname]
    exact find?_ruleTable_selected s root fun hsame => hname hsame.2

theorem ruleTable_eq_restrict (s : Selection) (root : Markup.Node) {g : Geometry}
    (h : g = .point → s.excludes carriedSounding = true) :
    (ofRoot s root).ruleTable g = s.restrict ((ofRoot s.unrestricted root).ruleTable g) := by
  apply (sorted_ruleTable s root g).eq_of_find? (sorted_restrict s root g)
  intro feature
  by_cases hname : g = .point ∧ feature = carriedSounding
  · obtain ⟨rfl, rfl⟩ := hname
    have hexcluded := h rfl
    rw [find?_ruleTable, if_pos ⟨rfl, rfl⟩, if_pos hexcluded, find?_restrict]
    cases ((ofRoot s.unrestricted root).ruleTable .point).find? carriedSounding with
    | none => rfl
    | some rules => rw [Option.bind_some, Selection.keep, if_pos hexcluded]
  · exact find?_ruleTable_selected s root hname

theorem nil_notMem_ruleTable (s : Selection) (root : Markup.Node) (g : Geometry) :
    [] ∉ ((ofRoot s root).ruleTable g).values := by
  intro hmem
  obtain ⟨⟨feature, rules⟩, hentry, rfl⟩ := List.mem_map.mp hmem
  have hempty := (sorted_ruleTable s root g).mem_entries_iff.mp hentry
  rw [find?_ruleTable] at hempty
  split at hempty
  · split at hempty <;> cases hempty
  · exact Selection.stored_ne _ hempty

/--
The rules that a selection takes are those of the whole library for accepted categories and features
that are not left out. The rules of carried soundings are there just when they are not left out.
All other rules are those of the entries for their feature and geometry.
-/
theorem ruleTable_selected (s : Selection) (root : Markup.Node) :
    let p := ofRoot s root
    let whole := ofRoot s.unrestricted root
    (∀ g, p.ruleTable g =
      if g = .point ∧ s.excludes carriedSounding = false then
        (s.restrict (whole.ruleTable g)).insert carriedSounding (carriedSoundingRules s)
      else s.restrict (whole.ruleTable g)) ∧
    p.points.find? carriedSounding =
      (if s.excludes carriedSounding then none
      else some ((Procedure.sounding s.settings.depths).map fun a =>
        { a with
          id := carriedSounding
          table := s.pointTable
          comment := "non-SOUNDG features with sounding"
          priority := some .areaSymbol })) ∧
    (∀ g, [] ∉ (p.ruleTable g).values) ∧
    ∀ g feature, p.rules g feature =
      if g = .point ∧ feature = carriedSounding then
        if s.excludes carriedSounding then [] else carriedSoundingRules s
      else
        ((entriesOf root g feature).filter (·.isSelected s)).flatMap
          (·.expansion s.settings) := by
  intro p whole
  refine ⟨fun g => ?tables, ?soundings, nil_notMem_ruleTable s root, fun g feature => ?entries⟩
  case tables =>
    split
    · next htaken =>
      obtain ⟨rfl, hexcluded⟩ := htaken
      exact ruleTable_point s root hexcluded
    · next hleft =>
      apply ruleTable_eq_restrict
      intro hpoint
      rw [← Bool.not_eq_false]
      exact fun hexcluded => hleft ⟨hpoint, hexcluded⟩
  case soundings =>
    have hsoundings := find?_ruleTable s root .point carriedSounding
    rw [if_pos ⟨rfl, rfl⟩, carriedSoundingRules_eq] at hsoundings
    exact hsoundings
  case entries =>
    rw [rules, find?_ruleTable]
    split
    · split <;> rfl
    · exact getD_stored _

example :
    let field (name text : String) : Markup.Node := .element name [] [.text text]
    let lookup (id feature category : String) : Markup.Node :=
      .element "lookup" [("id", id), ("name", feature)]
        [field "type" "Point", field "table-name" "Simplified", field "display-cat" category,
          field "comment" "", field "instruction" "SY(BOYLAT13)", field "disp-prio" "Hazards"]
    let root : Markup.Node := .element rootName []
      [lookup "1" "BOYLAT" "Standard", lookup "2" "BOYLAT" "Other", lookup "3" "LIGHTS" "Other"]
    let selected (s : Selection) :=
      let p := ofRoot s root
      (p.points.keys, (p.rules .point "BOYLAT").map Rule.id)
    selected {} = (["BOYLAT", "LIGHTS", "X-SNDG"], ["1", "2"]) ∧
      selected { categories := some ["Standard"] } = (["BOYLAT", "X-SNDG"], ["1"]) ∧
      selected { excluded := some ["BOYLAT", "X-SNDG"] } = (["LIGHTS"], []) := by
  decide +kernel

end Presentation

end SeaChart
