import Mathlib.Algebra.BigOperators.Ring.List
import Mathlib.Algebra.GroupWithZero.Nat
import Mathlib.Data.List.FinRange
import SeaChart.Procedure.Expansion

namespace SeaChart

section Choices

variable {α β : Type}

def choices : List (List α) → List (List α)
  | [] => [[]]
  | menu :: menus => menu.flatMap fun a => (choices menus).map (a :: ·)

def positions (menus : List (List α)) : List (List Nat) :=
  choices (menus.map fun menu => List.range menu.length)

def picked : List (List α) → List Nat → List α
  | menu :: menus, k :: ks => menu[k]?.toList ++ picked menus ks
  | _, _ => []

theorem mem_choices_iff {menus : List (List α)} {xs : List α} :
    xs ∈ choices menus ↔ List.Forall₂ (· ∈ ·) xs menus := by
  induction menus generalizing xs with
  | nil => simp [choices]
  | cons menu menus ih =>
    cases xs with
    | nil => simp [choices]
    | cons x xs => simp [choices, ih]

theorem mem_positions_iff {menus : List (List α)} {ks : List Nat} :
    ks ∈ positions menus ↔ List.Forall₂ (· < ·) ks (menus.map List.length) := by
  simp [positions, mem_choices_iff, List.forall₂_map_right_iff]

theorem length_choices (menus : List (List α)) :
    (choices menus).length = (menus.map List.length).prod := by
  induction menus with
  | nil => rfl
  | cons menu menus ih => simp [choices, ih]

theorem pairwise_choices {menus : List (List Nat)} (h : ∀ menu ∈ menus, menu.Pairwise (· < ·)) :
    (choices menus).Pairwise (· < ·) := by
  induction menus with
  | nil => exact List.pairwise_singleton _ _
  | cons menu menus ih =>
    have htail := ih fun other hother => h other (List.mem_cons_of_mem menu hother)
    refine List.pairwise_flatMap.mpr ⟨fun k _ => ?same, ?later⟩
    case same =>
      refine List.pairwise_map.mpr (htail.imp fun hlt => ?_)
      exact List.cons_lt_cons_iff.mpr (Or.inr ⟨rfl, hlt⟩)
    case later =>
      refine (h menu List.mem_cons_self).imp fun {k l} hlt xs hxs ys hys => ?_
      obtain ⟨ks, -, rfl⟩ := List.mem_map.mp hxs
      obtain ⟨ls, -, rfl⟩ := List.mem_map.mp hys
      exact List.cons_lt_cons_iff.mpr (Or.inl hlt)

theorem pairwise_positions (menus : List (List α)) : (positions menus).Pairwise (· < ·) := by
  apply pairwise_choices
  intro menu hmenu
  obtain ⟨original, -, rfl⟩ := List.mem_map.mp hmenu
  exact List.pairwise_lt_range

theorem flatMap_eq_flatMap_range (menu : List α) (f : Option α → List β) :
    menu.flatMap (fun a => f (some a)) =
      (List.range menu.length).flatMap fun k => f menu[k]? := by
  rw [← List.map_coe_finRange_eq_range, List.flatMap_map]
  conv_lhs => rw [← List.map_getElem_finRange menu, List.flatMap_map]
  simp

theorem choices_eq_map_picked (menus : List (List α)) :
    choices menus = (positions menus).map (picked menus) := by
  induction menus with
  | nil => rfl
  | cons menu menus ih =>
    calc
      choices (menu :: menus) = menu.flatMap fun a =>
          (positions menus).map fun ks => (some a).toList ++ picked menus ks := by
        simp [choices, ih, Function.comp_def]
      _ = (List.range menu.length).flatMap fun k =>
          (positions menus).map fun ks => menu[k]?.toList ++ picked menus ks :=
        flatMap_eq_flatMap_range menu fun a =>
          (positions menus).map fun ks => a.toList ++ picked menus ks
      _ = (positions (menu :: menus)).map (picked (menu :: menus)) := by
        simp [positions, choices, picked, List.map_flatMap, Function.comp_def]

theorem exists_menu_of_mem_choice {menus : List (List α)} {xs : List α} (h : xs ∈ choices menus)
    {x : α} (hx : x ∈ xs) : ∃ menu ∈ menus, x ∈ menu := by
  have hchosen := mem_choices_iff.mp h
  induction hchosen with
  | nil => cases hx
  | cons hfirst hrest ih =>
    rcases List.mem_cons.mp hx with rfl | hx
    · exact ⟨_, List.mem_cons_self, hfirst⟩
    · obtain ⟨menu, hmenu, hx⟩ := ih (mem_choices_iff.mpr hrest) hx
      exact ⟨menu, List.mem_cons_of_mem _ hmenu, hx⟩

end Choices

namespace Instruction

variable (settings : MarinerSettings) (g : Geometry) (feature : String)

def alternatives : Instruction → List Rule
  | .procedure name => Procedure.alternatives settings name g feature
  | _ => []

def plain : Instruction → List Instruction
  | .procedure _ => []
  | i => [i]

def menus (is : List Instruction) : List (List Rule) :=
  (is.map (alternatives settings g feature)).filter (· ≠ [])

def drawnWith : List Instruction → List Rule → List Instruction
  | [], _ => []
  | i :: is, chosen =>
    match alternatives settings g feature i, chosen with
    | [], _ => i.plain ++ drawnWith is chosen
    | _ :: _, [] => []
    | _ :: _, a :: chosen => a.instructions ++ drawnWith is chosen

end Instruction

namespace Condition

def isConjunction : Condition → Bool
  | .conj _ => true
  | _ => false

end Condition

namespace Rule

def isBare (r : Rule) : Bool :=
  r.id == "" && r.table == "" && r.display == "" && r.comment == "" && r.priority.isNone &&
    r.condition.members.all (!·.isConjunction)

end Rule

namespace Procedure

open Rule (isBare)

theorem isBare_topmark (kind : TopmarkKind) : (topmark kind).all isBare = true := by
  cases kind <;> rfl

theorem isBare_alternatives (settings : MarinerSettings) (name : String) (g : Geometry)
    (feature : String) : (alternatives settings name g feature).all isBare = true := by
  unfold alternatives
  split
  case h_5 => exact isBare_topmark settings.topmarks
  case h_7 =>
    cases g with
    | point =>
      simp only [obstruction, obstructionSymbols]
      split <;> rfl
    | line => rfl
    | area => rfl
  all_goals first | rfl | (cases g <;> rfl)

end Procedure

namespace Rule

open Instruction (menus drawnWith)

variable {settings : MarinerSettings} {g : Geometry} {feature : String}

def withChosen (settings : MarinerSettings) (g : Geometry) (feature : String) (base : Rule)
    (is : List Instruction) (chosen : List Rule) : Rule :=
  { base with
    instructions := base.instructions ++ drawnWith settings g feature is chosen
    condition := .conj (base.condition.members ++ chosen.flatMap (·.condition.members)) }

theorem withChosen_nil {base : Rule} {cs : List Condition} (hbase : base.condition = .conj cs)
    (is : List Instruction) :
    withChosen settings g feature base is [] =
      { base with instructions := base.instructions ++ drawnWith settings g feature is [] } := by
  simp only [withChosen, hbase, Condition.members, List.flatMap_nil, List.append_nil]

theorem extend_append (rules others : List Rule) (i : Instruction) :
    extend settings g feature (rules ++ others) i =
      extend settings g feature rules i ++ extend settings g feature others i := by
  cases i with
  | procedure name =>
    simp only [extend, product]
    split <;> simp
  | _ => exact List.map_append

theorem extend_nil (i : Instruction) : extend settings g feature [] i = [] := by
  cases i with
  | procedure name =>
    simp only [extend, product]
    split <;> rfl
  | _ => rfl

theorem foldl_extend_eq_flatMap (is : List Instruction) (rules : List Rule) :
    is.foldl (extend settings g feature) rules =
      rules.flatMap fun r => is.foldl (extend settings g feature) [r] := by
  have hnil : is.foldl (extend settings g feature) [] = [] := by
    induction is with
    | nil => rfl
    | cons i is ih => rw [List.foldl_cons, extend_nil, ih]
  have happend (xs ys : List Rule) : is.foldl (extend settings g feature) (xs ++ ys) =
      is.foldl (extend settings g feature) xs ++ is.foldl (extend settings g feature) ys := by
    clear hnil
    induction is generalizing xs ys with
    | nil => rfl
    | cons i is ih => simp only [List.foldl_cons, extend_append, ih]
  induction rules with
  | nil => exact hnil
  | cons r rules ih =>
    rw [← List.singleton_append, happend, ih, List.flatMap_append, List.flatMap_singleton]

theorem combine_of_isBare (base : Rule) {a : Rule} (ha : a.isBare = true) :
    base.combine a =
      { base with
        instructions := base.instructions ++ a.instructions
        condition := .conj (base.condition.members ++ a.condition.members) } := by
  simp only [isBare, Bool.and_eq_true, beq_iff_eq, Option.isNone_iff_eq_none] at ha
  obtain ⟨⟨⟨⟨⟨hid, htable⟩, hdisplay⟩, hcomment⟩, hpriority⟩, -⟩ := ha
  simp [combine, preferLater, Condition.both, hid, htable, hdisplay, hcomment, hpriority]

theorem extend_of_alternatives_nil (base : Rule) {i : Instruction}
    (h : i.alternatives settings g feature = []) :
    extend settings g feature [base] i =
      [{ base with instructions := base.instructions ++ i.plain }] := by
  cases i with
  | procedure name =>
    simp only [Instruction.alternatives] at h
    simp [extend, h, product, Instruction.plain]
  | _ => rfl

theorem extend_of_alternatives_ne_nil (base : Rule) {i : Instruction}
    (h : i.alternatives settings g feature ≠ []) :
    extend settings g feature [base] i = (i.alternatives settings g feature).map base.combine := by
  cases i with
  | procedure name =>
    simp only [Instruction.alternatives] at h ⊢
    simp only [extend]
    cases halternatives : Procedure.alternatives settings name g feature with
    | nil => exact absurd halternatives h
    | cons a as => simp [product]
  | _ => exact absurd rfl h

theorem isBare_of_mem_alternatives {i : Instruction} {a : Rule}
    (ha : a ∈ i.alternatives settings g feature) : a.isBare = true := by
  cases i with
  | procedure name =>
    exact List.all_eq_true.mp (Procedure.isBare_alternatives settings name g feature) a ha
  | _ => cases ha

theorem foldl_extend_eq_choices (is : List Instruction) (base : Rule) {cs : List Condition}
    (hbase : base.condition = .conj cs) :
    is.foldl (extend settings g feature) [base] =
      (choices (menus settings g feature is)).map (withChosen settings g feature base is) := by
  -- The base takes up what was drawn and chosen so far; its condition stays a conjunction.
  induction is generalizing base cs with
  | nil => simp [menus, choices, withChosen_nil hbase, drawnWith]
  | cons i is ih =>
    rw [List.foldl_cons]
    cases halternatives : i.alternatives settings g feature with
    | nil =>
      rw [extend_of_alternatives_nil base halternatives,
        ih { base with instructions := base.instructions ++ i.plain } hbase]
      have hmenus : menus settings g feature (i :: is) = menus settings g feature is := by
        simp [menus, halternatives]
      rw [hmenus]
      refine List.map_congr_left fun chosen _ => ?_
      simp [withChosen, drawnWith, halternatives]
    | cons first rest =>
      have hne : i.alternatives settings g feature ≠ [] := by simp [halternatives]
      have hmenus : menus settings g feature (i :: is) =
          (first :: rest) :: menus settings g feature is := by
        simp [menus, halternatives]
      rw [extend_of_alternatives_ne_nil base hne, foldl_extend_eq_flatMap, hmenus, choices,
        List.map_flatMap, List.flatMap_map, halternatives]
      refine List.flatMap_congr fun a ha => ?_
      have hbare : a.isBare = true := isBare_of_mem_alternatives (halternatives ▸ ha)
      rw [combine_of_isBare base hbare, ih _ rfl, List.map_map]
      refine List.map_congr_left fun chosen _ => ?_
      simp [withChosen, drawnWith, halternatives, Condition.members]

theorem zero_notMem_length_menus {is : List Instruction} :
    0 ∉ (menus settings g feature is).map List.length := by
  intro hzero
  obtain ⟨menu, hmenu, hlength⟩ := List.mem_map.mp hzero
  have hne : menu ≠ [] := by simpa using (List.mem_filter.mp hmenu).2
  exact hne (List.length_eq_zero_iff.mp hlength)

theorem isBare_of_mem_chosen {is : List Instruction} {chosen : List Rule}
    (hchosen : chosen ∈ choices (menus settings g feature is)) {a : Rule} (ha : a ∈ chosen) :
    a.isBare = true := by
  obtain ⟨menu, hmenu, ha⟩ := exists_menu_of_mem_choice hchosen ha
  obtain ⟨i, -, rfl⟩ := List.mem_map.mp (List.mem_filter.mp hmenu).1
  exact isBare_of_mem_alternatives ha

variable (settings g feature) in
theorem menus_of_noProcedure {is : List Instruction} (h : ∀ name, .procedure name ∉ is) :
    menus settings g feature is = [] ∧ drawnWith settings g feature is [] = is := by
  induction is with
  | nil => exact ⟨rfl, rfl⟩
  | cons i is ih =>
    obtain ⟨hmenus, hdrawn⟩ := ih fun name hname => h name (List.mem_cons_of_mem i hname)
    cases i with
    | procedure name => exact absurd List.mem_cons_self (h name)
    | _ =>
      constructor
      · exact hmenus
      · exact congrArg (List.cons _) hdrawn

/--
A rule expands to one rule for each choice of an alternative of every procedure that has any, in
lexicographic order. It has the texts and the priority of the first rule, whose conditions stand
before those of the alternatives, and it draws the parts of the text in their order.
-/
theorem expand_choices (settings : MarinerSettings) (g : Geometry) (feature : String) (base : Rule)
    (text : String) {cs : List Condition} (hbase : base.condition = .conj cs) :
    let parts := Instruction.readAll text
    let menus := menus settings g feature parts
    let rules := expand settings g feature base text
    rules = (positions menus).map (fun ks =>
      { base with
        instructions := base.instructions ++
          drawnWith settings g feature parts (picked menus ks)
        condition := .conj (cs ++ (picked menus ks).flatMap (·.condition.members)) }) ∧
    (positions menus).Pairwise (· < ·) ∧
    (∀ ks, ks ∈ positions menus ↔ List.Forall₂ (· < ·) ks (menus.map List.length)) ∧
    (∀ r ∈ rules, ∀ c ∈ r.condition.members, c ∉ cs → c.isConjunction = false) ∧
    rules ≠ [] ∧
    rules.length = (menus.map List.length).prod ∧
    ((∀ name, .procedure name ∉ parts) →
      rules = [{ base with instructions := base.instructions ++ parts }]) := by
  intro parts menus rules
  have hrules : rules = (choices menus).map (withChosen settings g feature base parts) :=
    foldl_extend_eq_choices parts base hbase
  have hlength : rules.length = (menus.map List.length).prod := by
    rw [hrules, List.length_map, length_choices]
  have hmembers : base.condition.members = cs := by rw [hbase, Condition.members]
  refine ⟨?chosen, pairwise_positions menus, fun ks => mem_positions_iff, ?flat, ?filled, hlength,
    ?plain⟩
  case chosen =>
    rw [hrules, choices_eq_map_picked, List.map_map]
    refine List.map_congr_left fun ks _ => ?_
    simp only [Function.comp_apply, withChosen, hmembers]
  case flat =>
    intro r hr c hc hnew
    rw [hrules] at hr
    obtain ⟨chosen, hchosen, rfl⟩ := List.mem_map.mp hr
    simp only [withChosen, hmembers] at hc
    rcases List.mem_append.mp hc with hc | hc
    · exact absurd hc hnew
    · obtain ⟨a, ha, hc⟩ := List.mem_flatMap.mp hc
      have hbare := isBare_of_mem_chosen hchosen ha
      simp only [isBare, Bool.and_eq_true] at hbare
      simpa using List.all_eq_true.mp hbare.2 c hc
  case filled =>
    have hpos : (menus.map List.length).prod ≠ 0 := List.prod_ne_zero zero_notMem_length_menus
    intro hnil
    rw [hnil, List.length_nil] at hlength
    exact hpos hlength.symm
  case plain =>
    intro hplain
    obtain ⟨hmenus, hdrawn⟩ := menus_of_noProcedure settings g feature hplain
    have hone : rules = [withChosen settings g feature base parts []] :=
      hrules.trans (congrArg (List.map _) (congrArg choices hmenus))
    rw [hone, withChosen_nil hbase, hdrawn]

theorem expand_choices_restricted :
    let base : Rule := { condition := .conj [.isSet "OBJNAM"] }
    base.condition = .conj [.isSet "OBJNAM"] ∧
      (expand {} .area "DEPARE" base
        "CS(DEPARE01);LS(SOLD,1,CHBLK);CS(NMKING01);CS(RESTRN01)").length = 25 := by
  refine ⟨rfl, ?_⟩
  obtain ⟨-, -, -, -, -, hlength, -⟩ := expand_choices {} .area "DEPARE"
    { condition := .conj [.isSet "OBJNAM"] }
    "CS(DEPARE01);LS(SOLD,1,CHBLK);CS(NMKING01);CS(RESTRN01)" rfl
  rw [hlength]
  decide +kernel

end Rule

end SeaChart
