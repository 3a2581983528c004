import Mathlib.Data.List.Basic
import SeaChart.Mapfile.Layer
import SeaChart.Proofs.StableOrder

namespace SeaChart

open Mapfile

theorem toNat_toUpper (c : Char) :
    c.toUpper.toNat = if 97 ≤ c.toNat ∧ c.toNat ≤ 122 then c.toNat - 32 else c.toNat := by
  delta Char.toUpper
  grind [UInt32.le_iff_toNat_le, UInt32.toNat_add, Char.toNat]

theorem toNat_toLower (c : Char) :
    c.toLower.toNat = if 65 ≤ c.toNat ∧ c.toNat ≤ 90 then c.toNat + 32 else c.toNat := by
  delta Char.toLower
  grind [UInt32.le_iff_toNat_le, UInt32.toNat_add, Char.toNat]

theorem toUpper_eq_toUpper_iff (c d : Char) :
    c.toUpper = d.toUpper ↔ c.toLower = d.toLower := by
  rw [← Char.toNat_inj, ← Char.toNat_inj, toNat_toUpper, toNat_toUpper, toNat_toLower,
    toNat_toLower]
  split_ifs <;> omega

def SameButForCase (s t : String) : Prop :=
  s.toList.map Char.toLower = t.toList.map Char.toLower

structure SameNames (names others : List String) : Prop where
  left : ∀ s ∈ names, ∃ t ∈ others, SameButForCase s t
  right : ∀ t ∈ others, ∃ s ∈ names, SameButForCase s t

namespace Layer

theorem capitals_eq_iff (s t : String) : capitals s = capitals t ↔ SameButForCase s t := by
  unfold capitals SameButForCase
  rw [String.ofList_inj]
  generalize s.toList = cs
  generalize t.toList = ds
  induction cs generalizing ds with
  | nil => simp
  | cons c cs ih =>
    cases ds with
    | nil => simp
    | cons d ds => simp [ih, toUpper_eq_toUpper_iff]

theorem mem_capitals_iff {names others : List String} (h : SameNames names others) (a : String) :
    a ∈ names.map capitals ↔ a ∈ others.map capitals := by
  simp only [List.mem_map]
  constructor
  · rintro ⟨s, hs, rfl⟩
    obtain ⟨t, ht, hst⟩ := h.left s hs
    exact ⟨t, ht, ((capitals_eq_iff s t).mpr hst).symm⟩
  · rintro ⟨t, ht, rfl⟩
    obtain ⟨s, hs, hst⟩ := h.right t ht
    exact ⟨s, hs, (capitals_eq_iff s t).mpr hst⟩

theorem stablySorted_classOrder (fields : Option (List String)) (rules : List Rule) :
    StablySorted (fun r => OrderDual.toDual r.condition.count) (rules.filter (isApplicable fields))
      (classOrder fields rules) :=
  .mergeSort (fun r : Rule => OrderDual.toDual r.condition.count) _

theorem filter_isApplicable_none (rules : List Rule) : rules.filter (isApplicable none) = rules := by
  rw [List.filter_eq_self]
  intro r _
  simp [isApplicable, hasField]

theorem classOrder_eq_filter (fields : Option (List String)) (rules : List Rule) :
    classOrder fields rules = (classOrder none rules).filter (isApplicable fields) := by
  apply (stablySorted_classOrder fields rules).eq
  have hsorted := (stablySorted_classOrder none rules).filter (isApplicable fields)
  rwa [filter_isApplicable_none] at hsorted

theorem isApplicable_some (names : List String) (r : Rule) :
    isApplicable (some names) r = decide (∀ a ∈ r.condition.attributes, a ∈ names) := by
  rw [isApplicable, List.all_eq]
  simp [hasField]

theorem classOrder_sublist {names others : List String} (h : names ⊆ others) (rules : List Rule) :
    (classOrder (some names) rules).Sublist (classOrder (some others) rules) := by
  rw [classOrder_eq_filter (some names), classOrder_eq_filter (some others)]
  apply List.monotone_filter_right
  intro r hr
  rw [isApplicable_some, decide_eq_true_eq] at hr ⊢
  intro a ha
  exact h (hr a ha)

theorem stanzas_of_hasField (p : Presentation) (l : Layer) {fields : Option (List String)}
    (h : hasField fields = hasField l.fields) :
    stanzas p { l with fields } = l.stanzas p := by
  have hdraw : canDraw { l with fields } = l.canDraw := by
    funext i
    simp only [canDraw, h]
  have hlights : lightStanzas { l with fields } = l.lightStanzas := by
    simp only [lightStanzas, lightDescription, h]
  have hclass : classStanza p { l with fields } = l.classStanza p := by
    funext r
    simp only [classStanza, hdraw, hlights]
  unfold stanzas classes
  rw [hclass]
  rfl

theorem hasField_congr {names others : List String} (h : ∀ a, a ∈ names ↔ a ∈ others) :
    hasField (some names) = hasField (some others) := by
  funext a
  rw [Bool.eq_iff_iff]
  simpa [hasField] using h a

theorem ofFeature_of_sameNames {names others : List String} (h : SameNames names others)
    (p : Presentation) (level feature : String) (g : Geometry) (group : String) (maxScale : Nat) :
    ofFeature p level feature g group maxScale (some names) =
      { ofFeature p level feature g group maxScale (some others) with
        fields := some (names.map capitals) } := by
  have hfields := hasField_congr (mem_capitals_iff h)
  have happlicable : isApplicable (some (names.map capitals)) =
      isApplicable (some (others.map capitals)) := by
    funext r
    simp only [isApplicable, hfields]
  have hrules : classOrder (some (names.map capitals)) (p.rules g feature) =
      classOrder (some (others.map capitals)) (p.rules g feature) := by
    simp only [classOrder, happlicable]
  simp only [ofFeature, Option.map_some, hrules]

/--
Without known fields the classes of a layer are the rules of its feature, those with more conditions
first. Known fields keep those of them that need no other attribute.
-/
theorem rules_ofFeature_filtered (p : Presentation) (level feature : String) (g : Geometry)
    (group : String) (maxScale : Nat) :
    let known (names : List String) := ofFeature p level feature g group maxScale (some names)
    let unknown := ofFeature p level feature g group maxScale none
    (unknown.rules.Perm (p.rules g feature) ∧
      unknown.rules.Pairwise (fun r s => s.condition.count ≤ r.condition.count) ∧
      ∀ n, (unknown.rules.filter fun r => r.condition.count = n) =
        (p.rules g feature).filter fun r => r.condition.count = n) ∧
    (∀ names, (known names).rules =
      unknown.rules.filter fun r =>
        decide (∀ a ∈ r.condition.attributes, a ∈ names.map capitals)) ∧
    (∀ names others, names.map capitals ⊆ others.map capitals →
      (known names).rules.Sublist (known others).rules) ∧
    ∀ names others, SameNames names others →
      (known names).rules = (known others).rules ∧
        ∀ depth, Stanza.write p.ink depth ((known names).stanzas p) =
          Stanza.write p.ink depth ((known others).stanzas p) := by
  intro known unknown
  have hsorted : StablySorted (fun r => OrderDual.toDual r.condition.count) (p.rules g feature)
      unknown.rules := by
    have hrules := stablySorted_classOrder none (p.rules g feature)
    rwa [filter_isApplicable_none] at hrules
  refine ⟨⟨hsorted.perm, hsorted.ordered, fun n => hsorted.ties (OrderDual.toDual n)⟩, ?kept,
    fun names others h => classOrder_sublist h (p.rules g feature), ?respelled⟩
  case kept =>
    intro names
    have hrules : (known names).rules =
        unknown.rules.filter (isApplicable (some (names.map capitals))) :=
      classOrder_eq_filter _ (p.rules g feature)
    rw [hrules]
    exact List.filter_congr fun r _ => isApplicable_some _ r
  case respelled =>
    intro names others h
    have hlayer : known names = { known others with fields := some (names.map capitals) } :=
      ofFeature_of_sameNames h p level feature g group maxScale
    have hfields : hasField (some (names.map capitals)) = hasField (known others).fields :=
      hasField_congr (mem_capitals_iff h)
    refine ⟨by rw [hlayer], fun depth => ?_⟩
    rw [hlayer, stanzas_of_hasField p (known others) hfields]

example :
    let rules : List Rule := [{ id := "plain" }, { id := "colored", condition := .isSet "COLOUR" }]
    let p : Presentation := { (default : Presentation) with points := .ofList [("BOYLAT", rules)] }
    let ids (fields : Option (List String)) :=
      (ofFeature p "CL3" "BOYLAT" .point "CL3" 0 fields).rules.map Rule.id
    ids none = ["colored", "plain"] ∧ ids (some ["Colour"]) = ["colored", "plain"] ∧
      ids (some ["OBJNAM"]) = ["plain"] := by
  cbv

end Layer

end SeaChart
