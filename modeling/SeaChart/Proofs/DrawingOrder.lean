import Mathlib.Data.Prod.Lex
import Mathlib.Order.Bounds.Basic
import SeaChart.Proofs.ShapefileNames
import SeaChart.Proofs.StableOrder

namespace SeaChart

open Mapfile

namespace DisplayPriority

theorem higher_mem (p q : DisplayPriority) : p.higher q = p ∨ p.higher q = q := by
  unfold higher
  split
  · exact Or.inr rfl
  · exact Or.inl rfl

theorem level_higher (p q : DisplayPriority) :
    p.level ≤ (p.higher q).level ∧ q.level ≤ (p.higher q).level := by
  unfold higher
  split <;> omega

theorem foldl_higher (ps : List DisplayPriority) (q : DisplayPriority) :
    ps.foldl higher q ∈ q :: ps ∧ ∀ p ∈ q :: ps, p.level ≤ (ps.foldl higher q).level := by
  induction ps generalizing q with
  | nil => simp
  | cons p ps ih =>
    obtain ⟨hmem, hmost⟩ := ih (q.higher p)
    rw [List.foldl_cons]
    constructor
    · rcases List.mem_cons.mp hmem with heq | hmem
      · rw [heq]
        rcases higher_mem q p with h | h <;> simp [h]
      · simp [hmem]
    · have hfirst := hmost _ List.mem_cons_self
      obtain ⟨hq, hp⟩ := level_higher q p
      intro r hr
      rcases List.mem_cons.mp hr with rfl | hr
      · exact hq.trans hfirst
      · rcases List.mem_cons.mp hr with rfl | hr
        · exact hp.trans hfirst
        · exact hmost r (List.mem_cons_of_mem _ hr)

end DisplayPriority

namespace Layer

def drawingKey (l : Layer) : ℕ ×ₗ ℕ :=
  toLex (l.priority.level, l.geometry.rank)

theorem isGreatest_priority {l : Layer} (h : l.rules ≠ []) :
    IsGreatest {n | ∃ r ∈ l.rules, r.effectivePriority.level = n} l.priority.level := by
  obtain ⟨hmem, hmost⟩ :=
    DisplayPriority.foldl_higher (l.rules.map Rule.effectivePriority) .noData
  have hrules : ∀ r ∈ l.rules, r.effectivePriority.level ≤ l.priority.level := by
    intro r hr
    exact hmost _ (List.mem_cons_of_mem _ (List.mem_map_of_mem hr))
  constructor
  · rcases List.mem_cons.mp hmem with heq | hmem
    · -- No rule stands above the lowest priority, which is then that of all rules.
      obtain ⟨r, hr⟩ := List.exists_mem_of_ne_nil _ h
      have hlowest : l.priority.level = 0 := congrArg DisplayPriority.level heq
      have hr' := hrules r hr
      exact ⟨r, hr, by omega⟩
    · obtain ⟨r, hr, heq⟩ := List.mem_map.mp hmem
      exact ⟨r, hr, congrArg DisplayPriority.level heq⟩
  · rintro n ⟨r, hr, rfl⟩
    exact hrules r hr

end Layer

theorem Mapfile.Stanza.write_flatMap {α : Type} (ink : String → String) (depth : Nat)
    (f : α → List Stanza) (xs : List α) :
    write ink depth (xs.flatMap f) = String.join (xs.map fun x => write ink depth (f x)) := by
  induction xs with
  | nil => rfl
  | cons x xs ih =>
    rw [List.flatMap_cons, List.map_cons, String.join_cons, ← ih]
    simp [write, linesOfAll_append]

namespace Level

theorem drawnBefore_eq (a b : Layer) :
    drawnBefore a b = decide (a.drawingKey ≤ b.drawingKey) := by
  rw [Bool.eq_iff_iff, decide_eq_true_eq, Layer.drawingKey, Layer.drawingKey,
    Prod.Lex.toLex_le_toLex]
  unfold drawnBefore
  by_cases h : a.priority.level = b.priority.level <;> simp [h]

def survivors (p : Presentation) (f : Shapefile) : List Rule :=
  (p.rules f.geometry f.feature).filter
    (Layer.isApplicable (f.fields.map (·.map Layer.capitals)))

variable (p : Presentation) (level maxScale : Nat)

theorem mem_rules_layerOf (f : Shapefile) (r : Rule) :
    r ∈ (layerOf p level maxScale f).rules ↔ r ∈ survivors p f :=
  List.mem_mergeSort

theorem isEmpty_layerOf (f : Shapefile) :
    (layerOf p level maxScale f).isEmpty = (survivors p f).isEmpty := by
  rw [Bool.eq_iff_iff, Layer.isEmpty, List.isEmpty_iff, List.isEmpty_iff,
    List.eq_nil_iff_forall_not_mem, List.eq_nil_iff_forall_not_mem]
  simp only [mem_rules_layerOf]

def drawn (files : List Shapefile) : List Shapefile :=
  (files.filter fun f => !(survivors p f).isEmpty).mergeSort fun f g =>
    (layerOf p level maxScale f).drawingKey ≤ (layerOf p level maxScale g).drawingKey

theorem layers_eq_map_drawn (files : List Shapefile) :
    layers p level maxScale files = (drawn p level maxScale files).map (layerOf p level maxScale) := by
  have hfilter : ((files.map (layerOf p level maxScale)).filter fun l => !l.isEmpty) =
      (files.filter fun f => !(survivors p f).isEmpty).map (layerOf p level maxScale) := by
    rw [List.filter_map]
    congr 1
    exact List.filter_congr fun f _ => congrArg (!·) (isEmpty_layerOf p level maxScale f)
  rw [layers, hfilter, drawn, List.map_mergeSort]
  intro f _ g _
  exact (drawnBefore_eq _ _).symm

theorem stanzas_layerOf {f : Shapefile} (h : survivors p f ≠ []) :
    ∃ body, (layerOf p level maxScale f).stanzas p = [.block "LAYER" body] := by
  have hempty : (layerOf p level maxScale f).isEmpty = false := by
    rw [isEmpty_layerOf]
    simpa using h
  unfold Layer.stanzas
  rw [hempty]
  exact ⟨_, rfl⟩

theorem isGreatest_priority_layerOf {f : Shapefile} (h : survivors p f ≠ []) :
    IsGreatest {n | ∃ r ∈ survivors p f, r.effectivePriority.level = n}
      (layerOf p level maxScale f).priority.level := by
  obtain ⟨r, hr⟩ := List.exists_mem_of_ne_nil _ h
  have hgreatest := Layer.isGreatest_priority
    (List.ne_nil_of_mem ((mem_rules_layerOf p level maxScale f r).mpr hr))
  simpa only [mem_rules_layerOf] using hgreatest

def layerText (f : Shapefile) : String :=
  Stanza.write p.ink 0 ((layerOf p level maxScale f).stanzas p)

theorem text_eq_join (files : List Shapefile) :
    text p level maxScale files =
      String.join ((drawn p level maxScale files).map fun f =>
        layerText p level maxScale f ++ "\n") := by
  have hblank (ss : List Stanza) :
      Stanza.write p.ink 0 (ss ++ [.blank]) = Stanza.write p.ink 0 ss ++ "\n" := by
    simp [Stanza.write, Stanza.linesOfAll_append, Stanza.linesOfAll, Stanza.lines]
  rw [text, stanzas, Stanza.write_flatMap, layers_eq_map_drawn, List.map_map]
  simp only [Function.comp_def, hblank, layerText]

/--
The text of a level is that of one layer for each shapefile with a rule that its fields allow, by the
highest priority of these rules, then by geometry, then in the order of the files.
-/
theorem text_inDrawingOrder (files : List Shapefile) :
    (Geometry.area.rank < Geometry.line.rank ∧ Geometry.line.rank < Geometry.point.rank) ∧
    (∃ order : List Shapefile,
      text p level maxScale files =
        String.join (order.map fun f => layerText p level maxScale f ++ "\n") ∧
      order.Perm (files.filter fun f => !(survivors p f).isEmpty) ∧
      StablySorted (fun f => (layerOf p level maxScale f).drawingKey)
        (files.filter fun f => !(survivors p f).isEmpty) order ∧
      ∀ f ∈ order,
        (∃ body, (layerOf p level maxScale f).stanzas p = [.block "LAYER" body]) ∧
        IsGreatest {n | ∃ r ∈ survivors p f, r.effectivePriority.level = n}
          (layerOf p level maxScale f).priority.level) ∧
    ∀ others : List Shapefile, others.Perm files →
      text p level maxScale (Shapefile.sort others) =
        text p level maxScale (Shapefile.sort files) := by
  have hsorted : StablySorted (fun f => (layerOf p level maxScale f).drawingKey)
      (files.filter fun f => !(survivors p f).isEmpty) (drawn p level maxScale files) :=
    .mergeSort _ _
  refine ⟨by decide, ?order, ?permuted⟩
  case order =>
    refine ⟨_, text_eq_join p level maxScale files, hsorted.perm, hsorted, ?_⟩
    intro f hf
    have hfilled : survivors p f ≠ [] := by
      have hkept := (List.mem_filter.mp (hsorted.perm.mem_iff.mp hf)).2
      simpa using hkept
    exact ⟨stanzas_layerOf p level maxScale hfilled,
      isGreatest_priority_layerOf p level maxScale hfilled⟩
  case permuted =>
    intro others hperm
    rw [Shapefile.sort_eq_of_perm hperm]

example :
    let rules (priority : DisplayPriority) : List Rule := [{ priority := some priority }]
    let p : Presentation :=
      { (default : Presentation) with
        points := .ofList [("BOYLAT", rules .hazards), ("LIGHTS", rules .hazards)]
        areas := .ofList [("DEPARE", rules .group1), ("RESARE", rules .hazards)] }
    let files : List Shapefile :=
      [⟨3, .point, "BOYLAT", none⟩, ⟨3, .point, "SOUNDG", none⟩, ⟨3, .point, "LIGHTS", none⟩,
        ⟨3, .area, "RESARE", none⟩, ⟨3, .area, "DEPARE", none⟩]
    (layers p 3 0 files).map Layer.feature = ["DEPARE", "RESARE", "BOYLAT", "LIGHTS"] := by
  cbv

end Level

end SeaChart
