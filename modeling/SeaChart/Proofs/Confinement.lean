import Mathlib.Data.List.Basic
import SeaChart.Proofs.EarlyFailures

namespace SeaChart

open SeaChart.Path

namespace Location

def IsBelow (l m : Location) : Prop :=
  m <+: l ∧ l ≠ m

instance (l m : Location) : Decidable (l.IsBelow m) :=
  inferInstanceAs (Decidable (m <+: l ∧ l ≠ m))

theorem isBelow_append {names : List String} (h : names ≠ []) (m : Location) :
    IsBelow (m ++ names) m :=
  ⟨List.prefix_append m names, by simpa using h⟩

end Location

namespace Chart

open RuleSet

variable {list : Store.Listing} {r : Request} {s : Settings} {b : Store} {l : Location}

section Changes

def IsMapLocation (s : Settings) (b : Store) (l : Location) : Prop :=
  ∃ p levels, ∃ f ∈ savedFiles p s levels, l = b.lexicalPlace f.1

theorem areNamed_savedFiles (hplaces : s.places.AreNormal) (p : Presentation) (levels : Levels) :
    Store.AreNamed (savedFiles p s levels) := by
  obtain ⟨stack, hnormal, -, hmap⟩ := hplaces.map
  intro f hf
  obtain ⟨n, above, habove, hpath⟩ := isFilePath_savedFiles hnormal hmap f hf
  refine ⟨n, ?_, (habove.isName List.mem_cons_self).isStep⟩
  rw [hpath]
  exact Store.getLast?_pieces_ofStack habove

theorem changesOnly_map (hplaces : s.places.AreNormal) (p : Presentation) (levels : Levels)
    (force : Bool) :
    Store.ChangesOnly (IsMapLocation s b) b (b.saveAll force (savedFiles p s levels)).2 :=
  (Store.changesOnly_saveAll (areNamed_savedFiles hplaces p levels) force).mono
    fun _ ⟨f, hf, hl⟩ => ⟨p, levels, f, hf, hl⟩

theorem isMapLocation_congr {c : Store} (h : c.workingDirectory = b.workingDirectory)
    (hl : IsMapLocation s c l) : IsMapLocation s b l := by
  obtain ⟨p, levels, f, hf, rfl⟩ := hl
  exact ⟨p, levels, f, hf, Store.lexicalPlace_congr h _⟩

inductive IsOutput (list : Store.Listing) (s : Settings) (b : Store) (l : Location) : Prop
  | palette (h : IsPaletteFile list s b l)
  | layer (h : IsLayerFile s b l)
  | map (h : IsMapLocation s b l)

def StageChanges (list : Store.Listing) (s : Settings) (b c d : Store) : Prop :=
  c.workingDirectory = b.workingDirectory → Store.ChangesOnly (IsOutput list s b) c d

theorem StageChanges.refl (c : Store) : StageChanges list s b c c :=
  fun _ => .refl c

theorem StageChanges.trans {c d u : Store} (h : StageChanges list s b c d)
    (h' : StageChanges list s b d u) : StageChanges list s b c u := by
  intro hc
  have hfirst := h hc
  exact hfirst.trans (h' (hfirst.workingDirectory.trans hc))

theorem changesOnly_make (hplaces : s.places.AreNormal) (list : Store.Listing)
    (r : Request) (b : Store) : Store.ChangesOnly (IsOutput list s b) b (make list r s b).2 := by
  suffices hstages : StageChanges list s b b (make list r s b).2 from hstages rfl
  simp only [make, prepare, andThen_assoc, andThen_done]
  refine andThen_related (R := StageChanges list s b) .trans (.refl b) fun p c hread => ?_
  obtain ⟨hlibrary, rfl⟩ := Prod.mk.inj hread
  refine andThen_related (R := StageChanges list s b) .trans ?palettes fun _ c _ => ?_
  case palettes => exact fun _ => (changesOnly_palettes hlibrary).mono fun _ => .palette
  refine andThen_related (R := StageChanges list s b) .trans ?format fun _ d _ => ?_
  case format => split <;> exact .refl c
  refine andThen_related (R := StageChanges list s b) .trans ?layers fun _ u _ => ?_
  case layers =>
    intro hd
    exact (changesOnly_layers list r s p d).mono fun l hl => .layer (isLayerFile_congr hd hl)
  refine andThen_related (R := StageChanges list s b) .trans (.refl u) fun levels v _ => ?_
  intro hv
  exact (changesOnly_map hplaces p levels r.force).mono fun l hl => .map (isMapLocation_congr hv hl)

end Changes

section Places

theorem isBelow_map (hplaces : s.places.AreNormal) (hl : IsMapLocation s b l) :
    l.IsBelow (b.lexicalPlace s.places.map) := by
  obtain ⟨stack, hnormal, -, hmap⟩ := hplaces.map
  obtain ⟨p, levels, f, hf, rfl⟩ := hl
  obtain ⟨g, hg, rfl⟩ := exists_text hnormal hmap hf
  have hfile := isMapFile_of_mem_texts hg
  rw [hmap, Store.lexicalPlace_ofStack (isNormal_stackOn hnormal hfile.isName), place_stackOn,
    Store.lexicalPlace_ofStack hnormal]
  exact Location.isBelow_append hfile.ne_nil _

theorem isBelow_ruleSet {stack : List Component} {k n : String} (hnormal : IsNormal stack)
    (hk : IsName k) (hn : IsName n) :
    Location.IsBelow (b.lexicalPlace (((ofStack stack).below k).below n))
      (b.lexicalPlace (ofStack stack)) := by
  rw [below_ofStack hnormal hk, below_ofStack (.name hk hnormal) hn,
    Store.lexicalPlace_ofStack (.name hn (.name hk hnormal)), Store.lexicalPlace_ofStack hnormal,
    Store.place, Store.place, List.append_assoc]
  exact Location.isBelow_append (List.cons_ne_nil _ _) _

theorem isBelow_layer (hplaces : s.places.AreNormal) (hl : IsLayerFile s b l) :
    l.IsBelow (b.lexicalPlace s.places.ruleSet) := by
  obtain ⟨stack, hnormal, hruleSet⟩ := hplaces.ruleSet
  obtain ⟨g, -, rfl⟩ := hl
  have hname : IsName (layerFileName g) := isName_ruleFile (by cases g <;> decide)
  rw [hruleSet]
  exact isBelow_ruleSet hnormal isName_layerDirectory hname

theorem isBelow_palette (hplaces : s.places.AreNormal) {name : String}
    (hname : '/' ∉ name.toList) :
    Location.IsBelow (b.lexicalPlace (palettePath s.places.ruleSet name))
      (b.lexicalPlace s.places.ruleSet) := by
  obtain ⟨stack, hnormal, hruleSet⟩ := hplaces.ruleSet
  rw [hruleSet]
  exact isBelow_ruleSet hnormal isName_paletteDirectory (isName_ruleFile hname)

end Places

/--
A file that is changed stands below the directory of the map or that of the rule set, or it is that
of a palette with a slash in its name.
-/
theorem changed_confined {before : Store} {file resources : Path}
    (hload : (Settings.load before file resources).1 = .ok s)
    (hl : b.Changed (Job.run (generate r s list) b).2.store l) :
    l.IsBelow (b.lexicalPlace s.places.map) ∨ l.IsBelow (b.lexicalPlace s.places.ruleSet) ∨
      b.hasEntries (paletteDirectory s.places.ruleSet) list = false ∧
        ∃ p, libraryAt b s.places.library (s.selection Theme.day.palette) = .ok p ∧
          ∃ name ∈ p.palettes.keys, '/' ∈ name.toList ∧
            l = b.lexicalPlace (palettePath s.places.ruleSet name) := by
  have hplaces := Settings.areNormal_of_load hload
  rw [(Job.run_eq_make list r s b).2] at hl
  cases (changesOnly_make hplaces list r b).changed l hl with
  | map h => exact Or.inl (isBelow_map hplaces h)
  | layer h => exact Or.inr (Or.inl (isBelow_layer hplaces h))
  | palette h =>
    obtain ⟨hempty, p, hlibrary, name, hname, rfl⟩ := h
    by_cases hslash : '/' ∈ name.toList
    · exact Or.inr (Or.inr ⟨hempty, p, hlibrary, name, hname, hslash, rfl⟩)
    · exact Or.inr (Or.inl (isBelow_palette hplaces hslash))

theorem changed_confined_palette :
    let b := paletteStore "DAY" []
    let s := sampleSettings b
    let r := { sampleRequest false with format := .aml }
    let l := ["r", "rules", "color_tables", "DAY.txt"]
    ((Settings.load b ⟨"c"⟩ ⟨"/"⟩).1 = .ok s ∧
      b.Changed (Job.run (generate r s) b).2.store l) ∧
    (Location.IsBelow l (b.lexicalPlace s.places.map) ∨
      Location.IsBelow l (b.lexicalPlace s.places.ruleSet) ∨
      b.hasEntries (paletteDirectory s.places.ruleSet) = false ∧
        ∃ p, libraryAt b s.places.library (s.selection Theme.day.palette) = .ok p ∧
          ∃ name ∈ p.palettes.keys, '/' ∈ name.toList ∧
            l = b.lexicalPlace (palettePath s.places.ruleSet name)) := by
  intro b s r l
  have hload : (Settings.load b ⟨"c"⟩ ⟨"/"⟩).1 = .ok s := load_sample (by decide +kernel)
  have hchanged : b.Changed (Job.run (generate r s) b).2.store l := by decide +kernel
  exact ⟨⟨hload, hchanged⟩, changed_confined hload hchanged⟩

theorem palette_escapes :
    let b := paletteStore "../../../out" []
    let s := sampleSettings b
    let r := { sampleRequest false with format := .aml }
    (Settings.load b ⟨"c"⟩ ⟨"/"⟩).1 = .ok s ∧
      b.Changed (Job.run (generate r s) b).2.store ["out.txt"] ∧
      ¬Location.IsBelow ["out.txt"] (b.lexicalPlace s.places.map) ∧
      ¬Location.IsBelow ["out.txt"] (b.lexicalPlace s.places.ruleSet) := by
  intro b s r
  have hload : (Settings.load b ⟨"c"⟩ ⟨"/"⟩).1 = .ok s := load_sample (by decide +kernel)
  refine ⟨hload, ?_⟩
  decide +kernel

end Chart

end SeaChart
