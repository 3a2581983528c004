import Mathlib.Data.List.Basic
import SeaChart.Proofs.ChartFiles
import SeaChart.Proofs.RuleFiles

/-!
Failures before the map is written. The making of a chart goes through its stages in order, so a
failure leaves what the stages before it wrote, and all levels are looked at before any file of the
map is saved.
-/

namespace SeaChart

open SeaChart.Path

theorem andThen_cases {α β : Type} {Q : Except GenerateError β → Store → Prop}
    {effect : Store → Except GenerateError α × Store}
    {next : α → Store → Except GenerateError β × Store} {s : Store}
    (herror : ∀ e t, effect s = (.error e, t) → Q (.error e) t)
    (hok : ∀ x t, effect s = (.ok x, t) → Q (next x t).1 (next x t).2) :
    Q (andThen effect next s).1 (andThen effect next s).2 := by
  unfold andThen
  rcases heffect : effect s with ⟨e | x, t⟩
  · exact herror e t heffect
  · exact hok x t heffect

namespace RuleSet

variable {p : Presentation} {ruleSet : Path}

def palettePath (ruleSet : Path) (name : String) : Path :=
  (paletteDirectory ruleSet).below (name ++ ".txt")

def layerPath (ruleSet : Path) (g : Geometry) : Path :=
  (layerDirectory ruleSet).below (layerFileName g)

theorem exists_of_mem_savedPalettes {f : Path × String} (hf : f ∈ savedPalettes p ruleSet) :
    ∃ name ∈ p.palettes.keys, f.1 = palettePath ruleSet name := by
  simp only [savedPalettes, paletteFiles, List.map_map, List.mem_map, Function.comp_apply] at hf
  obtain ⟨entry, hentry, rfl⟩ := hf
  exact ⟨entry.1, List.mem_map_of_mem hentry, rfl⟩

theorem exists_of_mem_savedLayers {f : Path × String} (hf : f ∈ savedLayers p ruleSet) :
    ∃ g ∈ geometries, f.1 = layerPath ruleSet g := by
  obtain ⟨g, hg, rfl⟩ := List.mem_map.mp hf
  exact ⟨g, hg, rfl⟩

theorem areNamed_savedPalettes : Store.AreNamed (savedPalettes p ruleSet) := by
  intro f hf
  obtain ⟨n, hlast, hstep, -⟩ := isRuleName_palettes hf
  exact ⟨n, hlast, hstep⟩

theorem areNamed_savedLayers : Store.AreNamed (savedLayers p ruleSet) := by
  intro f hf
  obtain ⟨n, hlast, hstep, -⟩ := isRuleName_layers hf
  exact ⟨n, hlast, hstep⟩

end RuleSet

def GenerateError.isOfLibrary : GenerateError → Bool
  | .missingLibrary _ => true
  | .unreadableLibrary _ => true
  | .library _ => true
  | _ => false

namespace Chart

open RuleSet

variable {list : Store.Listing} {r : Request} {s : Settings} {b c : Store}
  {p : Presentation}

section Stages

theorem exists_unwritable {force : Bool} {files : List (Path × String)} {e : GenerateError}
    (h : b.saveAll force files = (.error e, c)) : ∃ path cause, e = .unwritable path cause := by
  induction files generalizing b with
  | nil => cases h
  | cons f files ih =>
    obtain ⟨path, text⟩ := f
    simp only [Store.saveAll] at h
    split at h
    · cases h
      exact ⟨_, _, rfl⟩
    · exact ih h

theorem exists_unwritable_of_saveUnless {skip : Bool} {files : List (Path × String)}
    {e : GenerateError} (h : b.saveUnless skip files = (.error e, c)) :
    ∃ path cause, e = .unwritable path cause := by
  cases skip with
  | true => cases h
  | false => exact exists_unwritable h

theorem exists_unreadable {data : Path} {levels : List (Nat × Nat)} {e : GenerateError}
    (h : levelsBy list b data levels = .error e) :
    ∃ directory cause, e = .unreadable directory cause := by
  induction levels with
  | nil => cases h
  | cons level levels ih =>
    rw [levelsBy] at h
    cases hfiles : filesBy list b data level.1 with
    | error e' =>
      rw [hfiles] at h
      cases h
      unfold filesBy at hfiles
      split at hfiles
      · cases hfiles
        exact ⟨_, _, rfl⟩
      · cases hfiles
    | ok files =>
      cases hothers : levelsBy list b data levels with
      | error e' =>
        rw [hfiles, hothers] at h
        cases h
        exact ih hothers
      | ok others =>
        rw [hfiles, hothers] at h
        cases h

theorem isOfLibrary_of_libraryAt {path : Path} {selection : Selection} {e : GenerateError}
    (h : libraryAt b path selection = .error e) : e.isOfLibrary = true := by
  unfold libraryAt at h
  split at h
  · split at h
    · cases h
      rfl
    · split at h
      · cases h
        rfl
      · cases h
  · cases h
    rfl

inductive Ends (list : Store.Listing) (r : Request) (s : Settings) (b : Store) :
    Except GenerateError Unit → Store → Prop
  | noLibrary (e : GenerateError) (he : e.isOfLibrary = true)
      (hlibrary : libraryAt b s.places.library (s.selection Theme.day.palette) = .error e) :
      Ends list r s b (.error e) b
  | noPalettes (p : Presentation) (path : Path) (cause : FileError) (c : Store)
      (hlibrary : libraryAt b s.places.library (s.selection Theme.day.palette) = .ok p)
      (hpalettes : afterPalettes list s p b = (.error (.unwritable path cause), c)) :
      Ends list r s b (.error (.unwritable path cause)) c
  | unsupported (p : Presentation) (c : Store)
      (hlibrary : libraryAt b s.places.library (s.selection Theme.day.palette) = .ok p)
      (hpalettes : afterPalettes list s p b = (.ok (), c)) (hformat : r.format ≠ .chart) :
      Ends list r s b (.error (.unsupported r.format)) c
  | noLayers (p : Presentation) (path : Path) (cause : FileError) (c d : Store)
      (hlibrary : libraryAt b s.places.library (s.selection Theme.day.palette) = .ok p)
      (hpalettes : afterPalettes list s p b = (.ok (), c))
      (hlayers : afterLayers list r s p c = (.error (.unwritable path cause), d)) :
      Ends list r s b (.error (.unwritable path cause)) d
  | noLevels (p : Presentation) (directory : Path) (cause : FileError) (c d : Store)
      (hlibrary : libraryAt b s.places.library (s.selection Theme.day.palette) = .ok p)
      (hpalettes : afterPalettes list s p b = (.ok (), c))
      (hlayers : afterLayers list r s p c = (.ok (), d))
      (hlevels : levelsBy list d s.places.data Level.all = .error (.unreadable directory cause)) :
      Ends list r s b (.error (.unreadable directory cause)) d
  | noMap (p : Presentation) (levels : Levels) (path : Path) (cause : FileError) (c d after : Store)
      (hlibrary : libraryAt b s.places.library (s.selection Theme.day.palette) = .ok p)
      (hpalettes : afterPalettes list s p b = (.ok (), c))
      (hlayers : afterLayers list r s p c = (.ok (), d))
      (hlevels : levelsBy list d s.places.data Level.all = .ok levels)
      (hmap : d.saveAll r.force (savedFiles p s levels) =
        (.error (.unwritable path cause), after)) :
      Ends list r s b (.error (.unwritable path cause)) after
  | made (p : Presentation) (levels : Levels) (c d after : Store)
      (hlibrary : libraryAt b s.places.library (s.selection Theme.day.palette) = .ok p)
      (hpalettes : afterPalettes list s p b = (.ok (), c))
      (hlayers : afterLayers list r s p c = (.ok (), d))
      (hlevels : levelsBy list d s.places.data Level.all = .ok levels)
      (hmap : d.saveAll r.force (savedFiles p s levels) = (.ok (), after)) :
      Ends list r s b (.ok ()) after

theorem ends_make (list : Store.Listing) (r : Request) (s : Settings) (b : Store) :
    Ends list r s b (make list r s b).1 (make list r s b).2 := by
  simp only [make, prepare, andThen_assoc, andThen_done]
  -- Each stage ends the run in its own way or leaves its result to the next one.
  refine andThen_cases ?_ fun p _ hread => ?_
  · rintro e _ hread
    obtain ⟨hlibrary, rfl⟩ := Prod.mk.inj hread
    exact .noLibrary e (isOfLibrary_of_libraryAt hlibrary) hlibrary
  obtain ⟨hlibrary, rfl⟩ := Prod.mk.inj hread
  refine andThen_cases (fun e c hpalettes => ?_) fun _ c hpalettes => ?_
  · obtain ⟨path, cause, rfl⟩ := exists_unwritable_of_saveUnless hpalettes
    exact .noPalettes p path cause c hlibrary hpalettes
  by_cases hformat : r.format = .chart
  · simp only [hformat, ne_eq, not_true_eq_false, if_false, andThen_done]
    refine andThen_cases (fun e d hlayers => ?_) fun _ d hlayers => andThen_cases ?_ ?_
    · obtain ⟨path, cause, rfl⟩ := exists_unwritable_of_saveUnless hlayers
      exact .noLayers p path cause c d hlibrary hpalettes hlayers
    · rintro e _ hlooked
      obtain ⟨hlevels, rfl⟩ := Prod.mk.inj hlooked
      obtain ⟨directory, cause, rfl⟩ := exists_unreadable hlevels
      exact .noLevels p directory cause c d hlibrary hpalettes hlayers hlevels
    · rintro levels _ hlooked
      obtain ⟨hlevels, rfl⟩ := Prod.mk.inj hlooked
      rcases hmap : d.saveAll r.force (savedFiles p s levels) with ⟨e | _, after⟩
      · obtain ⟨path, cause, rfl⟩ := exists_unwritable hmap
        exact .noMap p levels path cause c d after hlibrary hpalettes hlayers hlevels hmap
      · exact .made p levels c d after hlibrary hpalettes hlayers hlevels hmap
  · simp only [ne_eq, hformat, not_false_eq_true, if_true]
    exact .unsupported p c hlibrary hpalettes hformat

end Stages

section Changes

def IsPaletteFile (list : Store.Listing) (s : Settings) (b : Store) (l : Location) : Prop :=
  b.hasEntries (paletteDirectory s.places.ruleSet) list = false ∧
    ∃ p, libraryAt b s.places.library (s.selection Theme.day.palette) = .ok p ∧
      ∃ name ∈ p.palettes.keys, l = b.lexicalPlace (palettePath s.places.ruleSet name)

def IsLayerFile (s : Settings) (b : Store) (l : Location) : Prop :=
  ∃ g ∈ geometries, l = b.lexicalPlace (layerPath s.places.ruleSet g)

theorem changesOnly_palettes
    (hlibrary : libraryAt b s.places.library (s.selection Theme.day.palette) = .ok p) :
    Store.ChangesOnly (IsPaletteFile list s b) b (afterPalettes list s p b).2 := by
  refine (Store.changesOnly_saveUnless areNamed_savedPalettes _).mono ?_
  rintro l ⟨hempty, f, hf, rfl⟩
  obtain ⟨name, hname, hpath⟩ := exists_of_mem_savedPalettes hf
  exact ⟨hempty, p, hlibrary, name, hname, congrArg b.lexicalPlace hpath⟩

theorem changesOnly_layers (list : Store.Listing) (r : Request) (s : Settings)
    (p : Presentation) (b : Store) :
    Store.ChangesOnly (IsLayerFile s b) b (afterLayers list r s p b).2 := by
  refine (Store.changesOnly_saveUnless areNamed_savedLayers _).mono ?_
  rintro l ⟨-, f, hf, rfl⟩
  obtain ⟨g, hg, hpath⟩ := exists_of_mem_savedLayers hf
  exact ⟨g, hg, congrArg b.lexicalPlace hpath⟩

theorem isLayerFile_congr (h : c.workingDirectory = b.workingDirectory) {l : Location}
    (hl : IsLayerFile s c l) : IsLayerFile s b l := by
  obtain ⟨g, hg, rfl⟩ := hl
  exact ⟨g, hg, Store.lexicalPlace_congr h _⟩

def IsNewPalette (list : Store.Listing) (s : Settings) (b : Store) (l : Location) : Prop :=
  IsPaletteFile list s b l ∧
    (list.Opens b (paletteDirectory s.places.ruleSet) →
      b.hasEntries (paletteDirectory s.places.ruleSet) = false ∧ b.kind? l = none)

theorem exists_ruleName_lexicalPlace (s : Store) (directory : Path) (name : String) :
    ∃ n, (s.lexicalPlace (directory.below (name ++ ".txt"))).getLast? = some n ∧ IsRuleName n := by
  obtain ⟨n, hlast, hn⟩ := exists_ruleName_below directory name
  exact ⟨n, s.getLast?_lexicalPlace hlast (isStep_of_isRuleName hn), hn⟩

theorem IsMapFile.not_isRuleName {names : List String} (h : IsMapFile names) {n : String}
    (hn : names.getLast? = some n) : ¬IsRuleName n := by
  cases h with
  | level t ht level =>
    cases hn
    exact not_suffix_append (by decide) (by decide) _
  | main t ht =>
    cases hn
    exact not_suffix_append (by decide) (by decide) _
  | symbols t ht =>
    cases hn
    exact not_suffix_append (by decide) (by decide) _

theorem lexicalPlace_ne_of_mem_savedFiles (hplaces : s.places.AreNormal) {levels : Levels}
    {f : Path × String} (hf : f ∈ savedFiles p s levels) (directory : Path) (name : String) :
    b.lexicalPlace f.1 ≠ b.lexicalPlace (directory.below (name ++ ".txt")) := by
  obtain ⟨stack, hnormal, -, hmap⟩ := hplaces.map
  obtain ⟨g, hg, rfl⟩ := exists_text hnormal hmap hf
  have hfile := isMapFile_of_mem_texts hg
  intro heq
  obtain ⟨n, hlast, hn⟩ := exists_ruleName_lexicalPlace b directory name
  rw [← heq, Store.lexicalPlace_ofStack (isNormal_stackOn hnormal hfile.isName), place_stackOn,
    List.getLast?_append_of_ne_nil _ hfile.ne_nil] at hlast
  exact hfile.not_isRuleName hlast hn

end Changes

section Failures

variable {after : Store} {e : GenerateError}

theorem changesOnly_newPalettes (hplaces : s.places.AreNormal) (hlist : list.IsFaithful)
    (hnames : ∀ name ∈ p.palettes.keys, '/' ∉ name.toList)
    (hlibrary : libraryAt b s.places.library (s.selection Theme.day.palette) = .ok p) :
    Store.ChangesOnly (IsNewPalette list s b) b (afterPalettes list s p b).2 := by
  have hpalettes : Store.ChangesOnly (IsPaletteFile list s b) b (afterPalettes list s p b).2 :=
    changesOnly_palettes hlibrary
  refine ⟨hpalettes.workingDirectory, fun l hl => ?_⟩
  have hpalette := hpalettes.changed l hl
  refine ⟨hpalette, fun hopens => ?_⟩
  have hseen := Store.Listing.hasEntries_eq hlist hopens
  obtain ⟨stack, hnormal, hruleSet⟩ := hplaces.ruleSet
  have hextends := extends_palettes (b := b) hnormal hruleSet hnames
  unfold afterPalettes at hextends hl
  rw [hseen] at hl
  exact ⟨hseen.symm.trans hpalette.1, hextends.kind?_of_changed hl⟩

namespace Ends

theorem eq_of_isOfLibrary (h : Ends list r s b (.error e) after) (he : e.isOfLibrary = true) :
    after = b := by
  cases h with
  | noLibrary => rfl
  | _ => cases he

theorem of_unsupported {format : Format}
    (h : Ends list r s b (.error (.unsupported format)) after) :
    r.format = format ∧ format ≠ .chart ∧
      ∃ p, libraryAt b s.places.library (s.selection Theme.day.palette) = .ok p ∧
        afterPalettes list s p b = (.ok (), after) := by
  cases h with
  | noLibrary _ he => cases he
  | unsupported p _ hlibrary hpalettes hformat => exact ⟨rfl, hformat, p, hlibrary, hpalettes⟩

theorem of_unreadable {directory : Path} {cause : FileError}
    (h : Ends list r s b (.error (.unreadable directory cause)) after) :
    ∃ p c, libraryAt b s.places.library (s.selection Theme.day.palette) = .ok p ∧
      afterPalettes list s p b = (.ok (), c) ∧ afterLayers list r s p c = (.ok (), after) := by
  cases h with
  | noLibrary _ he => cases he
  | noLevels p _ _ c _ hlibrary hpalettes hlayers => exact ⟨p, c, hlibrary, hpalettes, hlayers⟩

end Ends

/--
What a failure leaves behind. Without a library nothing is changed. A format that cannot be made is
told after the palettes, and a level that cannot be listed after the layers. What is changed are
rule files only, and no file of the map.
-/
theorem changed_of_failure {before : Store} {file resources : Path}
    (hload : (Settings.load before file resources).1 = .ok s) (hlist : list.IsFaithful)
    (hnames : ∀ p, libraryAt b s.places.library (s.selection Theme.day.palette) = .ok p →
      ∀ name ∈ p.palettes.keys, '/' ∉ name.toList)
    (hfail : (Job.run (generate r s list) b).1 = .error e) :
    let after := (Job.run (generate r s list) b).2.store
    (e.isOfLibrary = true → after = b) ∧
    (∀ format, e = .unsupported format → r.format = format ∧ format ≠ .chart ∧
      ∀ l, b.Changed after l → IsNewPalette list s b l) ∧
    (∀ directory cause, e = .unreadable directory cause →
      (∀ l, b.Changed after l → IsNewPalette list s b l ∨ IsLayerFile s b l) ∧
      ∀ p levels, ∀ f ∈ savedFiles p s levels, ¬b.Changed after (b.lexicalPlace f.1)) := by
  have hplaces := Settings.areNormal_of_load hload
  obtain ⟨hresult, hstore⟩ := Job.run_eq_make list r s b
  have hends := ends_make list r s b
  rw [← hresult, hfail] at hends
  rw [hstore]
  refine ⟨hends.eq_of_isOfLibrary, ?_, ?_⟩
  · rintro format rfl
    obtain ⟨hformat, hother, p, hlibrary, hpalettes⟩ := hends.of_unsupported
    have hchanged := changesOnly_newPalettes hplaces hlist (hnames p hlibrary) hlibrary
    rw [hpalettes] at hchanged
    exact ⟨hformat, hother, hchanged.changed⟩
  · rintro directory cause rfl
    obtain ⟨p, c, hlibrary, hpalettes, hlayers⟩ := hends.of_unreadable
    have hfirst := changesOnly_newPalettes hplaces hlist (hnames p hlibrary) hlibrary
    have hsecond := changesOnly_layers list r s p c
    rw [hpalettes] at hfirst
    rw [hlayers] at hsecond
    have hchanged := (hfirst.mono fun l hl => Or.inl hl).trans (hsecond.mono fun l hl =>
      Or.inr (isLayerFile_congr hfirst.workingDirectory hl))
    refine ⟨hchanged.changed, fun q levels f hf hl => ?_⟩
    obtain ⟨⟨-, -, -, name, -, heq⟩, -⟩ | ⟨g, -, heq⟩ := hchanged.changed _ hl
    · exact lexicalPlace_ne_of_mem_savedFiles hplaces hf _ _ heq
    · exact lexicalPlace_ne_of_mem_savedFiles hplaces hf _ _ heq

theorem changed_of_failure_third :
    let b := sampleStore "m" [sampleData]
    let s := sampleSettings b
    let list := Store.Listing.refusing ⟨"/d/CL3"⟩
    let after := (Job.run (generate (sampleRequest false) s list) b).2.store
    (Job.run (generate (sampleRequest false) s list) b).1 =
        .error (.unreadable ⟨"/d/CL3"⟩ .denied) ∧
      b.Changed after ["r", "rules", "layer_rules", "Point.txt"] ∧
      ∀ p levels, ∀ f ∈ savedFiles p s levels, ¬b.Changed after (b.lexicalPlace f.1) := by
  intro b s list after
  have hload : (Settings.load b ⟨"c"⟩ ⟨"/"⟩).1 = .ok s := load_sample (by decide +kernel)
  have hplain : Program.HasPlainNames
      (libraryAt b s.places.library (s.selection Theme.day.palette)) = true := by
    decide +kernel
  have hfail : (Job.run (generate (sampleRequest false) s list) b).1 =
      .error (.unreadable ⟨"/d/CL3"⟩ .denied) := by decide +kernel
  have hfailure := changed_of_failure hload (Store.Listing.isFaithful_refusing _)
    (fun p => Program.plain_of_hasPlainNames hplain) hfail
  exact ⟨hfail, by decide +kernel, (hfailure.2.2 _ _ rfl).2⟩

/--
A file that cannot be written ends a run after others of the map, and palettes replace those in a
directory that cannot be listed.
-/
theorem failure_after_map :
    (let b := sampleStore "m" [("m", .directory [("SeaChart_dusk.map", .directory [])])]
      let s := sampleSettings b
      let (result, progress) := Job.run (generate (sampleRequest true) s) b
      (Settings.load b ⟨"c"⟩ ⟨"/"⟩).1 = .ok s ∧
        Program.HasPlainNames (libraryAt b s.places.library (s.selection Theme.day.palette)) =
          true ∧
        result = .error (.unwritable ⟨"/m/SeaChart_dusk.map"⟩ .isDirectory) ∧
        b.Changed progress.store ["m", "SeaChart_day.map"]) ∧
    (let b := paletteStore "DAY" [("r", .directory [("rules", .directory [("color_tables",
        .directory [("DAY.txt", .file [0])])])])]
      let s := sampleSettings b
      let list := Store.Listing.refusing ⟨"/r/rules/color_tables"⟩
      let r := { sampleRequest false with format := .aml }
      let (result, progress) := Job.run (generate r s list) b
      (Settings.load b ⟨"c"⟩ ⟨"/"⟩).1 = .ok s ∧
        Program.HasPlainNames (libraryAt b s.places.library (s.selection Theme.day.palette)) =
          true ∧
        result = .error (.unsupported .aml) ∧
        (b.kind? ["r", "rules", "color_tables", "DAY.txt"]).isSome = true ∧
        b.Changed progress.store ["r", "rules", "color_tables", "DAY.txt"]) := by
  refine ⟨⟨load_sample (by decide +kernel), ?_⟩, load_sample (by decide +kernel), ?_⟩
  · decide +kernel
  · decide +kernel

end Failures

end Chart

end SeaChart
