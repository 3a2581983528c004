import Mathlib.Data.List.Basic
import SeaChart.Proofs.ChartFiles
import SeaChart.Proofs.RuleFiles
import SeaChart.Proofs.ShapefileNames

/-!
Runs without force. Nothing that is there is touched, and after success there is nothing left to do
for a second run, unless the first one made the map in the only shapefile of a level.
-/

namespace SeaChart

open SeaChart.Path RuleSet
open Shapefile (levelName IsNameAt)

namespace Chart

theorem libraryAt_extends {s t : Store} (h : s.Extends t) {path : Path} {selection : Selection}
    {p : Presentation} (hs : libraryAt s path selection = .ok p) :
    libraryAt t path selection = .ok p := by
  unfold libraryAt at hs ⊢
  split at hs
  · next hfile =>
    rw [if_pos (h.isFile hfile)]
    cases htext : s.readText path with
    | error cause => simp [htext] at hs
    | ok text =>
      rw [htext] at hs
      rw [h.readText htext]
      exact hs
  · cases hs

section Levels

variable {list : Store.Listing} {s t : Store} {data : Path} {level : Nat}

theorem filesAt_of_listed {found : List String}
    (hdirectory : s.isDirectory (data.below (levelName level)) = true)
    (h : list s (data.below (levelName level)) = .ok found) :
    (filesAt list s data level).Perm
      (Shapefile.filesOf s (data.below (levelName level)) level found) := by
  obtain ⟨log, hscan⟩ := Shapefile.scan_of_listed hdirectory h
  rw [filesAt_of_filesBy (filesBy_eq_ok_iff.mpr ⟨log, hscan⟩)]
  exact List.mergeSort_perm _ _

theorem filesAt_ne_nil_iff (hlist : list.IsFaithful)
    (hopens : list.Opens s (data.below (levelName level))) (hlevel : level < 10) :
    filesAt list s data level ≠ [] ↔ ∃ l e, s.locate (data.below (levelName level)) = .ok l ∧
      IsNameAt level e ∧ (s.kind? (l ++ [e])).isSome = true := by
  cases hdirectory : s.isDirectory (data.below (levelName level)) with
  | false =>
    constructor
    · intro hfiles
      have hscan : Shapefile.scan s data level list = .ok ([], []) := by
        simp only [Shapefile.scan]
        rw [if_neg (Bool.eq_false_iff.mp hdirectory)]
      exact absurd (filesAt_of_filesBy (filesBy_eq_ok_iff.mpr ⟨_, hscan⟩)) hfiles
    · rintro ⟨l, e, hlocate, -, hsome⟩
      have hkind : s.kind? l = some .directory := Store.kind?_eq_directory_of_append hsome
      rw [Store.isDirectory_iff.mpr ⟨l, hlocate, hkind⟩] at hdirectory
      cases hdirectory
  | true =>
    obtain ⟨found, hfound⟩ := hopens hdirectory
    obtain ⟨names, hnames, hperm⟩ := hlist hfound
    obtain ⟨l, hlocate, -, hmem⟩ := Store.mem_names_iff hnames
    have hfiles := filesAt_of_listed hdirectory hfound
    constructor
    · intro hne
      obtain ⟨f, hf⟩ := List.exists_mem_of_ne_nil _ hne
      obtain ⟨e, he, hentry⟩ := Shapefile.mem_filesOf_iff.mp (hfiles.subset hf)
      exact ⟨l, e, hlocate, (Shapefile.exists_ofEntry_iff.mp ⟨f, hentry⟩).2,
        (hmem e).mp (hperm.subset he)⟩
    · rintro ⟨l', e, hlocate', hname, hsome⟩
      obtain rfl : l = l' := Except.ok.inj (hlocate.symm.trans hlocate')
      obtain ⟨f, hentry⟩ := Shapefile.exists_ofEntry_iff.mpr ⟨hlevel, hname⟩
      have hf := Shapefile.mem_filesOf_iff.mpr
        ⟨e, hperm.symm.subset ((hmem e).mpr hsome), hentry⟩
      exact List.ne_nil_of_mem (hfiles.symm.subset hf)

end Levels

section RuleSet

variable {b t : Store} {k n : String} {stack : List Component}

theorem saveUnless_again (h : IsNormal (.name k :: stack)) {skip : Bool}
    {files : List (Path × String)}
    (hskip : skip = b.hasEntries (ofStack (.name k :: stack)))
    (hfiles : ∀ f ∈ files, ∃ n, IsName n ∧ f.1 = ofStack (.name n :: .name k :: stack))
    (hok : b.saveUnless skip files = (.ok (), t)) {u : Store} (hext : t.Extends u) :
    u.saveUnless (u.hasEntries (ofStack (.name k :: stack))) files = (.ok (), u) := by
  have hpaths : ∀ f ∈ files, f.1.IsFilePath := fun f hf =>
    let ⟨n, hn, heq⟩ := hfiles f hf
    ⟨n, _, .name hn h, heq⟩
  cases files with
  | nil => cases u.hasEntries (ofStack (.name k :: stack)) <;> rfl
  | cons f files =>
    have hentries : t.hasEntries (ofStack (.name k :: stack)) = true := by
      unfold Store.saveUnless at hok
      split at hok
      · next hskipped =>
        obtain rfl : b = t := (Prod.mk.inj hok).2
        rw [← hskip, hskipped]
      · obtain ⟨n, hn, heq⟩ := hfiles f List.mem_cons_self
        have hthere := Store.contains_of_saveAll hok hpaths List.mem_cons_self
        exact hasEntries_of_contains h hn (heq ▸ hthere)
    simp [Store.saveUnless, hext.hasEntries hentries]

theorem afterPalettes_again {s : Settings} {p : Presentation} {u : Store} (h : IsNormal stack)
    (hruleSet : s.places.ruleSet = ofStack stack)
    (hnames : ∀ name ∈ p.palettes.keys, '/' ∉ name.toList)
    (hok : afterPalettes Store.names s p b = (.ok (), t)) (hext : t.Extends u) :
    afterPalettes Store.names s p u = (.ok (), u) := by
  have hdirectory : paletteDirectory (ofStack stack) = ofStack (.name "color_tables" :: stack) :=
    below_ofStack h isName_paletteDirectory
  unfold afterPalettes at hok ⊢
  rw [hruleSet, hdirectory] at hok ⊢
  exact saveUnless_again (.name isName_paletteDirectory h) rfl
    (fun f hf => exists_palettePlace h hnames hf) hok hext

theorem afterLayers_again {r : Request} {s : Settings} {p : Presentation} {u : Store}
    (hforce : r.force = false) (h : IsNormal stack) (hruleSet : s.places.ruleSet = ofStack stack)
    (hok : afterLayers Store.names r s p b = (.ok (), t)) (hext : t.Extends u) :
    afterLayers Store.names r s p u = (.ok (), u) := by
  have hdirectory : layerDirectory (ofStack stack) = ofStack (.name "layer_rules" :: stack) :=
    below_ofStack h isName_layerDirectory
  unfold afterLayers at hok ⊢
  rw [hruleSet, hdirectory, hforce, Bool.not_false, Bool.and_true] at hok ⊢
  exact saveUnless_again (.name isName_layerDirectory h) rfl
    (fun f hf => exists_layerPlace h hf) hok hext

theorem prepare_again {r : Request} {s : Settings} {p : Presentation} {mid after : Store}
    (hforce : r.force = false) (h : IsNormal stack) (hruleSet : s.places.ruleSet = ofStack stack)
    (hnames : ∀ name ∈ p.palettes.keys, '/' ∉ name.toList)
    (hprepare : prepare Store.names r s b = (.ok p, mid)) (hb : b.Extends after)
    (hmid : mid.Extends after) : prepare Store.names r s after = (.ok p, after) := by
  have hlibrary := libraryAt_extends hb (libraryAt_of_prepare hprepare)
  unfold prepare at hprepare ⊢
  -- Each step of the first time leaves behind what the same step looks for the second time.
  obtain ⟨q, c, -, hprepare⟩ := andThen_eq_ok hprepare
  obtain ⟨⟨⟩, d, hfirst, hprepare⟩ := andThen_eq_ok hprepare
  obtain ⟨⟨⟩, e, hformat, hprepare⟩ := andThen_eq_ok hprepare
  obtain ⟨⟨⟩, u, hsecond, hdone⟩ := andThen_eq_ok hprepare
  obtain ⟨hq, rfl⟩ := Prod.mk.inj hdone
  obtain rfl : q = p := Except.ok.inj hq
  have hchart : r.format = .chart ∧ e = d := by
    by_cases hchart : r.format = .chart
    · simp only [hchart, ne_eq, not_true_eq_false, if_false, Prod.mk.injEq] at hformat
      exact ⟨hchart, hformat.2.symm⟩
    · simp [hchart] at hformat
  obtain ⟨hchart, rfl⟩ := hchart
  have hext : e.Extends after := by
    have hsaved := extends_layers q hforce h hruleSet (b := e)
    rw [hsecond] at hsaved
    exact hsaved.trans hmid
  have hread : (libraryAt after s.places.library (s.selection Theme.day.palette), after) =
      (.ok q, after) := by
    rw [hlibrary]
  have hformatAgain : (if r.format ≠ .chart then (.error (.unsupported r.format), after)
      else (.ok (), after) : Except GenerateError Unit × Store) = (.ok (), after) :=
    if_neg (not_not.mpr hchart)
  have hpalettesAgain := afterPalettes_again h hruleSet hnames hfirst hext
  have hlayersAgain := afterLayers_again hforce h hruleSet hsecond hmid
  exact (andThen_of_eq hread).trans ((andThen_of_eq hpalettesAgain).trans
    ((andThen_of_eq hformatAgain).trans (andThen_of_eq hlayersAgain)))

end RuleSet

section Map

variable {list : Store.Listing} {p : Presentation} {s : Settings} {levels : Levels}
  {mid after : Store} {level : Nat} {stack above : List Component}

theorem suffix_of_isNameAt {e : String} (h : IsNameAt level e) :
    Shapefile.suffix.toList <:+ e.toList := by
  obtain ⟨g, feature, -, -, rfl⟩ := h
  rw [String.toList_append]
  exact List.suffix_append _ _

theorem shapefile_of_saved (h : IsNormal stack) (hmap : s.places.map = ofStack stack)
    (hok : mid.saveAll false (savedFiles p s levels) = (.ok (), after)) {l : Location} {e : String}
    (hname : IsNameAt level e) (hsome : (after.kind? (l ++ [e])).isSome = true) :
    (mid.kind? (l ++ [e])).isSome = true ∨ l ++ [e] <+: mid.place stack := by
  by_cases hway : ∃ g ∈ texts p s levels, l ++ [e] <+: mid.place stack ++ g.1
  · obtain ⟨g, hg, hle⟩ := hway
    refine Or.inr ?_
    -- An entry on the way to a file is above the map or part of it, and no part has such a name.
    rcases List.prefix_or_prefix_of_prefix hle (List.prefix_append _ _) with hle | ⟨names, hnames⟩
    · exact hle
    · rcases List.eq_nil_or_concat' names with rfl | ⟨front, last, rfl⟩
      · have heq : mid.place stack = l ++ [e] := by simpa using hnames
        exact heq ▸ List.prefix_refl _
      · rw [← List.append_assoc] at hnames
        obtain ⟨rfl, hlast⟩ := List.append_inj' hnames rfl
        obtain rfl : last = e := List.singleton_inj.mp hlast
        rw [List.append_assoc, List.prefix_append_right_inj] at hle
        have hmem : last ∈ g.1 := hle.subset (by simp)
        exact absurd (suffix_of_isNameAt hname) ((isMapFile_of_mem_texts hg).not_suffix hmem)
  · have hkept := Store.kind?_saveAll (s := mid) (m := l ++ [e]) false fun f hf => by
      obtain ⟨g, hg, rfl⟩ := exists_text h hmap hf
      have hfile := isMapFile_of_mem_texts hg
      obtain ⟨n, rest, hstack, hnormal⟩ := exists_stackOn h hfile.isName hfile.ne_nil
      refine ⟨n, rest, hnormal, congrArg ofStack hstack, fun hle => hway ⟨g, hg, ?_⟩⟩
      rwa [← hstack, place_stackOn] at hle
    rw [hok] at hkept
    exact Or.inl (hkept ▸ hsome)

/-- A level in which the map stands below what looks like a shapefile has shapefiles. -/
def LevelsStay (list : Store.Listing) (s : Settings) (mid : Store) : Prop :=
  ∀ level ∈ Level.all.map Prod.fst, ∀ e, IsNameAt level e →
    s.places.data.components ++ [.name (levelName level), .name e] <+: s.places.map.components →
      ∃ f files log, Shapefile.scan mid s.places.data level list = .ok (f :: files, log)

def OpensLevels (list : Store.Listing) (s : Settings) (b : Store) : Prop :=
  ∀ level ∈ Level.all, list.Opens b (s.places.data.below (levelName level.1))

theorem opensLevels_of_levelsBy {b : Store}
    (h : levelsBy list b s.places.data Level.all = .ok levels) : OpensLevels list s b :=
  fun level hlevel => opens_iff.mpr ((levelsBy_eq_ok h).2 level hlevel)

theorem levelsBy_of_opensLevels {b : Store} (h : OpensLevels list s b) :
    levelsBy list b s.places.data Level.all = .ok (levelsAt list b s.places.data Level.all) :=
  levelsBy_of_scanned fun level hlevel => opens_iff.mp (h level hlevel)

theorem isName_level (level : Nat) : IsName (levelName level) := by
  simpa using isName_levelName level "" (by decide)

theorem filesAt_of_saved (hlist : list.IsFaithful) (hmid : OpensLevels list s mid)
    (hafter : OpensLevels list s after) (h : IsNormal stack) (hroot : .root ∈ stack)
    (hmap : s.places.map = ofStack stack) (habove : IsNormal above) (hroot' : .root ∈ above)
    (hdata : s.places.data = ofStack above)
    (hok : mid.saveAll false (savedFiles p s levels) = (.ok (), after))
    (hstay : LevelsStay list s mid) (hlevel : level ∈ Level.all.map Prod.fst)
    (hfiles : filesAt list after s.places.data level ≠ []) :
    filesAt list mid s.places.data level ≠ [] := by
  have hdigit : level < 10 := by
    have hall : ∀ l ∈ Level.all.map Prod.fst, l < 10 := by decide
    exact hall level hlevel
  have hopens : list.Opens mid (s.places.data.below (levelName level)) ∧
      list.Opens after (s.places.data.below (levelName level)) := by
    obtain ⟨l, hl, rfl⟩ := List.mem_map.mp hlevel
    exact ⟨hmid l hl, hafter l hl⟩
  have hnormal : IsNormal (.name (levelName level) :: above) := .name (isName_level level) habove
  have hdirectory : s.places.data.below (levelName level) =
      ofStack (.name (levelName level) :: above) := by
    rw [hdata, below_ofStack habove (isName_level level)]
  obtain ⟨l, e, hlocate, hname, hsome⟩ := (filesAt_ne_nil_iff hlist hopens.2 hdigit).mp hfiles
  rw [hdirectory] at hlocate
  rcases shapefile_of_saved h hmap hok hname hsome with hbefore | hle
  · have hkind : (mid.kind? l).isSome = true := by
      rw [Store.kind?_eq_directory_of_append hbefore]
      rfl
    refine (filesAt_ne_nil_iff hlist hopens.1 hdigit).mpr ⟨l, e, ?_, hname, hbefore⟩
    rw [hdirectory]
    exact Store.locate_of_rooted hnormal hroot' hlocate hkind
  · obtain ⟨-, -, rfl, -⟩ := (Store.locate_eq_ok_iff hnormal).mp hlocate
    have hplace : after.place (.name (levelName level) :: above) ++ [e] =
        mid.place above ++ [levelName level, e] := by
      simp [Store.place, Store.place_of_rooted (s := after) (t := mid) habove hroot']
    have hprefix : s.places.data.components ++ [.name (levelName level), .name e] <+:
        s.places.map.components := by
      rw [hplace] at hle
      rw [hdata, hmap, components_ofStack habove, components_ofStack h,
        Store.reverse_eq_place (s := mid) habove hroot',
        Store.reverse_eq_place (s := mid) h hroot]
      simpa using List.IsPrefix.map Component.name hle
    obtain ⟨f, files, log, hscan⟩ := hstay level hlevel e hname hprefix
    rw [filesAt_of_filesBy (filesBy_eq_ok_iff.mpr ⟨log, hscan⟩)]
    exact List.cons_ne_nil f files

theorem contains_again (hlist : list.IsFaithful) (hmid : OpensLevels list s mid)
    (hafter : OpensLevels list s after) (h : IsNormal stack) (hroot : .root ∈ stack)
    (hmap : s.places.map = ofStack stack) (habove : IsNormal above) (hroot' : .root ∈ above)
    (hdata : s.places.data = ofStack above) (hstay : LevelsStay list s mid)
    (hok : mid.saveAll false (savedFiles p s (levelsAt list mid s.places.data Level.all)) =
      (.ok (), after)) :
    ∀ f ∈ savedFiles p s (levelsAt list after s.places.data Level.all),
      after.contains f.1 = true := by
  have hthere {g : Path × String}
      (hg : g ∈ savedFiles p s (levelsAt list mid s.places.data Level.all)) :
      after.contains g.1 = true :=
    Store.contains_of_saveAll hok (isFilePath_savedFiles h hmap) hg
  intro f hf
  rcases mem_savedFiles_iff.mp hf with ⟨t, ht, ⟨level, l⟩, hl, rfl⟩ | ⟨t, ht, rfl⟩ | ⟨t, ht, rfl⟩
  · -- The place of a level's file depends only on the number of the level.
    have hnumber := List.mem_map_of_mem (f := Prod.fst) hl
    rw [numbers_levelsAt, List.mem_filter] at hnumber
    obtain ⟨hlevel, hfiles⟩ := hnumber
    have hbefore := filesAt_of_saved hlist hmid hafter h hroot hmap habove hroot' hdata hok hstay
      hlevel (by simpa using hfiles)
    have hnumber : level ∈ (levelsAt list mid s.places.data Level.all).map Prod.fst := by
      rw [numbers_levelsAt, List.mem_filter]
      exact ⟨hlevel, by simpa using hbefore⟩
    obtain ⟨⟨_, l'⟩, hl', rfl⟩ := List.mem_map.mp hnumber
    have hsaved := hthere (mem_savedFiles_iff.mpr (Or.inl ⟨t, ht, _, hl', rfl⟩))
    simpa only [levelFile] using hsaved
  · have hsaved := hthere (mem_savedFiles_iff.mpr (Or.inr (Or.inl ⟨t, ht, rfl⟩)))
    simpa only [mainFile] using hsaved
  · have hsaved := hthere (mem_savedFiles_iff.mpr (Or.inr (Or.inr ⟨t, ht, rfl⟩)))
    simpa only [symbolFile] using hsaved

end Map

section Make

variable {list : Store.Listing} {b : Store} {r : Request} {s : Settings}

/-- Listings that tell what is there, open the rule set, and go on to open what they open. -/
structure Sees (list : Store.Listing) (s : Settings) (b : Store) : Prop where
  faithful : list.IsFaithful
  steady : list.IsSteady b
  palettes : list.Opens b (paletteDirectory s.places.ruleSet)
  layers : list.Opens b (layerDirectory s.places.ruleSet)

theorem Sees.trans (h : Sees list s b) {after : Store} (hextends : b.Extends after) :
    Sees list s after where
  faithful := h.faithful
  steady hs ht hopens := h.steady (hextends.trans hs) ht hopens
  palettes := h.steady (.refl b) hextends h.palettes
  layers := h.steady (.refl b) hextends h.layers

theorem Sees.prepare_eq (h : Sees list s b) (hplaces : s.places.AreNormal)
    (hnames : ∀ p, libraryAt b s.places.library (s.selection Theme.day.palette) = .ok p →
      ∀ name ∈ p.palettes.keys, '/' ∉ name.toList) :
    prepare list r s b = prepare Store.names r s b := by
  obtain ⟨rules, hrules, hruleSet⟩ := hplaces.ruleSet
  exact Chart.prepare_eq h.faithful h.steady hrules hruleSet hnames h.palettes h.layers

theorem extends_make (hlist : Sees list s b) (hforce : r.force = false)
    (hplaces : s.places.AreNormal)
    (hnames : ∀ p, libraryAt b s.places.library (s.selection Theme.day.palette) = .ok p →
      ∀ name ∈ p.palettes.keys, '/' ∉ name.toList) : b.Extends (make list r s b).2 := by
  obtain ⟨stack, hnormal, -, hmap⟩ := hplaces.map
  obtain ⟨rules, hrules, hruleSet⟩ := hplaces.ruleSet
  have hprepared := extends_prepare hforce hrules hruleSet hnames
  rw [← hlist.prepare_eq hplaces hnames] at hprepared
  unfold make
  refine andThen_related (R := Store.Extends) .trans hprepared fun p c _ => ?_
  refine andThen_related (R := Store.Extends) .trans (.refl c) fun levels d _ => ?_
  rw [hforce]
  exact Store.extends_saveAll (isFilePath_savedFiles hnormal hmap)

theorem make_again {after : Store} (hlist : Sees list s b) (hforce : r.force = false)
    (hplaces : s.places.AreNormal)
    (hnames : ∀ p, libraryAt b s.places.library (s.selection Theme.day.palette) = .ok p →
      ∀ name ∈ p.palettes.keys, '/' ∉ name.toList)
    (hstay : LevelsStay list s (prepare list r s b).2)
    (hok : make list r s b = (.ok (), after)) : make list r s after = (.ok (), after) := by
  obtain ⟨stack, hnormal, hroot, hmap⟩ := hplaces.map
  obtain ⟨above, habove, hroot', hdata⟩ := hplaces.data
  obtain ⟨rules, hrules, hruleSet⟩ := hplaces.ruleSet
  obtain ⟨p, mid, hprepare, hlooked, hsaved⟩ := make_eq_ok hok
  have hb : b.Extends after := by
    have hmade := extends_make hlist hforce hplaces hnames
    rwa [hok] at hmade
  have hfirst : b.Extends mid := by
    have hprepared := extends_prepare hforce hrules hruleSet hnames
    rwa [← hlist.prepare_eq hplaces hnames, hprepare] at hprepared
  have hmid : mid.Extends after := by
    have hpaths : ∀ f ∈ savedFiles p s (levelsAt list mid s.places.data Level.all),
        f.1.IsFilePath := isFilePath_savedFiles hnormal hmap
    have hextends := Store.extends_saveAll (s := mid) hpaths
    rwa [← hforce, hsaved] at hextends
  have hlibrary := libraryAt_of_prepare hprepare
  have hagain : prepare list r s after = (.ok p, after) := by
    rw [(hlist.trans hb).prepare_eq hplaces fun q hq => ?names]
    case names =>
      obtain rfl := Except.ok.inj ((libraryAt_extends hb hlibrary).symm.trans hq)
      exact hnames p hlibrary
    rw [hlist.prepare_eq hplaces hnames] at hprepare
    exact prepare_again hforce hrules hruleSet (hnames p hlibrary) hprepare hb hmid
  have hopens := opensLevels_of_levelsBy hlooked
  have hopens' : OpensLevels list s after := fun level hlevel =>
    hlist.steady hfirst hmid (hopens level hlevel)
  rw [hprepare] at hstay
  rw [hforce] at hsaved
  have hlooked' : (levelsBy list after s.places.data Level.all, after) =
      (.ok (levelsAt list after s.places.data Level.all), after) := by
    rw [levelsBy_of_opensLevels hopens']
  refine (andThen_of_eq hagain).trans ((andThen_of_eq hlooked').trans ?_)
  rw [hforce]
  exact Store.saveAll_of_contains (contains_again hlist.faithful hopens hopens' hnormal hroot hmap
    habove hroot' hdata hstay hsaved)

end Make

end Chart

namespace Program

open Chart

variable {list : Store.Listing} {usualResources : String} {arguments : List String} {b : Store}

theorem extends_run (hforce : ∀ r, CommandLine.read usualResources arguments = .ok r →
      r.force = false)
    (hlist : ∀ r s, CommandLine.read usualResources arguments = .ok r →
      (Settings.load b ⟨r.settingsFile⟩ ⟨r.resources⟩).1 = .ok s → Sees list s b)
    (hnames : ∀ r s p, CommandLine.read usualResources arguments = .ok r →
      (Settings.load b ⟨r.settingsFile⟩ ⟨r.resources⟩).1 = .ok s →
      libraryAt b s.places.library (s.selection Theme.day.palette) = .ok p →
      ∀ name ∈ p.palettes.keys, '/' ∉ name.toList) :
    b.Extends (Program.run usualResources arguments b list).store := by
  cases harguments : CommandLine.read usualResources arguments with
  | error e =>
    simp only [Program.run, harguments, Program.refuse]
    exact .refl b
  | ok r =>
    cases hsettings : (Settings.load b ⟨r.settingsFile⟩ ⟨r.resources⟩).1 with
    | error e =>
      simp only [Program.run, harguments, hsettings]
      exact .refl b
    | ok s =>
      rw [(Program.run_eq_make list harguments hsettings).1]
      exact extends_make (hlist r s harguments hsettings) (hforce r harguments)
        (Settings.areNormal_of_load hsettings) fun p => hnames r s p harguments hsettings

/--
A run without force keeps every file, whether or not it succeeds, if it can list what the rule set
has. After success a second run succeeds too and changes nothing.
-/
theorem run_unforced (hforce : ∀ r, CommandLine.read usualResources arguments = .ok r →
      r.force = false)
    (hlist : ∀ r s, CommandLine.read usualResources arguments = .ok r →
      (Settings.load b ⟨r.settingsFile⟩ ⟨r.resources⟩).1 = .ok s → Sees list s b)
    (hnames : ∀ r s p, CommandLine.read usualResources arguments = .ok r →
      (Settings.load b ⟨r.settingsFile⟩ ⟨r.resources⟩).1 = .ok s →
      libraryAt b s.places.library (s.selection Theme.day.palette) = .ok p →
      ∀ name ∈ p.palettes.keys, '/' ∉ name.toList) :
    let after := (Program.run usualResources arguments b list).store
    (∀ l contents, b.root.find? l = some (.file contents) →
      after.root.find? l = some (.file contents)) ∧
    ∀ r s, CommandLine.read usualResources arguments = .ok r →
      (Settings.load b ⟨r.settingsFile⟩ ⟨r.resources⟩).1 = .ok s →
      LevelsStay list s (prepare list r s b).2 →
      (Program.run usualResources arguments b list).exitCode = 0 →
      (Program.run usualResources arguments after list).exitCode = 0 ∧
        (Program.run usualResources arguments after list).store = after := by
  have hextends := extends_run hforce hlist hnames
  refine ⟨fun l contents hfile => ?_, fun r s harguments hsettings hstay hok => ?_⟩
  · exact Store.kind?_eq_file_iff.mp (hextends.kept l _ (Store.kind?_eq_file_iff.mpr hfile))
  · obtain ⟨hstore, hexit⟩ := Program.run_eq_make list harguments hsettings
    have hmade := make_again (hlist r s harguments hsettings) (hforce r harguments)
      (Settings.areNormal_of_load hsettings) (fun p => hnames r s p harguments hsettings) hstay
      (Prod.ext (hexit.mp hok) hstore.symm)
    obtain ⟨hstore', hexit'⟩ :=
      Program.run_eq_make list harguments (Settings.load_extends hextends hsettings)
    rw [hmade] at hstore' hexit'
    exact ⟨hexit'.mpr rfl, hstore'⟩

theorem run_unforced_sample :
    let b := sampleStore "m" [sampleData]
    let s := sampleSettings b
    let after := (Program.run "/" ["c"] b).store
    (CommandLine.read "/" ["c"] = .ok (sampleRequest false) ∧
      (Settings.load b ⟨"c"⟩ ⟨"/"⟩).1 = .ok s ∧ Sees Store.names s b ∧
      HasPlainNames (libraryAt b s.places.library (s.selection Theme.day.palette)) = true ∧
      LevelsStay Store.names s (prepare Store.names (sampleRequest false) s b).2 ∧
      (Program.run "/" ["c"] b).exitCode = 0) ∧
    after.isFile ⟨"/m/includes/day/CL3.map"⟩ = true ∧
    (Program.run "/" ["c"] after).exitCode = 0 ∧ (Program.run "/" ["c"] after).store = after := by
  intro b s after
  have hsettings : (Settings.load b ⟨"c"⟩ ⟨"/"⟩).1 = .ok s := load_sample (by decide +kernel)
  have hplain : HasPlainNames (libraryAt b s.places.library (s.selection Theme.day.palette)) =
      true := by decide +kernel
  have hok : (Program.run "/" ["c"] b).exitCode = 0 ∧
      after.isFile ⟨"/m/includes/day/CL3.map"⟩ = true := by decide +kernel
  have hplaces : s.places.data.components.length = 2 ∧ s.places.map.components.length = 2 := by
    decide +kernel
  have hstay : LevelsStay Store.names s (prepare Store.names (sampleRequest false) s b).2 := by
    intro level _ e _ hle
    have hlength := hle.length_le
    simp [hplaces] at hlength
  have hsees (s : Settings) : Sees Store.names s b :=
    ⟨Store.Listing.isFaithful_names, Store.Listing.isSteady_names b,
      Store.Listing.opens_names b _, Store.Listing.opens_names b _⟩
  have hforce (r : Request) (hr : CommandLine.read "/" ["c"] = .ok r) : r.force = false := by
    obtain rfl := Except.ok.inj (read_sample.symm.trans hr)
    rfl
  have hrun := run_unforced (b := b) hforce (fun _ s' _ _ => hsees s') fun r s' p hr hs hp => by
    obtain rfl := Except.ok.inj (read_sample.symm.trans hr)
    obtain rfl := Except.ok.inj (hsettings.symm.trans hs)
    exact plain_of_hasPlainNames hplain hp
  exact ⟨⟨read_sample, hsettings, hsees s, hplain, hstay, hok.1⟩, hok.2,
    hrun.2 _ _ read_sample hsettings hstay hok.1⟩

/--
A map in the place of a shapefile is found as one by the second run, and a directory of palettes
that cannot be listed is written over.
-/
theorem unforced_run_changes :
    (let b := sampleStore "d/CL3/CL3-Point-A.shp" []
      let s := sampleSettings b
      let after := (Program.run "/" ["c"] b).store
      CommandLine.read "/" ["c"] = .ok (sampleRequest false) ∧
        (Settings.load b ⟨"c"⟩ ⟨"/"⟩).1 = .ok s ∧
        HasPlainNames (libraryAt b s.places.library (s.selection Theme.day.palette)) = true ∧
        (Program.run "/" ["c"] b).exitCode = 0 ∧
        after.isFile ⟨"d/CL3/CL3-Point-A.shp/includes/day/CL3.map"⟩ = false ∧
        (Program.run "/" ["c"] after).store.isFile
          ⟨"d/CL3/CL3-Point-A.shp/includes/day/CL3.map"⟩ = true) ∧
    (let b := paletteStore "DAY" [("r", .directory [("rules", .directory [("color_tables",
        .directory [("DAY.txt", .file [0])])])])]
      let s := sampleSettings b
      let list := Store.Listing.refusing ⟨"/r/rules/color_tables"⟩
      CommandLine.read "/" ["c"] = .ok (sampleRequest false) ∧
        (Settings.load b ⟨"c"⟩ ⟨"/"⟩).1 = .ok s ∧
        HasPlainNames (libraryAt b s.places.library (s.selection Theme.day.palette)) = true ∧
        b.kind? ["r", "rules", "color_tables", "DAY.txt"] = some (.file [0]) ∧
        (Program.run "/" ["c"] b list).store.kind? ["r", "rules", "color_tables", "DAY.txt"] =
          some (.file [])) := by
  constructor
  · intro b s after
    have hsettings : (Settings.load b ⟨"c"⟩ ⟨"/"⟩).1 = .ok s := load_sample (by decide +kernel)
    refine ⟨read_sample, hsettings, ?_⟩
    decide +kernel
  · intro b s list
    have hsettings : (Settings.load b ⟨"c"⟩ ⟨"/"⟩).1 = .ok s := load_sample (by decide +kernel)
    refine ⟨read_sample, hsettings, ?_⟩
    decide +kernel

end Program

end SeaChart
