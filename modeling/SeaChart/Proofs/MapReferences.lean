import Mathlib.Data.List.Basic
import SeaChart.Proofs.ChartFiles
import SeaChart.Proofs.MapEntries
import SeaChart.Proofs.RuleFiles

namespace SeaChart

open SeaChart.Path

open Mapfile (entries)

namespace Chart

section Levels

variable {b : Store} {data : Path}

structure Levels.AreAt (levels : Levels) (list : Store.Listing) (b : Store) (data : Path) :
    Prop where
  ascending : (levels.map Prod.fst).Pairwise (· < ·)
  complete : ∀ level ∈ Level.all.map Prod.fst, ∀ f files log,
    Shapefile.scan b data level list = .ok (f :: files, log) → level ∈ levels.map Prod.fst
  scanned : ∀ l ∈ levels, (l.1, l.2.1) ∈ Level.all ∧ l.2.2 ≠ [] ∧
    ∃ log, Shapefile.scan b data l.1 list = .ok (l.2.2, log)

theorem areAt_levelsAt {list : Store.Listing}
    (h : ∀ level ∈ Level.all, ∃ files, filesBy list b data level.1 = .ok files) :
    (levelsAt list b data Level.all).AreAt list b data where
  ascending := by
    rw [numbers_levelsAt]
    exact List.Pairwise.filter _ (by decide)
  complete level hlevel f files log hscan := by
    rw [numbers_levelsAt, List.mem_filter,
      filesAt_of_filesBy (filesBy_eq_ok_iff.mpr ⟨log, hscan⟩)]
    exact ⟨hlevel, rfl⟩
  scanned l hl := by
    simp only [levelsAt, List.mem_filter, List.mem_map] at hl
    obtain ⟨⟨⟨level, maxScale⟩, hlevel, rfl⟩, hfiles⟩ := hl
    obtain ⟨files, hscanned⟩ := h _ hlevel
    obtain ⟨log, hscan⟩ := filesBy_eq_ok_iff.mp hscanned
    refine ⟨hlevel, by simpa using hfiles, log, ?_⟩
    rw [hscan, filesAt_of_filesBy hscanned]

end Levels

section Files

variable {p : Presentation} {s : Settings} {levels : Levels} {t : Theme}

def references (text : String) : List String :=
  entries "INCLUDE" text ++ entries "SYMBOLSET" text

theorem exists_file_of_reference {stack : List Component} (h : IsNormal stack)
    (hmap : s.places.map = ofStack stack) (ht : t ∈ Theme.all)
    (hdata : '\n' ∉ s.places.data.text.toList) {path : String}
    (hpath : path ∈
      references (MainMap.text (p.withPalette t.palette) s t (levels.map Prod.fst))) :
    ∃ f ∈ savedFiles p s levels, f.1 = s.places.map.below path := by
  simp only [references, MainMap.entries_include ht hdata, MainMap.entries_symbolSet ht hdata,
    List.mem_append, List.mem_map, List.mem_singleton] at hpath
  rcases hpath with ⟨level, ⟨l, hl, rfl⟩, rfl⟩ | rfl
  · exact ⟨_, mem_savedFiles_iff.mpr (Or.inl ⟨t, ht, l, hl, rfl⟩), rfl⟩
  · refine ⟨_, mem_savedFiles_iff.mpr (Or.inr (Or.inr ⟨t, ht, rfl⟩)), ?_⟩
    rw [hmap, below_symbolSetPath h ht]
    rfl

end Files

section Run

variable {p : Presentation} {s : Settings} {levels : Levels} {t : Theme} {stack : List Component}
  {r : Request} {before mid after : Store}

structure IsCurrent (after : Store) (p : Presentation) (s : Settings) (levels : Levels)
    (t : Theme) : Prop where
  main : after.read (mainPath s.places.map t) = .ok (Text.encodeUtf8
    (MainMap.text (p.withPalette t.palette) s t (levels.map Prod.fst)))
  levels : ∀ l ∈ levels, after.read (s.places.map.below (MainMap.includePath t l.1)) =
    .ok (Text.encodeUtf8 (Level.text (p.withPalette t.palette) l.1 l.2.1 l.2.2))
  symbols : after.read (symbolPath s.places.map t) =
    .ok (Text.encodeUtf8 (SymbolSet.text (p.withPalette t.palette) t))

theorem isCurrent_of_read
    (h : ∀ f ∈ savedFiles p s levels, after.read f.1 = .ok (Text.encodeUtf8 f.2))
    (ht : t ∈ Theme.all) : IsCurrent after p s levels t where
  main := by
    have hmain := h _ (mem_savedFiles_iff.mpr (Or.inr (Or.inl ⟨t, ht, rfl⟩)))
    simpa only [mainFile] using hmain
  levels := by
    rintro ⟨level, maxScale, files⟩ hl
    have hlevel := h _ (mem_savedFiles_iff.mpr (Or.inl ⟨t, ht, _, hl, rfl⟩))
    simpa only [levelFile] using hlevel
  symbols := by
    have hsymbols := h _ (mem_savedFiles_iff.mpr (Or.inr (Or.inr ⟨t, ht, rfl⟩)))
    simpa only [symbolFile] using hsymbols

theorem isFile_of_read {path : Path} {contents : Text.Bytes} (h : after.read path = .ok contents) :
    after.isFile path = true := by
  obtain ⟨l, hlocate, hkind⟩ := Store.read_eq_ok_iff.mp h
  exact Store.isFile_iff.mpr ⟨l, contents, hlocate, hkind⟩

theorem not_isRuleName_map (name : String) : ¬IsRuleName (name ++ ".map") :=
  not_suffix_append (by decide) (by decide) name

theorem directory_of_new_main (h : IsNormal stack) (hroot : .root ∈ stack)
    (hdiffers : before.DiffersBy IsRuleName mid) (ht : t ∈ Theme.all)
    (habsent : before.contains (mainPath (ofStack stack) t) = false) {l : Location} {k : Kind}
    (hlocate : mid.locate (mainPath (ofStack stack) t) = .ok l) (hk : mid.kind? l = some k) :
    k = .directory := by
  have hnormal : IsNormal (.name ("SeaChart_" ++ t.name ++ ".map") :: stack) :=
    .name (isName_theme t ht).2.1 h
  have hpath : mainPath (ofStack stack) t =
      ofStack (.name ("SeaChart_" ++ t.name ++ ".map") :: stack) := mainPath_ofStack h ht
  rw [hpath] at habsent hlocate
  rcases hdiffers.kind? l with hold | hnew | ⟨n, hlast, hn⟩
  · have hsome : (before.kind? l).isSome = true := Option.isSome_of_eq_some (hold.symm.trans hk)
    have hthere := Store.locate_of_rooted hnormal hroot hlocate hsome
    rw [Store.contains_iff.mpr ⟨l, hthere, hsome⟩] at habsent
    cases habsent
  · exact Option.some_inj.mp (hk.symm.trans hnew)
  · obtain ⟨-, -, rfl, -⟩ := (Store.locate_eq_ok_iff hnormal).mp hlocate
    obtain rfl : "SeaChart_" ++ t.name ++ ".map" = n := by simpa [Store.place] using hlast
    exact absurd hn (not_isRuleName_map _)

theorem read_of_force (h : IsNormal stack) (hroot : .root ∈ stack)
    (hmap : s.places.map = ofStack stack) (hdistinct : (levels.map Prod.fst).Nodup)
    (hok : mid.saveAll true (savedFiles p s levels) = (.ok (), after)) :
    ∀ f ∈ savedFiles p s levels, after.read f.1 = .ok (Text.encodeUtf8 f.2) := by
  intro f hf
  rcases saved_or_kept h hroot hmap hdistinct hok hf with hread | ⟨hforce, -⟩
  · exact hread
  · cases hforce

theorem isFile_or_isDirectory (h : IsNormal stack) (hroot : .root ∈ stack)
    (hmap : s.places.map = ofStack stack) (hdistinct : (levels.map Prod.fst).Nodup)
    (hok : mid.saveAll false (savedFiles p s levels) = (.ok (), after)) {f : Path × String}
    (hf : f ∈ savedFiles p s levels) :
    after.isFile f.1 = true ∨ mid.isDirectory f.1 = true := by
  rcases saved_or_kept h hroot hmap hdistinct hok hf with hread | ⟨-, l, k, hmid, hafter, hk, hk'⟩
  · exact Or.inl (isFile_of_read hread)
  · cases k with
    | file contents => exact Or.inl (Store.isFile_iff.mpr ⟨l, contents, hafter, hk'⟩)
    | directory => exact Or.inr (Store.isDirectory_iff.mpr ⟨l, hmid, hk⟩)

theorem main_of_absent (h : IsNormal stack) (hroot : .root ∈ stack)
    (hmap : s.places.map = ofStack stack) (hdistinct : (levels.map Prod.fst).Nodup)
    (hdiffers : before.DiffersBy IsRuleName mid)
    (hok : mid.saveAll false (savedFiles p s levels) = (.ok (), after)) (ht : t ∈ Theme.all)
    (habsent : before.contains (mainPath s.places.map t) = false) :
    after.read (mainPath s.places.map t) = .ok (Text.encodeUtf8
        (MainMap.text (p.withPalette t.palette) s t (levels.map Prod.fst))) ∨
      after.isDirectory (mainPath s.places.map t) = true := by
  have hmem : mainFile p s levels t ∈ savedFiles p s levels :=
    mem_savedFiles_iff.mpr (Or.inr (Or.inl ⟨t, ht, rfl⟩))
  have hsaved := saved_or_kept h hroot hmap hdistinct hok hmem
  simp only [mainFile] at hsaved
  rcases hsaved with hread | ⟨-, l, k, hmid, hafter, hk, hk'⟩
  · exact Or.inl hread
  · rw [hmap] at habsent hmid
    obtain rfl := directory_of_new_main h hroot hdiffers ht habsent hmid hk
    exact Or.inr (Store.isDirectory_iff.mpr ⟨l, hafter, hk'⟩)

/--
After success, the main file of each theme refers to the levels that have shapefiles and to its
symbol set. With force, all files have the texts that are made of the present library, settings and
shapefiles. Without it this holds for the main files that were missing, and what they refer to is
there, be it a directory that is kept.
-/
theorem map_current_of_success {list : Store.Listing} {usualResources : String}
    {arguments : List String} (harguments : CommandLine.read usualResources arguments = .ok r)
    (hsettings : (Settings.load before ⟨r.settingsFile⟩ ⟨r.resources⟩).1 = .ok s)
    (hok : (Program.run usualResources arguments before list).exitCode = 0) :
    let after := (Program.run usualResources arguments before list).store
    ∃ p mid, libraryAt before s.places.library (s.selection Theme.day.palette) = .ok p ∧
      prepare list r s before = (.ok p, mid) ∧
      let levels := levelsAt list mid s.places.data Level.all
      let numbers := levels.map Prod.fst
      levels.AreAt list mid s.places.data ∧
      ∀ t ∈ Theme.all,
        let text := MainMap.text (p.withPalette t.palette) s t numbers
        (r.force = true → IsCurrent after p s levels t) ∧
        ('\n' ∉ s.places.data.text.toList →
          entries "INCLUDE" text = numbers.map (MainMap.includePath t) ∧
          entries "SYMBOLSET" text = [MainMap.symbolSetPath t] ∧
          (r.force = true →
            ∀ path ∈ references text, after.isFile (s.places.map.below path) = true) ∧
          (r.force = false → before.contains (mainPath s.places.map t) = false →
            (after.read (mainPath s.places.map t) = .ok (Text.encodeUtf8 text) ∨
              after.isDirectory (mainPath s.places.map t) = true) ∧
            ∀ path ∈ references text, after.isFile (s.places.map.below path) = true ∨
              mid.isDirectory (s.places.map.below path) = true)) := by
  obtain ⟨hstore, hexit⟩ := Program.run_eq_make list harguments hsettings
  obtain ⟨stack, hnormal, hroot, hmap⟩ := (Settings.areNormal_of_load hsettings).map
  obtain ⟨p, mid, hprepare, hlooked, hsaved⟩ := make_eq_ok (Prod.ext (hexit.mp hok) hstore.symm)
  have hlevels := areAt_levelsAt (levelsBy_eq_ok hlooked).2
  have hdistinct := hlevels.ascending.imp fun hlt => Nat.ne_of_lt hlt
  have hdiffers := differsBy_prepare list r s before
  rw [hprepare] at hdiffers
  refine ⟨p, mid, libraryAt_of_prepare hprepare, hprepare, hlevels, fun t ht => ⟨?current,
    fun hdata => ⟨?levels, ?symbols, ?forced, ?unforced⟩⟩⟩
  case current =>
    intro hforce
    rw [hforce] at hsaved
    exact isCurrent_of_read (read_of_force hnormal hroot hmap hdistinct hsaved) ht
  case levels => exact MainMap.entries_include ht hdata
  case symbols => exact MainMap.entries_symbolSet ht hdata
  case forced =>
    intro hforce path hpath
    rw [hforce] at hsaved
    obtain ⟨f, hf, heq⟩ := exists_file_of_reference hnormal hmap ht hdata hpath
    exact heq ▸ isFile_of_read (read_of_force hnormal hroot hmap hdistinct hsaved f hf)
  case unforced =>
    intro hforce habsent
    rw [hforce] at hsaved
    refine ⟨main_of_absent hnormal hroot hmap hdistinct hdiffers hsaved ht habsent, ?_⟩
    intro path hpath
    obtain ⟨f, hf, heq⟩ := exists_file_of_reference hnormal hmap ht hdata hpath
    exact heq ▸ isFile_or_isDirectory hnormal hroot hmap hdistinct hsaved hf

theorem map_current_of_success_old :
    let b := sampleStore "m" [sampleData, ("m", .directory [("SeaChart_day.map", .file [])])]
    let s := sampleSettings b
    let after := (Program.run "/" ["-f", "c"] b).store
    (CommandLine.read "/" ["-f", "c"] = .ok (sampleRequest true) ∧
      (Settings.load b ⟨"c"⟩ ⟨"/"⟩).1 = .ok s ∧ (Program.run "/" ["-f", "c"] b).exitCode = 0) ∧
    ∃ text, after.read ⟨"/m/SeaChart_day.map"⟩ = .ok (Text.encodeUtf8 text) ∧
      entries "INCLUDE" text = ["includes/day/CL3.map"] ∧
      entries "SYMBOLSET" text = ["symbols/symbols-day.sym"] ∧
      after.isFile ⟨"/m/includes/day/CL3.map"⟩ = true ∧
      after.isFile ⟨"/m/symbols/symbols-day.sym"⟩ = true := by
  intro b s after
  have hsettings : (Settings.load b ⟨"c"⟩ ⟨"/"⟩).1 = .ok s := load_sample (by decide +kernel)
  have hok : (Program.run "/" ["-f", "c"] b).exitCode = 0 := by decide +kernel
  obtain ⟨p, mid, -, hprepare, -, hthemes⟩ := map_current_of_success read_sample_forced hsettings hok
  obtain ⟨hcurrent, hentries⟩ := hthemes Theme.day (by decide)
  obtain ⟨hinclude, hsymbolSet, hforced, -⟩ := hentries (by decide +kernel)
  have hread := (hcurrent rfl).main
  have hpaths : ((levelsAt Store.names mid s.places.data Level.all).map Prod.fst).map
      (MainMap.includePath Theme.day) = ["includes/day/CL3.map"] := by
    have hmid : (prepare Store.names (sampleRequest true) s b).2 = mid :=
      congrArg Prod.snd hprepare
    rw [← hmid]
    decide +kernel
  rw [hpaths] at hinclude
  have hmap : s.places.map = ⟨"/m"⟩ := by decide +kernel
  have hmain : mainPath s.places.map Theme.day = ⟨"/m/SeaChart_day.map"⟩ := by
    rw [hmap]
    decide +kernel
  rw [hmain] at hread
  rw [references, hinclude, hsymbolSet, hmap] at hforced
  have hfiles := hforced rfl
  exact ⟨⟨read_sample_forced, hsettings, hok⟩, _, hread, hinclude, hsymbolSet,
    hfiles "includes/day/CL3.map" (by decide), hfiles "symbols/symbols-day.sym" (by decide)⟩

theorem exists_main {list : Store.Listing} {usualResources : String} {arguments : List String}
    (harguments : CommandLine.read usualResources arguments = .ok r)
    (hsettings : (Settings.load before ⟨r.settingsFile⟩ ⟨r.resources⟩).1 = .ok s)
    (hok : (Program.run usualResources arguments before list).exitCode = 0) (ht : t ∈ Theme.all)
    (hnew : r.force = true ∨ before.contains (mainPath s.places.map t) = false ∧
      (Program.run usualResources arguments before list).store.isDirectory
        (mainPath s.places.map t) = false) :
    ∃ p, (Program.run usualResources arguments before list).store.read (mainPath s.places.map t) =
      .ok (Text.encodeUtf8 (MainMap.text p s t
        ((levelsAt list (prepare list r s before).2 s.places.data Level.all).map Prod.fst))) := by
  obtain ⟨hstore, hexit⟩ := Program.run_eq_make list harguments hsettings
  obtain ⟨stack, hnormal, hroot, hmap⟩ := (Settings.areNormal_of_load hsettings).map
  obtain ⟨p, mid, hprepare, hlooked, hsaved⟩ := make_eq_ok (Prod.ext (hexit.mp hok) hstore.symm)
  have hlevels := areAt_levelsAt (levelsBy_eq_ok hlooked).2
  have hdistinct := hlevels.ascending.imp fun hlt => Nat.ne_of_lt hlt
  rw [hprepare]
  refine ⟨p.withPalette t.palette, ?_⟩
  cases hforce : r.force with
  | true =>
    rw [hforce] at hsaved
    exact (isCurrent_of_read (read_of_force hnormal hroot hmap hdistinct hsaved) ht).main
  | false =>
    rw [hforce] at hsaved hnew
    obtain ⟨habsent, hmain⟩ := hnew.resolve_left Bool.false_ne_true
    have hdiffers := differsBy_prepare list r s before
    rw [hprepare] at hdiffers
    have hread := main_of_absent hnormal hroot hmap hdistinct hdiffers hsaved ht habsent
    exact hread.resolve_right (by simp [hmain])

def strayStore : Store where
  root := .directory [
    ("c", .file (Text.encodeUtf8
      "[paths]\ndata=\"d\\nINCLUDE \\\"x\"\nmap=\"m\"\nruleset=\"r\"\nchartsymbols=\"l\"")),
    ("l", .file (Text.encodeUtf8 "<chartsymbols/>"))]

/--
A new main file refers to a directory that is kept in the place of a level's file, and a path of the
data with a line break adds an entry of its own.
-/
theorem map_refers_elsewhere :
    (let b := sampleStore "m" [sampleData,
        ("m", .directory [("includes",
          .directory [("day", .directory [("CL3.map", .directory [])])])])]
      let s := sampleSettings b
      let after := (Program.run "/" ["c"] b).store
      CommandLine.read "/" ["c"] = .ok (sampleRequest false) ∧
        (Settings.load b ⟨"c"⟩ ⟨"/"⟩).1 = .ok s ∧
        (∀ t ∈ Theme.all, b.contains (mainPath s.places.map t) = false) ∧
        (Program.run "/" ["c"] b).exitCode = 0 ∧
        (∃ text, after.read (mainPath s.places.map Theme.day) = .ok (Text.encodeUtf8 text) ∧
          entries "INCLUDE" text = ["includes/day/CL3.map"]) ∧
        after.isFile (s.places.map.below "includes/day/CL3.map") = false) ∧
    (let s := sampleSettings strayStore
      let after := (Program.run "/" ["-f", "c"] strayStore).store
      CommandLine.read "/" ["-f", "c"] = .ok (sampleRequest true) ∧
        (Settings.load strayStore ⟨"c"⟩ ⟨"/"⟩).1 = .ok s ∧
        (Program.run "/" ["-f", "c"] strayStore).exitCode = 0 ∧
        (∃ text, after.read (mainPath s.places.map Theme.day) = .ok (Text.encodeUtf8 text) ∧
          "x" ∈ entries "INCLUDE" text) ∧
        after.isFile (s.places.map.below "x") = false) := by
  have hday : Theme.day ∈ Theme.all := by decide
  constructor
  · intro b s after
    have hsettings : (Settings.load b ⟨"c"⟩ ⟨"/"⟩).1 = .ok s := load_sample (by decide +kernel)
    have hrun : (∀ t ∈ Theme.all, b.contains (mainPath s.places.map t) = false) ∧
        (Program.run "/" ["c"] b).exitCode = 0 ∧
        after.isDirectory (mainPath s.places.map Theme.day) = false ∧
        after.isFile (s.places.map.below "includes/day/CL3.map") = false := by
      decide +kernel
    obtain ⟨habsent, hok, hmain, hdirectory⟩ := hrun
    obtain ⟨p, hread⟩ := exists_main read_sample hsettings hok hday
      (.inr ⟨habsent Theme.day hday, hmain⟩)
    refine ⟨read_sample, hsettings, habsent, hok, ⟨_, hread, ?_⟩, hdirectory⟩
    rw [MainMap.entries_include hday (by decide +kernel)]
    decide +kernel
  · intro s after
    have hsettings : (Settings.load strayStore ⟨"c"⟩ ⟨"/"⟩).1 = .ok s :=
      load_sample (by decide +kernel)
    have hrun : (Program.run "/" ["-f", "c"] strayStore).exitCode = 0 ∧
        after.isFile (s.places.map.below "x") = false := by
      decide +kernel
    obtain ⟨hok, hmissing⟩ := hrun
    obtain ⟨p, hread⟩ := exists_main read_sample_forced hsettings hok hday (.inl rfl)
    have hdata : s.places.data.text = "/d" ++ "\n" ++ ("INCLUDE" ++ " \"" ++ "x") := by
      decide +kernel
    exact ⟨read_sample_forced, hsettings, hok,
      ⟨_, hread, MainMap.mem_entries_of_break hdata (by decide)⟩, hmissing⟩

end Run

end Chart

end SeaChart
