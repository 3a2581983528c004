import Mathlib.Data.List.Basic
import Mathlib.Data.List.Nodup
import SeaChart.Proofs.SavedFiles

namespace SeaChart

open SeaChart.Path

namespace Path

variable {stack : List Component} {names : List String} {n : String}

def stackOn (names : List String) (stack : List Component) : List Component :=
  (names.map Component.name).reverse ++ stack

theorem stackOn_nil : stackOn [] stack = stack :=
  rfl

theorem stackOn_cons : stackOn (n :: names) stack = stackOn names (.name n :: stack) := by
  simp [stackOn]

theorem stackOn_append_singleton :
    stackOn (names ++ [n]) stack = .name n :: stackOn names stack := by
  simp [stackOn]

theorem isNormal_stackOn (h : IsNormal stack) (hnames : ∀ n ∈ names, IsName n) :
    IsNormal (stackOn names stack) := by
  induction names generalizing stack with
  | nil => exact h
  | cons n names ih =>
    rw [stackOn_cons]
    exact ih (.name (hnames n List.mem_cons_self) h)
      fun k hk => hnames k (List.mem_cons_of_mem n hk)

theorem place_stackOn (s : Store) (names : List String) (stack : List Component) :
    s.place (stackOn names stack) = s.place stack ++ names := by
  induction names generalizing stack with
  | nil => simp [stackOn_nil]
  | cons n names ih => simp [stackOn_cons, ih, Store.place]

theorem exists_stackOn (h : IsNormal stack) (hnames : ∀ n ∈ names, IsName n) (hne : names ≠ []) :
    ∃ n above, stackOn names stack = .name n :: above ∧ IsNormal (.name n :: above) := by
  have hnormal := isNormal_stackOn h hnames
  rw [← List.dropLast_append_getLast hne, stackOn_append_singleton] at hnormal ⊢
  exact ⟨_, _, rfl, hnormal⟩

theorem isName_of_head {c : Char} {cs : List Char} (hlist : n.toList = c :: cs) (hc : c ≠ '.')
    (hslash : '/' ∉ n.toList) : IsName n := by
  refine ⟨?_, hslash⟩
  rintro (rfl | rfl | rfl)
  · simp at hlist
  · simp at hlist
    exact hc hlist.1.symm
  · simp at hlist
    exact hc hlist.1.symm

end Path

namespace Chart

open Shapefile (levelName)

section Names

def levelNames (t : Theme) (level : Nat) : List String :=
  ["includes", t.name, levelName level ++ ".map"]

def mainNames (t : Theme) : List String :=
  ["SeaChart_" ++ t.name ++ ".map"]

def symbolNames (t : Theme) : List String :=
  ["symbols", "symbols-" ++ t.name ++ ".sym"]

inductive IsMapFile : List String → Prop
  | level (t : Theme) (ht : t ∈ Theme.all) (level : Nat) : IsMapFile (levelNames t level)
  | main (t : Theme) (ht : t ∈ Theme.all) : IsMapFile (mainNames t)
  | symbols (t : Theme) (ht : t ∈ Theme.all) : IsMapFile (symbolNames t)

theorem isName_levelName (level : Nat) (ending : String) (h : '/' ∉ ending.toList) :
    IsName (levelName level ++ ending) := by
  have hlist : (levelName level ++ ending).toList =
      'C' :: 'L' :: ((Text.natText level).toList ++ ending.toList) := by
    simp [levelName]
  refine isName_of_head hlist (by decide) ?_
  rw [hlist]
  have hdigits : '/' ∉ (Text.natText level).toList := fun hmem =>
    absurd (Text.isDigit_of_mem_natText hmem) (by decide)
  simp [hdigits, h]

theorem levelName_injective : Function.Injective levelName := by
  intro a b h
  have hdigits : Nat.toDigits 10 a = Nat.toDigits 10 b := by
    simpa [levelName, Text.natText, ← String.toList_inj] using h
  rw [← Nat.ofDigitChars_ten_toDigits (n := a), hdigits, Nat.ofDigitChars_ten_toDigits]

theorem isName_theme : ∀ t ∈ Theme.all, IsName t.name ∧ IsName ("SeaChart_" ++ t.name ++ ".map") ∧
    IsName ("symbols-" ++ t.name ++ ".sym") := by
  decide +kernel

theorem IsMapFile.isName {names : List String} (h : IsMapFile names) : ∀ n ∈ names, IsName n := by
  cases h with
  | level t ht level =>
    simp only [levelNames, List.mem_cons, List.not_mem_nil, or_false]
    rintro n (rfl | rfl | rfl)
    · decide +kernel
    · exact (isName_theme t ht).1
    · exact isName_levelName level ".map" (by decide)
  | main t ht =>
    simp only [mainNames, List.mem_singleton]
    rintro n rfl
    exact (isName_theme t ht).2.1
  | symbols t ht =>
    simp only [symbolNames, List.mem_cons, List.not_mem_nil, or_false]
    rintro n (rfl | rfl)
    · decide +kernel
    · exact (isName_theme t ht).2.2

theorem not_suffix_append {ending other : String}
    (hlength : ending.toList.length ≤ other.toList.length)
    (h : ¬ending.toList <:+ other.toList) (n : String) :
    ¬ending.toList <:+ (n ++ other).toList := by
  intro hle
  have hother : other.toList <:+ (n ++ other).toList := by simp
  exact h (List.suffix_of_suffix_length_le hle hother hlength)

theorem IsMapFile.not_suffix {names : List String} (h : IsMapFile names) {n : String}
    (hn : n ∈ names) : ¬Shapefile.suffix.toList <:+ n.toList := by
  cases h with
  | level t ht level =>
    simp only [levelNames, List.mem_cons, List.not_mem_nil, or_false] at hn
    rcases hn with rfl | rfl | rfl
    · decide
    · have hall : ∀ t ∈ Theme.all, ¬Shapefile.suffix.toList <:+ t.name.toList := by decide
      exact hall t ht
    · exact not_suffix_append (by decide) (by decide) _
  | main t ht =>
    rw [mainNames, List.mem_singleton] at hn
    exact hn ▸ not_suffix_append (by decide) (by decide) _
  | symbols t ht =>
    simp only [symbolNames, List.mem_cons, List.not_mem_nil, or_false] at hn
    rcases hn with rfl | rfl
    · decide
    · exact not_suffix_append (by decide) (by decide) _

theorem IsMapFile.ne_nil {names : List String} (h : IsMapFile names) : names ≠ [] := by
  cases h <;> simp [levelNames, mainNames, symbolNames]

theorem mainNames_head : ∀ t ∈ Theme.all, "SeaChart_" ++ t.name ++ ".map" ≠ "includes" ∧
    "SeaChart_" ++ t.name ++ ".map" ≠ "symbols" := by
  decide +kernel

theorem IsMapFile.eq_of_prefix {a b : List String} (ha : IsMapFile a) (hb : IsMapFile b)
    (h : a <+: b) : a = b := by
  have hlength := h.length_le
  cases ha with
  | level t ht level =>
    cases hb with
    | level t' ht' level' => exact h.eq_of_length rfl
    | main t' ht' => simp [levelNames, mainNames] at hlength
    | symbols t' ht' => simp [levelNames, symbolNames] at hlength
  | main t ht =>
    cases hb with
    | level t' ht' level' =>
      exact absurd (List.cons_prefix_cons.mp h).1 (mainNames_head t ht).1
    | main t' ht' => exact h.eq_of_length rfl
    | symbols t' ht' => exact absurd (List.cons_prefix_cons.mp h).1 (mainNames_head t ht).2
  | symbols t ht =>
    cases hb with
    | level t' ht' level' => exact absurd (List.cons_prefix_cons.mp h).1 (by decide)
    | main t' ht' => simp [symbolNames, mainNames] at hlength
    | symbols t' ht' => exact h.eq_of_length rfl

theorem below_includePath {stack : List Component} (h : IsNormal stack) {t : Theme}
    (ht : t ∈ Theme.all) (level : Nat) :
    (ofStack stack).below (MainMap.includePath t level) =
      ofStack (stackOn (levelNames t level) stack) := by
  have hnames := (IsMapFile.level t ht level).isName
  simp only [levelNames, List.forall_mem_cons] at hnames
  obtain ⟨hincludes, htheme, hlevel, -⟩ := hnames
  have htext : MainMap.includePath t level =
      "includes" ++ "/" ++ (t.name ++ "/" ++ (levelName level ++ ".map")) := by
    simp only [MainMap.includePath, String.append_assoc]
    rfl
  rw [htext, below_slash h hincludes (htheme.isAbsolute_slash _),
    below_slash (.name hincludes h) htheme hlevel.isAbsolute,
    below_ofStack (.name htheme (.name hincludes h)) hlevel]
  rfl

theorem mainPath_ofStack {stack : List Component} (h : IsNormal stack) {t : Theme}
    (ht : t ∈ Theme.all) :
    mainPath (ofStack stack) t = ofStack (stackOn (mainNames t) stack) :=
  below_ofStack h (isName_theme t ht).2.1

theorem symbolPath_ofStack {stack : List Component} (h : IsNormal stack) {t : Theme}
    (ht : t ∈ Theme.all) :
    symbolPath (ofStack stack) t = ofStack (stackOn (symbolNames t) stack) := by
  have hsymbols : IsName "symbols" := by decide +kernel
  rw [symbolPath, below_ofStack h hsymbols,
    below_ofStack (.name hsymbols h) (isName_theme t ht).2.2]
  rfl

theorem below_symbolSetPath {stack : List Component} (h : IsNormal stack) {t : Theme}
    (ht : t ∈ Theme.all) :
    (ofStack stack).below (MainMap.symbolSetPath t) = symbolPath (ofStack stack) t := by
  have hsymbols : IsName "symbols" := by decide +kernel
  have hname := (isName_theme t ht).2.2
  have htext : MainMap.symbolSetPath t = "symbols" ++ "/" ++ ("symbols-" ++ t.name ++ ".sym") :=
    calc
      MainMap.symbolSetPath t = "symbols/symbols-" ++ (t.name ++ ".sym") :=
        String.append_assoc
      _ = "symbols" ++ "/" ++ "symbols-" ++ (t.name ++ ".sym") :=
        congrArg (· ++ (t.name ++ ".sym")) (by decide)
      _ = "symbols" ++ "/" ++ ("symbols-" ++ t.name ++ ".sym") := by
        simp only [String.append_assoc]
  rw [htext, below_slash h hsymbols hname.isAbsolute, symbolPath, below_ofStack h hsymbols]

end Names

section Texts

theorem numbers_levelsAt (list : Store.Listing) (b : Store) (data : Path)
    (levels : List (Nat × Nat)) :
    (levelsAt list b data levels).map Prod.fst =
      (levels.map Prod.fst).filter fun level => !(filesAt list b data level).isEmpty := by
  simp [levelsAt, List.filter_map, Function.comp_def]

theorem mem_savedFiles_iff {p : Presentation} {s : Settings} {levels : Levels}
    {f : Path × String} :
    f ∈ savedFiles p s levels ↔
      (∃ t ∈ Theme.all, ∃ l ∈ levels, levelFile p s.places.map t l = f) ∨
      (∃ t ∈ Theme.all, mainFile p s levels t = f) ∨
      (∃ t ∈ Theme.all, symbolFile p s.places.map t = f) := by
  simp only [savedFiles, List.mem_append, List.mem_flatMap, List.mem_map, List.mem_singleton]
  constructor
  · rintro (⟨t, ht, hlevel | rfl⟩ | hsymbols)
    · exact Or.inl ⟨t, ht, hlevel⟩
    · exact Or.inr (Or.inl ⟨t, ht, rfl⟩)
    · exact Or.inr (Or.inr hsymbols)
  · rintro (⟨t, ht, hlevel⟩ | ⟨t, ht, rfl⟩ | hsymbols)
    · exact Or.inl ⟨t, ht, Or.inl hlevel⟩
    · exact Or.inl ⟨t, ht, Or.inr rfl⟩
    · exact Or.inr hsymbols

def texts (p : Presentation) (s : Settings) (levels : Levels) : List (List String × String) :=
  (Theme.all.flatMap fun t =>
    levels.map (fun (level, maxScale, files) =>
      (levelNames t level, Level.text (p.withPalette t.palette) level maxScale files)) ++
    [(mainNames t, MainMap.text (p.withPalette t.palette) s t (levels.map Prod.fst))]) ++
  Theme.all.map fun t => (symbolNames t, SymbolSet.text (p.withPalette t.palette) t)

variable {p : Presentation} {s : Settings} {levels : Levels} {stack : List Component}

theorem savedFiles_eq (h : IsNormal stack) (hmap : s.places.map = ofStack stack) :
    savedFiles p s levels =
      (texts p s levels).map fun f => (ofStack (stackOn f.1 stack), f.2) := by
  simp only [savedFiles, texts, List.map_append, List.map_flatMap, List.map_map, hmap]
  congr 1
  · refine List.flatMap_congr fun t ht => ?_
    congr 1
    · refine List.map_congr_left fun l _ => ?_
      simp only [levelFile, Function.comp_apply, below_includePath h ht]
    · simp only [mainFile, hmap, mainPath_ofStack h ht, List.map_cons, List.map_nil]
  · refine List.map_congr_left fun t ht => ?_
    simp only [symbolFile, Function.comp_apply, symbolPath_ofStack h ht]

theorem mem_texts_iff {f : List String × String} :
    f ∈ texts p s levels ↔
      (∃ t ∈ Theme.all, ∃ l ∈ levels,
        f = (levelNames t l.1, Level.text (p.withPalette t.palette) l.1 l.2.1 l.2.2)) ∨
      (∃ t ∈ Theme.all,
        f = (mainNames t, MainMap.text (p.withPalette t.palette) s t (levels.map Prod.fst))) ∨
      (∃ t ∈ Theme.all, f = (symbolNames t, SymbolSet.text (p.withPalette t.palette) t)) := by
  simp only [texts, List.mem_append, List.mem_flatMap, List.mem_map, List.mem_singleton]
  constructor
  · rintro (⟨t, ht, ⟨l, hl, rfl⟩ | rfl⟩ | ⟨t, ht, rfl⟩)
    · exact Or.inl ⟨t, ht, l, hl, rfl⟩
    · exact Or.inr (Or.inl ⟨t, ht, rfl⟩)
    · exact Or.inr (Or.inr ⟨t, ht, rfl⟩)
  · rintro (⟨t, ht, l, hl, rfl⟩ | ⟨t, ht, rfl⟩ | ⟨t, ht, rfl⟩)
    · exact Or.inl ⟨t, ht, Or.inl ⟨l, hl, rfl⟩⟩
    · exact Or.inl ⟨t, ht, Or.inr rfl⟩
    · exact Or.inr ⟨t, ht, rfl⟩

theorem isMapFile_of_mem_texts {f : List String × String} (hf : f ∈ texts p s levels) :
    IsMapFile f.1 := by
  rcases mem_texts_iff.mp hf with ⟨t, ht, l, -, rfl⟩ | ⟨t, ht, rfl⟩ | ⟨t, ht, rfl⟩
  · exact .level t ht l.1
  · exact .main t ht
  · exact .symbols t ht

theorem pairwise_themes : Theme.all.Pairwise fun t t' =>
    t.name ≠ t'.name ∧ mainNames t ≠ mainNames t' ∧ symbolNames t ≠ symbolNames t' := by
  decide +kernel

theorem nodup_themeNames {levels : List Nat} (h : levels.Nodup) {t : Theme} :
    (levels.map (levelNames t) ++ [mainNames t]).Nodup := by
  refine List.nodup_append.mpr ⟨h.map fun a b hab => ?_, List.nodup_singleton _, ?_⟩
  · simp only [levelNames, List.cons.injEq, and_true, true_and] at hab
    exact levelName_injective ((String.append_left_inj _).mp hab)
  · simp [levelNames, mainNames]

theorem nodup_texts (h : (levels.map Prod.fst).Nodup) :
    ((texts p s levels).map Prod.fst).Nodup := by
  have hnames : (texts p s levels).map Prod.fst =
      (Theme.all.flatMap fun t => (levels.map Prod.fst).map (levelNames t) ++ [mainNames t]) ++
        Theme.all.map symbolNames := by
    simp [texts, List.map_flatMap, Function.comp_def]
  rw [hnames]
  refine List.nodup_append.mpr ⟨List.nodup_flatMap.mpr ⟨fun t _ => nodup_themeNames h, ?_⟩, ?_, ?_⟩
  · refine pairwise_themes.imp fun {t t'} hne names hnames hnames' => ?_
    simp only [List.mem_append, List.mem_map, List.mem_singleton] at hnames hnames'
    rcases hnames with ⟨a, -, rfl⟩ | rfl <;> rcases hnames' with ⟨b, -, heq⟩ | heq
    · exact hne.1 (List.cons.inj (List.cons.inj heq).2).1.symm
    · simp [levelNames, mainNames] at heq
    · simp [levelNames, mainNames] at heq
    · exact hne.2.1 heq
  · exact List.pairwise_map.mpr (pairwise_themes.imp fun hne => hne.2.2)
  · intro names hnames others hothers
    obtain ⟨t, -, hnames⟩ := List.mem_flatMap.mp hnames
    obtain ⟨t', -, rfl⟩ := List.mem_map.mp hothers
    rw [List.mem_append, List.mem_map, List.mem_singleton] at hnames
    rcases hnames with ⟨l, -, rfl⟩ | rfl
    · simp [levelNames, symbolNames]
    · simp [mainNames, symbolNames]

theorem read_saved {b after : Store} {force : Bool} (h : IsNormal stack)
    (hmap : s.places.map = ofStack stack) (hdistinct : (levels.map Prod.fst).Nodup)
    (hok : b.saveAll force (savedFiles p s levels) = (.ok (), after)) {f : List String × String}
    (hf : f ∈ texts p s levels) :
    after.read (ofStack (stackOn f.1 stack)) = .ok (Text.encodeUtf8 f.2) ∨
      (force = false ∧ (b.kind? (b.place stack ++ f.1)).isSome = true ∧
        after.kind? (b.place stack ++ f.1) = b.kind? (b.place stack ++ f.1)) := by
  have hname := isMapFile_of_mem_texts hf
  obtain ⟨xs, ys, hsplit⟩ := List.append_of_mem hf
  obtain ⟨n, above, hstack, hnormal⟩ := exists_stackOn h hname.isName hname.ne_nil
  have hplace : b.place (.name n :: above) = b.place stack ++ f.1 :=
    hstack ▸ place_stackOn b f.1 stack
  have hothers : f.1 ∉ (xs ++ ys).map Prod.fst := by
    have hnodup := nodup_texts (p := p) (s := s) hdistinct
    rw [hsplit, List.map_append, List.map_cons, List.nodup_middle, ← List.map_append] at hnodup
    exact (List.nodup_cons.mp hnodup).1
  rw [savedFiles_eq h hmap, hsplit, List.map_append, List.map_cons, hstack] at hok
  rw [hstack, ← hplace]
  refine Store.saveAll_file hnormal hok fun g hg => ?_
  rw [← List.map_append] at hg
  obtain ⟨g, hmem, rfl⟩ := List.mem_map.mp hg
  have hgname : IsMapFile g.1 := by
    have hsaved : g ∈ texts p s levels := by
      rw [hsplit]
      rcases List.mem_append.mp hmem with hmem | hmem
      · exact List.mem_append_left _ hmem
      · exact List.mem_append_right _ (List.mem_cons_of_mem f hmem)
    exact isMapFile_of_mem_texts hsaved
  obtain ⟨k, gabove, hgstack, hgnormal⟩ := exists_stackOn h hgname.isName hgname.ne_nil
  refine ⟨k, gabove, hgnormal, congrArg ofStack hgstack, fun hle => ?_⟩
  rw [← hgstack, hplace, place_stackOn, List.prefix_append_right_inj] at hle
  exact hothers (hname.eq_of_prefix hgname hle ▸ List.mem_map_of_mem hmem)

theorem exists_text (h : IsNormal stack) (hmap : s.places.map = ofStack stack) {f : Path × String}
    (hf : f ∈ savedFiles p s levels) :
    ∃ g ∈ texts p s levels, f = (ofStack (stackOn g.1 stack), g.2) := by
  rw [savedFiles_eq h hmap] at hf
  obtain ⟨g, hg, rfl⟩ := List.mem_map.mp hf
  exact ⟨g, hg, rfl⟩

theorem isFilePath_savedFiles (h : IsNormal stack) (hmap : s.places.map = ofStack stack) :
    ∀ f ∈ savedFiles p s levels, f.1.IsFilePath := by
  intro f hf
  obtain ⟨g, hg, rfl⟩ := exists_text h hmap hf
  have hname := isMapFile_of_mem_texts hg
  obtain ⟨n, above, hstack, hnormal⟩ := exists_stackOn h hname.isName hname.ne_nil
  exact ⟨n, above, hnormal, congrArg ofStack hstack⟩

theorem saved_or_kept {b after : Store} {force : Bool} (h : IsNormal stack) (hroot : .root ∈ stack)
    (hmap : s.places.map = ofStack stack) (hdistinct : (levels.map Prod.fst).Nodup)
    (hok : b.saveAll force (savedFiles p s levels) = (.ok (), after)) {f : Path × String}
    (hf : f ∈ savedFiles p s levels) :
    after.read f.1 = .ok (Text.encodeUtf8 f.2) ∨
      (force = false ∧ ∃ l k, b.locate f.1 = .ok l ∧ after.locate f.1 = .ok l ∧
        b.kind? l = some k ∧ after.kind? l = some k) := by
  have hthere := Store.contains_of_saveAll hok (isFilePath_savedFiles h hmap) hf
  obtain ⟨g, hg, rfl⟩ := exists_text h hmap hf
  refine (read_saved h hmap hdistinct hok hg).imp id ?_
  rintro ⟨hforce, hsome, hsame⟩
  have hname := isMapFile_of_mem_texts hg
  obtain ⟨n, above, hstack, hnormal⟩ := exists_stackOn h hname.isName hname.ne_nil
  have habove : .root ∈ above := by
    have hmem : .root ∈ stackOn g.1 stack := List.mem_append_right _ hroot
    simpa [hstack] using hmem
  simp only [hstack] at hthere ⊢
  obtain ⟨l, hlocate, hthere⟩ := Store.contains_iff.mp hthere
  have hl : l = b.place stack ++ g.1 := by
    rw [((Store.locate_eq_ok_iff hnormal).mp hlocate).2.2.1, ← place_stackOn, hstack]
    exact Store.place_of_rooted hnormal (List.mem_cons_of_mem _ habove)
  obtain ⟨k, hk⟩ := Option.isSome_iff_exists.mp hsome
  rw [← hl] at hsame hk
  refine ⟨hforce, l, k, ?_, hlocate, hk, hsame.trans hk⟩
  exact Store.locate_of_rooted hnormal habove hlocate (Option.isSome_of_eq_some hk)

end Texts

end Chart

end SeaChart
