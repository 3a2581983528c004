import Mathlib.Data.List.Sort
import Mathlib.Data.List.TakeDrop
import Mathlib.Data.Prod.Lex
import Mathlib.Data.String.Basic
import Mathlib.Order.WithBot
import SeaChart.Chart.Level
import SeaChart.Proofs.FileTree

namespace SeaChart

theorem Geometry.ofName?_eq_some_iff {name : String} {g : Geometry} :
    ofName? name = some g ↔ name = g.name := by
  constructor
  · intro h
    unfold ofName? at h
    split at h
    · next heq => cases h; exact heq
    · split at h
      · next heq => cases h; exact heq
      · split at h
        · next heq => cases h; exact heq
        · cases h
  · rintro rfl
    exact ofName?_name g

namespace Text

theorem natText_eq_singleton_iff {n : Nat} {c : Char} :
    natText n = String.singleton c ↔ n < 10 ∧ c = n.digitChar := by
  have hlist : natText n = String.singleton c ↔ Nat.toDigits 10 n = [c] := by
    simp [natText, ← String.toList_inj]
  rw [hlist]
  constructor
  · intro h
    have hlt : n < 10 := by
      have hlength := @Nat.length_toDigits_le_iff 10 n 1 (by decide) (by decide)
      simpa [h] using hlength
    rw [Nat.toDigits_of_lt_base hlt] at h
    simpa [hlt, eq_comm] using h
  · rintro ⟨hlt, rfl⟩
    exact Nat.toDigits_of_lt_base hlt

theorem isDecimalDigit_digitChar {n : Nat} (h : n < 10) : isDecimalDigit n.digitChar = true := by
  have hall : ∀ k : Fin 10, isDecimalDigit (Nat.digitChar k) = true := by decide
  exact hall ⟨n, h⟩

end Text

theorem Store.Extends.columns {s t : Store} (h : s.Extends t) {p : Path} {fields : List String}
    (hs : Columns.load s p = .ok fields) : Columns.load t p = .ok fields := by
  unfold Columns.load at hs ⊢
  cases hread : s.read p with
  | error cause => simp [hread, bind, Except.bind] at hs
  | ok contents =>
    rw [hread] at hs
    rw [h.read hread]
    exact hs

namespace Shapefile

def fileName (f : Shapefile) : String :=
  f.baseName ++ suffix

def IsNameAt (level : Nat) (name : String) : Prop :=
  ∃ (geometry : Geometry) (feature : String), feature ≠ "" ∧ '\n' ∉ feature.toList ∧
    name = levelName level ++ "-" ++ geometry.name ++ "-" ++ feature ++ suffix

section Names

theorem before?_eq_some_iff {ending : String} {cs front : List Char} :
    before? ending cs = some front ↔ cs = front ++ ending.toList := by
  unfold before?
  rw [← String.length_toList]
  constructor
  · intro h
    split at h
    · next hsuffix =>
      obtain ⟨before, rfl⟩ := List.isSuffixOf_iff_suffix.mp hsuffix
      cases h
      simp
    · cases h
  · rintro rfl
    simp

theorem readKind_eq_some_iff {cs rest : List Char} {g : Geometry} :
    readKind cs = some (g, rest) ↔ cs = g.name.toList ++ '-' :: rest := by
  unfold readKind
  rw [List.span_eq_takeWhile_dropWhile]
  constructor
  · intro h
    split at h
    · next word after hspan =>
      obtain ⟨hword, hafter⟩ := Prod.mk.inj hspan
      obtain ⟨g', hname, heq⟩ := Option.map_eq_some_iff.mp h
      cases heq
      rw [Geometry.ofName?_eq_some_iff] at hname
      rw [← List.takeWhile_append_dropWhile (p := (· != '-')) (l := cs), hword, hafter, ← hname]
      simp
    · cases h
  · rintro rfl
    have hdash : ∀ c ∈ g.name.toList, (c != '-') = true := by
      rw [← List.all_eq_true]
      cases g <;> decide
    rw [List.takeWhile_append_of_pos hdash, List.dropWhile_append_of_pos hdash]
    simp [Geometry.ofName?_name]

theorem readName_eq_some_iff {name feature : String} {digit : Char} {g : Geometry} :
    readName name = some ⟨digit, g, feature⟩ ↔
      Text.isDecimalDigit digit = true ∧ feature ≠ "" ∧ '\n' ∉ feature.toList ∧
        name = "CL" ++ String.singleton digit ++ "-" ++ g.name ++ "-" ++ feature ++ suffix := by
  have hname : name = "CL" ++ String.singleton digit ++ "-" ++ g.name ++ "-" ++ feature ++ suffix ↔
      name.toList = 'C' :: 'L' :: digit :: '-' ::
        (g.name.toList ++ '-' :: (feature.toList ++ suffix.toList)) := by
    simp [← String.toList_inj]
  rw [hname]
  unfold readName
  constructor
  · intro h
    split at h
    · next d rest hlist =>
      simp only [Option.bind_eq_bind, Option.bind_eq_some_iff, Prod.exists] at h
      obtain ⟨g', rest', hkind, front, hfront, h⟩ := h
      split at h
      · next hfeature =>
        cases h
        rw [readKind_eq_some_iff] at hkind
        rw [before?_eq_some_iff] at hfront
        subst hkind hfront
        simpa [hlist] using hfeature
      · cases h
    · cases h
  · rintro ⟨hdigit, hfilled, hline, hlist⟩
    have hkind := readKind_eq_some_iff (g := g).mpr (Eq.refl
      (g.name.toList ++ '-' :: (feature.toList ++ suffix.toList)))
    have hfront := before?_eq_some_iff.mpr (Eq.refl (feature.toList ++ suffix.toList))
    simp [hlist, hkind, hfront, hdigit, hfilled, hline]

end Names

section Entries

variable {s t : Store} {directory data : Path} {level : Nat} {name : String} {f : Shapefile}

theorem ofEntry_fst_eq_some_iff :
    (ofEntry s directory level name).1 = some f ↔
      f.level = level ∧ level < 10 ∧ f.feature ≠ "" ∧ '\n' ∉ f.feature.toList ∧
        name = f.fileName ∧
        f.fields = (Columns.load s (directory.below (tableName name))).toOption := by
  obtain ⟨l, g, feature, fields⟩ := f
  simp only [fileName, baseName, levelName]
  unfold ofEntry
  constructor
  · intro h
    split at h
    · cases h
    · next parts hread =>
      obtain ⟨digit, g', feature'⟩ := parts
      obtain ⟨-, hfilled, hline, hname⟩ := readName_eq_some_iff.mp hread
      split at h
      · cases h
      · next hdigit =>
        have hdigit := (not_not.mp hdigit).symm
        obtain ⟨hlt, -⟩ := Text.natText_eq_singleton_iff.mp hdigit
        dsimp only at h
        split at h
        · next fields' hload =>
          cases h
          exact ⟨rfl, hlt, hfilled, hline, hdigit ▸ hname, by rw [hload]; rfl⟩
        · next cause hload =>
          cases h
          exact ⟨rfl, hlt, hfilled, hline, hdigit ▸ hname, by rw [hload]; rfl⟩
  · rintro ⟨rfl, hlt, hfilled, hline, hname, hfields⟩
    have hdigit : Text.natText l = String.singleton l.digitChar :=
      Text.natText_eq_singleton_iff.mpr ⟨hlt, rfl⟩
    have hread : readName name = some ⟨l.digitChar, g, feature⟩ :=
      readName_eq_some_iff.mpr
        ⟨Text.isDecimalDigit_digitChar hlt, hfilled, hline, hdigit ▸ hname⟩
    rw [hread]
    simp only [hdigit, ne_eq, not_true_eq_false, if_false, hfields]
    cases Columns.load s (directory.below (tableName name)) with
    | ok columns => simp only [Except.toOption]
    | error cause => simp only [Except.toOption]

theorem exists_ofEntry_iff :
    (∃ f, (ofEntry s directory level name).1 = some f) ↔ level < 10 ∧ IsNameAt level name := by
  simp only [ofEntry_fst_eq_some_iff]
  constructor
  · rintro ⟨f, rfl, hlt, hfilled, hline, hname, -⟩
    exact ⟨hlt, f.geometry, f.feature, hfilled, hline, hname⟩
  · rintro ⟨hlt, g, feature, hfilled, hline, hname⟩
    generalize hfields : (Columns.load s (directory.below (tableName name))).toOption = fields
    refine ⟨⟨level, g, feature, fields⟩, rfl, hlt, hfilled, hline, ?_, rfl⟩
    rw [hname, fileName, baseName]

theorem toOption_columns_eq (hst : s.Extends t) (hts : t.Extends s) (p : Path) :
    (Columns.load s p).toOption = (Columns.load t p).toOption := by
  cases hs : Columns.load s p with
  | ok fields => rw [hst.columns hs]
  | error cause =>
    cases ht : Columns.load t p with
    | ok fields => simp [hts.columns ht] at hs
    | error cause' => rfl

theorem ofEntry_fst_eq (hst : s.Extends t) (hts : t.Extends s) (directory : Path) (level : Nat)
    (name : String) : (ofEntry s directory level name).1 = (ofEntry t directory level name).1 := by
  ext f
  simp only [ofEntry_fst_eq_some_iff, toOption_columns_eq hst hts]

end Entries

section Order

def fieldsKey : Option (List String) → WithBot (List String)
  | none => ⊥
  | some names => ↑names

def key (f : Shapefile) : ℕ ×ₗ ℕ ×ₗ String ×ₗ WithBot (List String) :=
  toLex (f.level, toLex (f.geometry.rank, toLex (f.feature, fieldsKey f.fields)))

theorem fieldsKey_injective : Function.Injective fieldsKey := by
  intro xs ys h
  cases xs <;> cases ys <;> simp_all [fieldsKey]

theorem rank_injective : Function.Injective Geometry.rank := by
  intro g h heq
  cases g <;> cases h <;> simp_all [Geometry.rank]

theorem key_injective : Function.Injective key := by
  intro a b h
  obtain ⟨la, ga, fa, xa⟩ := a
  obtain ⟨lb, gb, fb, xb⟩ := b
  simp only [key, toLex_inj, Prod.mk.injEq] at h
  obtain ⟨rfl, hrank, rfl, hfields⟩ := h
  rw [rank_injective hrank, fieldsKey_injective hfields]

theorem fieldsLe_iff (xs ys : Option (List String)) :
    fieldsLe xs ys = true ↔ fieldsKey xs ≤ fieldsKey ys := by
  match xs, ys with
  | none, _ => simp [fieldsLe, fieldsKey]
  | some xs, none => simp [fieldsLe, fieldsKey]
  | some xs, some ys =>
    have hlex : List.lex ys xs = true ↔ ys < xs := List.lex_eq_true_iff_lt
    simp only [fieldsKey, WithBot.coe_le_coe]
    rw [← not_lt, ← hlex, fieldsLe, Bool.not_eq_true', Bool.not_eq_true]

theorem le_iff (a b : Shapefile) : le a b = true ↔ key a ≤ key b := by
  simp only [key, Prod.Lex.toLex_le_toLex, ← fieldsLe_iff]
  unfold le
  split
  · next hlevel => simp [hlevel]
  · next hlevel =>
    split
    · next hgeometry => simp [not_not.mp hlevel, rank_injective.ne hgeometry]
    · next hgeometry =>
      split
      · next hfeature => simp [not_not.mp hlevel, not_not.mp hgeometry, hfeature]
      · next hfeature => simp [not_not.mp hlevel, not_not.mp hgeometry, not_not.mp hfeature]

theorem sort_eq_of_perm {xs ys : List Shapefile} (h : xs.Perm ys) : sort xs = sort ys := by
  have hsorted (zs : List Shapefile) : (sort zs).Pairwise fun a b => le a b = true :=
    List.pairwise_mergeSort
      (fun a b c hab hbc => (le_iff a c).mpr (((le_iff a b).mp hab).trans ((le_iff b c).mp hbc)))
      (fun a b => by simpa [le_iff] using le_total (key a) (key b)) zs
  refine List.Perm.eq_of_pairwise (fun a b _ _ hab hba => ?_) (hsorted xs) (hsorted ys)
    (((List.mergeSort_perm xs le).trans h).trans (List.mergeSort_perm ys le).symm)
  exact key_injective (le_antisymm ((le_iff a b).mp hab) ((le_iff b a).mp hba))

end Order

section Scan

variable {s t : Store} {data : Path} {level : Nat} {names : List String}

def filesOf (s : Store) (directory : Path) (level : Nat) (names : List String) : List Shapefile :=
  names.filterMap fun name => (ofEntry s directory level name).1

theorem mem_filesOf_iff {directory : Path} {f : Shapefile} :
    f ∈ filesOf s directory level names ↔
      ∃ name ∈ names, (ofEntry s directory level name).1 = some f :=
  List.mem_filterMap

theorem scan_of_listed {list : Store.Listing}
    (hdirectory : s.isDirectory (data.below (levelName level)) = true)
    (h : list s (data.below (levelName level)) = .ok names) :
    ∃ log, scan s data level list =
      .ok (sort (filesOf s (data.below (levelName level)) level names), log) := by
  unfold scan
  simp only [hdirectory, if_true, h, filesOf, List.filterMap_map]
  exact ⟨_, rfl⟩

theorem scan_of_names (h : s.names (data.below (levelName level)) = .ok names) :
    ∃ log, scan s data level =
      .ok (sort (filesOf s (data.below (levelName level)) level names), log) :=
  scan_of_listed (Store.isDirectory_of_names h) h

theorem map_fileName_filesOf (directory : Path) :
    ((filesOf s directory level names).map fileName).Sublist names := by
  induction names with
  | nil => exact List.Sublist.refl []
  | cons name names ih =>
    cases hentry : (ofEntry s directory level name).1 with
    | none =>
      simp only [filesOf, List.filterMap_cons, hentry]
      exact ih.cons name
    | some f =>
      obtain ⟨-, -, -, -, hname, -⟩ := ofEntry_fst_eq_some_iff.mp hentry
      simp only [filesOf, List.filterMap_cons, hentry, List.map_cons, ← hname]
      exact ih.cons_cons name

theorem layerOf_data_append (p : Presentation) (maxScale : Nat) (f : Shapefile) :
    (Level.layerOf p f.level maxScale f).data ++ suffix =
      levelName f.level ++ "/" ++ f.fileName := by
  simp only [Level.layerOf, Layer.ofFeature, fileName, baseName, String.append_assoc]

theorem layerOf_name (p : Presentation) (maxScale : Nat) (f : Shapefile) :
    (Level.layerOf p f.level maxScale f).name = f.baseName :=
  rfl

/--
However a level's directory is listed, one shapefile is found for each name of the right form and
none for any other; the data of its layer are the file that it comes from.
-/
theorem scan_inverts_naming {t : Store} {others : List String} (hst : s.Extends t)
    (hts : t.Extends s) (hs : s.names (data.below (levelName level)) = .ok names)
    (ht : t.names (data.below (levelName level)) = .ok others) (hnames : names.Nodup)
    (hothers : others.Nodup) (p : Presentation) (maxScale : Nat) :
    ∃ files log, scan s data level = .ok (files, log) ∧
      (∃ log', scan t data level = .ok (files, log')) ∧
      (files.map fileName).Nodup ∧
      (∀ name, name ∈ files.map fileName ↔ name ∈ names ∧ level < 10 ∧ IsNameAt level name) ∧
      (∀ f ∈ files, ∃ name ∈ names,
        (ofEntry s (data.below (levelName level)) level name).1 = some f ∧
        (Level.layerOf p level maxScale f).data ++ suffix = levelName level ++ "/" ++ name) ∧
      (files.map fun f => (Level.layerOf p level maxScale f).name).Nodup := by
  obtain ⟨log, hscan⟩ := scan_of_names hs
  obtain ⟨log', hscan'⟩ := scan_of_names ht
  have hperm : names.Perm others := by
    obtain ⟨l, hlocate, -, hmem⟩ := Store.mem_names_iff hs
    obtain ⟨l', hlocate', -, hmem'⟩ := Store.mem_names_iff ht
    cases (hst.locate hlocate).symm.trans hlocate'
    refine (List.perm_ext_iff_of_nodup hnames hothers).mpr fun name => ?_
    rw [hmem, hmem']
    exact ⟨hst.isSome_kind?, hts.isSome_kind?⟩
  set directory := data.below (levelName level) with hdirectory
  set files := sort (filesOf s directory level names) with hfiles
  have hsame : sort (filesOf t directory level others) = files := by
    have hfun : (fun name => (ofEntry t directory level name).1) =
        fun name => (ofEntry s directory level name).1 :=
      funext fun name => ofEntry_fst_eq hts hst directory level name
    rw [filesOf, hfun]
    exact sort_eq_of_perm (hperm.symm.filterMap _)
  have hmem (f : Shapefile) : f ∈ files ↔
      ∃ name ∈ names, (ofEntry s directory level name).1 = some f := by
    rw [hfiles, sort, List.mem_mergeSort, mem_filesOf_iff]
  have hlevel {f : Shapefile} (hf : f ∈ files) : f.level = level := by
    obtain ⟨name, -, hentry⟩ := (hmem f).mp hf
    exact (ofEntry_fst_eq_some_iff.mp hentry).1
  have hdistinct : (files.map fileName).Nodup :=
    ((List.mergeSort_perm _ _).map fileName).nodup_iff.mpr
      (hnames.sublist (map_fileName_filesOf directory))
  refine ⟨files, log, hscan, ⟨log', hsame ▸ hscan'⟩, hdistinct, ?inNames, ?origin, ?layers⟩
  case inNames =>
    intro name
    rw [List.mem_map, ← @exists_ofEntry_iff s directory]
    constructor
    · rintro ⟨f, hf, rfl⟩
      obtain ⟨name, hname, hentry⟩ := (hmem f).mp hf
      obtain ⟨-, -, -, -, rfl, -⟩ := ofEntry_fst_eq_some_iff.mp hentry
      exact ⟨hname, f, hentry⟩
    · rintro ⟨hname, f, hentry⟩
      obtain ⟨-, -, -, -, heq, -⟩ := ofEntry_fst_eq_some_iff.mp hentry
      exact ⟨f, (hmem f).mpr ⟨name, hname, hentry⟩, heq.symm⟩
  case origin =>
    intro f hf
    obtain ⟨name, hname, hentry⟩ := (hmem f).mp hf
    obtain ⟨rfl, -, -, -, heq, -⟩ := ofEntry_fst_eq_some_iff.mp hentry
    refine ⟨name, hname, hentry, ?_⟩
    rw [heq]
    exact layerOf_data_append p maxScale f
  case layers =>
    have hname : files.map (fun f => (Level.layerOf p level maxScale f).name) =
        files.map baseName :=
      List.map_congr_left fun f hf => by rw [← hlevel hf]; exact layerOf_name p maxScale f
    rw [hname]
    have hmap : files.map fileName = (files.map baseName).map (· ++ suffix) := by
      simp [fileName]
    exact List.Nodup.of_map _ (hmap ▸ hdistinct)

def levelStore (level : Nat) (names : List String) : Store where
  root := .directory [("data", .directory [(levelName level,
    .directory (names.map fun n => (n, .file [])))])]

theorem levelStore_extends (level : Nat) {xs ys : List String} (h : xs ⊆ ys) :
    (levelStore level xs).Extends (levelStore level ys) := by
  have hlookup {names : List String} {n : String} {e : Entry} :
      (names.map fun n => (n, Entry.file [])).lookup n = some e ↔ n ∈ names ∧ e = .file [] := by
    induction names with
    | nil => simp
    | cons m names ih =>
      by_cases hn : n = m
      · simp [hn, eq_comm]
      · have hne : (n == m) = false := by simpa using hn
        simp [List.lookup_cons, hne, hn, ih]
  have hnested {e f : Entry} (name : String) (hef : e.Within f) :
      (Entry.directory [(name, e)]).Within (.directory [(name, f)]) := by
    refine Entry.within_directory fun n e' he' => ?_
    simp only [List.lookup_cons, List.lookup_nil] at he' ⊢
    split at he'
    · next heq =>
      cases he'
      exact ⟨f, rfl, hef⟩
    · simp at he'
  have hlisted : (Entry.directory (xs.map fun n => (n, .file []))).Within
      (.directory (ys.map fun n => (n, .file []))) := by
    refine Entry.within_directory fun n e he => ?_
    obtain ⟨hn, rfl⟩ := hlookup.mp he
    exact ⟨.file [], hlookup.mpr ⟨h hn, rfl⟩, fun _ _ hk => hk⟩
  exact ⟨rfl, hnested "data" (hnested (levelName level) hlisted)⟩

theorem scan_inverts_naming_reordered :
    let names := ["CL4-Line-X-Point-Y.shp", "readme", "CL4-Area-a.shp.shp", "CL5-Area-a.shp"]
    let others := ["CL5-Area-a.shp", "readme", "CL4-Area-a.shp.shp", "CL4-Line-X-Point-Y.shp"]
    let s := levelStore 4 names
    let t := levelStore 4 others
    s.names ⟨"data/CL4"⟩ = .ok names ∧ t.names ⟨"data/CL4"⟩ = .ok others ∧
      ∃ files log log', scan s ⟨"data"⟩ 4 = .ok (files, log) ∧
        scan t ⟨"data"⟩ 4 = .ok (files, log') ∧ "CL4-Area-a.shp.shp" ∈ files.map fileName := by
  intro names others s t
  have hs : s.names (Path.below ⟨"data"⟩ (levelName 4)) = .ok names := by decide +kernel
  have ht : t.names (Path.below ⟨"data"⟩ (levelName 4)) = .ok others := by decide +kernel
  refine ⟨by decide +kernel, by decide +kernel, ?_⟩
  obtain ⟨files, log, hfiles, ⟨log', hothers⟩, -, hnames, -⟩ :=
    scan_inverts_naming (levelStore_extends 4 (by decide)) (levelStore_extends 4 (by decide)) hs ht
      (by decide) (by decide) default 0
  refine ⟨files, log, log', hfiles, hothers, (hnames _).mpr ⟨by decide, by decide, ?_⟩⟩
  exact ⟨.area, "a.shp", by decide, by decide, by decide +kernel⟩

theorem scan_misses_longLevel :
    let s := levelStore 10 ["CL10-Point-BOYCAR.shp"]
    s.names ⟨"data/CL10"⟩ = .ok ["CL10-Point-BOYCAR.shp"] ∧ IsNameAt 10 "CL10-Point-BOYCAR.shp" ∧
      scan s ⟨"data"⟩ 10 = .ok ([], []) := by
  intro s
  have hnames : s.names ⟨"data/CL10"⟩ = .ok ["CL10-Point-BOYCAR.shp"] := by decide +kernel
  have hname : IsNameAt 10 "CL10-Point-BOYCAR.shp" :=
    ⟨.point, "BOYCAR", by decide, by decide, by decide +kernel⟩
  have hbelow : Path.below ⟨"data"⟩ (levelName 10) = ⟨"data/CL10"⟩ := by decide +kernel
  have hdirectory : s.isDirectory ⟨"data/CL10"⟩ = true := by decide +kernel
  have hread : readName "CL10-Point-BOYCAR.shp" = none := by decide +kernel
  refine ⟨hnames, hname, ?_⟩
  simp [scan, hbelow, hdirectory, hnames, ofEntry, hread, sort]

end Scan

end Shapefile

end SeaChart
