import Mathlib.Data.List.Basic
import SeaChart.Proofs.LexicalPlaces
import SeaChart.Proofs.Listings

namespace SeaChart

open SeaChart.Path

theorem andThen_related {α β : Type} {R : Store → Store → Prop}
    (htrans : ∀ {s t u}, R s t → R t u → R s u)
    {effect : Store → Except GenerateError α × Store}
    {next : α → Store → Except GenerateError β × Store} {s : Store} (h : R s (effect s).2)
    (hnext : ∀ x t, effect s = (.ok x, t) → R t (next x t).2) : R s (andThen effect next s).2 := by
  unfold andThen
  rcases heffect : effect s with ⟨e | x, t⟩
  · rwa [heffect] at h
  · rw [heffect] at h
    exact htrans h (hnext x t heffect)

namespace Store

variable {s t u : Store} {P : String → Prop} {n : String} {l : Location} {force : Bool}

structure DiffersBy (P : String → Prop) (s t : Store) : Prop where
  workingDirectory : t.workingDirectory = s.workingDirectory
  kind? : ∀ l, t.kind? l = s.kind? l ∨ t.kind? l = some .directory ∨
    ∃ n, l.getLast? = some n ∧ P n

namespace DiffersBy

theorem refl (s : Store) : DiffersBy P s s :=
  ⟨rfl, fun _ => Or.inl rfl⟩

theorem trans (h : DiffersBy P s t) (h' : DiffersBy P t u) : DiffersBy P s u := by
  refine ⟨h'.workingDirectory.trans h.workingDirectory, fun l => ?_⟩
  rcases h'.kind? l with heq | hnew
  · rw [heq]
    exact h.kind? l
  · exact Or.inr hnew

end DiffersBy

theorem Builds.differsBy (h : s.Builds t) : DiffersBy P s t :=
  ⟨h.workingDirectory, fun l => (h.kind? l).imp id fun hnew => Or.inl hnew.2⟩

theorem Puts.differsBy {k : Kind} (h : s.Puts t l k) (hl : ∃ n, l.getLast? = some n ∧ P n) :
    DiffersBy P s t := by
  refine ⟨h.workingDirectory, fun m => ?_⟩
  rw [h.kind?]
  split
  · next heq => exact Or.inr (Or.inr (heq ▸ hl))
  · exact Or.inl rfl

theorem differsBy_save {p : Path} (hlast : p.pieces.getLast? = some n) (hstep : IsStep n)
    (hn : P n) (text : String) (force : Bool) : DiffersBy P s (s.save p text force).2 := by
  obtain ⟨t, hbuilds, heq | hputs⟩ := save_builds (s := s) hlast hstep text force
  · rw [heq]
    exact hbuilds.differsBy
  · exact hbuilds.differsBy.trans (hputs.differsBy ⟨n, s.getLast?_lexicalPlace hlast hstep, hn⟩)

theorem differsBy_saveAll {files : List (Path × String)}
    (h : ∀ f ∈ files, ∃ n, f.1.pieces.getLast? = some n ∧ IsStep n ∧ P n) :
    DiffersBy P s (s.saveAll force files).2 := by
  induction files generalizing s with
  | nil => exact .refl s
  | cons f files ih =>
    obtain ⟨path, text⟩ := f
    obtain ⟨n, hlast, hstep, hn⟩ := h _ List.mem_cons_self
    have hsaved : DiffersBy P s (s.save path text force).2 := differsBy_save hlast hstep hn _ _
    simp only [saveAll]
    split
    · next cause t heq => simpa [heq] using hsaved
    · next written t heq =>
      have ht : DiffersBy P s t := by simpa [heq] using hsaved
      exact ht.trans (ih fun g hg => h g (List.mem_cons_of_mem _ hg))

end Store

section Texts

def IsRuleName (n : String) : Prop :=
  ".txt".toList <:+ n.toList

theorem isStep_of_isRuleName {n : String} (h : IsRuleName n) : Store.IsStep n := by
  have hlength := h.length_le
  rintro (rfl | rfl | rfl) <;> simp at hlength

theorem getLast?_splitOn_append (xs : List Char) {ys : List Char} {c : Char} (h : c ∉ ys) :
    ∃ zs, ((xs ++ ys).splitOn c).getLast? = some (zs ++ ys) := by
  induction xs with
  | nil => exact ⟨[], by simp [List.splitOn_eq_singleton h]⟩
  | cons x xs ih =>
    obtain ⟨zs, hzs⟩ := ih
    obtain ⟨first, rest, hsplit⟩ := List.exists_cons_of_ne_nil (List.splitOn_ne_nil c (xs ++ ys))
    rw [List.cons_append, List.splitOn_cons_eq_if_modifyHead]
    rw [hsplit] at hzs ⊢
    split
    · exact ⟨zs, by simpa using hzs⟩
    · cases rest with
      | nil =>
        obtain rfl : first = zs ++ ys := by simpa using hzs
        exact ⟨x :: zs, by simp⟩
      | cons second rest => exact ⟨zs, by simpa using hzs⟩

theorem exists_ruleName (text : String) :
    ∃ n, (Path.mk (text ++ ".txt")).pieces.getLast? = some n ∧ IsRuleName n := by
  have hslash : '/' ∉ ".txt".toList := by decide
  obtain ⟨zs, hzs⟩ := getLast?_splitOn_append text.toList hslash
  refine ⟨String.ofList (zs ++ ".txt".toList), ?_, ?_⟩
  · simp only [pieces, String.toList_append, List.getLast?_map, hzs, Option.map_some]
  · simp [IsRuleName]

theorem exists_ruleName_below (directory : Path) (name : String) :
    ∃ n, (directory.below (name ++ ".txt")).pieces.getLast? = some n ∧ IsRuleName n := by
  unfold below join
  dsimp only
  split
  · exact exists_ruleName name
  · split
    · rw [← String.append_assoc]
      exact exists_ruleName _
    · rw [← String.append_assoc]
      exact exists_ruleName _

end Texts

section Directory

variable {b : Store} {stack : List Component} {k n : String}

theorem textFault_above (h : IsNormal (.name k :: stack)) (hn : IsName n)
    (hfault : Store.textFault (ofStack (.name n :: .name k :: stack)) = none) :
    Store.textFault (ofStack (.name k :: stack)) = none := by
  have habove : (ofStack (.name k :: stack)).text = lead stack ++ k := text_ofStack h (by simp)
  have hbelow : (ofStack (.name n :: .name k :: stack)).text = lead stack ++ k ++ ("/" ++ n) := by
    rw [text_ofStack (.name hn h) (by simp)]
    simp [lead, Component.piece, String.append_assoc]
  have hk : k ≠ "" := fun hempty => (h.isName List.mem_cons_self).isStep (Or.inl hempty)
  have hne : lead stack ++ k ≠ "" := by
    rw [← String.toList_inj.ne, String.toList_append]
    simp [hk]
  unfold Store.textFault at hfault ⊢
  rw [hbelow] at hfault
  rw [habove]
  split at hfault
  · cases hfault
  · next hnul =>
    split at hfault
    · cases hfault
    · split at hfault
      · cases hfault
      · next hlong =>
        have hnul' : ¬(lead stack ++ k).toList.contains '\x00' := by
          simp only [String.toList_append, List.contains_append, Bool.or_eq_true, not_or] at hnul ⊢
          exact hnul.1
        have hshort : ¬(lead stack ++ k).utf8ByteSize > Store.pathLimit := by
          rw [String.utf8ByteSize_append] at hlong
          omega
        simp only [hnul', hne, hshort, if_false]
        rfl

theorem hasEntries_of_contains (h : IsNormal (.name k :: stack)) (hn : IsName n)
    (hthere : b.contains (ofStack (.name n :: .name k :: stack)) = true) :
    b.hasEntries (ofStack (.name k :: stack)) = true := by
  obtain ⟨hfault, hreaches, hsome⟩ := (Store.contains_ofStack_iff (.name hn h)).mp hthere
  have hdirectory : b.kind? (b.place (.name k :: stack)) = some .directory :=
    Store.kind?_eq_directory_of_append hsome
  have hlocate := (Store.locate_eq_ok_iff h).mpr ⟨textFault_above h hn hfault,
    Store.reaches_tail hreaches, rfl, Option.isSome_of_eq_some hdirectory⟩
  exact Store.hasEntries_iff.mpr ⟨_, n, hlocate, hsome⟩

theorem absent_of_not_hasEntries (h : IsNormal (.name k :: stack)) (hn : IsName n)
    (hempty : b.hasEntries (ofStack (.name k :: stack)) = false)
    (hfault : Store.textFault (ofStack (.name n :: .name k :: stack)) = none)
    (hreaches : b.Reaches (.name n :: .name k :: stack)) :
    b.kind? (b.place (.name n :: .name k :: stack)) = none := by
  rw [← Option.not_isSome_iff_eq_none]
  intro hsome
  have hthere := (Store.contains_ofStack_iff (.name hn h)).mpr ⟨hfault, hreaches, hsome⟩
  simp [hasEntries_of_contains h hn hthere] at hempty

theorem extends_saveUnless (h : IsNormal (.name k :: stack)) {skip : Bool}
    {files : List (Path × String)}
    (hskip : skip = b.hasEntries (ofStack (.name k :: stack)))
    (hfiles : ∀ f ∈ files, ∃ n, IsName n ∧ f.1 = ofStack (.name n :: .name k :: stack)) :
    b.Extends (b.saveUnless skip files).2 := by
  unfold Store.saveUnless
  split
  · exact .refl b
  · next hsaved =>
    have hempty : b.hasEntries (ofStack (.name k :: stack)) = false := by
      rw [← hskip]
      simpa using hsaved
    refine (Store.adds_saveAll (.refl b (.name k :: stack)) fun f hf => ?_).toExtends
    obtain ⟨n, hn, heq⟩ := hfiles f hf
    exact ⟨n, .name hn h, heq, heq ▸ absent_of_not_hasEntries h hn hempty⟩

end Directory

namespace RuleSet

variable {p : Presentation} {ruleSet : Path} {stack : List Component}

theorem isRuleName_palettes {f : Path × String} (hf : f ∈ savedPalettes p ruleSet) :
    ∃ n, f.1.pieces.getLast? = some n ∧ Store.IsStep n ∧ IsRuleName n := by
  simp only [savedPalettes, paletteFiles, List.map_map, List.mem_map, Function.comp_apply] at hf
  obtain ⟨⟨name, palette⟩, -, rfl⟩ := hf
  obtain ⟨n, hlast, hn⟩ := exists_ruleName_below (paletteDirectory ruleSet) name
  exact ⟨n, hlast, isStep_of_isRuleName hn, hn⟩

theorem isRuleName_layers {f : Path × String} (hf : f ∈ savedLayers p ruleSet) :
    ∃ n, f.1.pieces.getLast? = some n ∧ Store.IsStep n ∧ IsRuleName n := by
  simp only [savedLayers, List.mem_map] at hf
  obtain ⟨g, -, rfl⟩ := hf
  obtain ⟨n, hlast, hn⟩ := exists_ruleName_below (layerDirectory ruleSet) g.name
  exact ⟨n, hlast, isStep_of_isRuleName hn, hn⟩

theorem isName_ruleFile {name : String} (h : '/' ∉ name.toList) : IsName (name ++ ".txt") where
  isStep := isStep_of_isRuleName (by simp [IsRuleName])
  noSlash := by simpa using h

theorem isName_paletteDirectory : IsName "color_tables" := by
  decide +kernel

theorem isName_layerDirectory : IsName "layer_rules" := by
  decide +kernel

theorem exists_palettePlace (h : IsNormal stack)
    (hnames : ∀ name ∈ p.palettes.keys, '/' ∉ name.toList) {f : Path × String}
    (hf : f ∈ savedPalettes p (ofStack stack)) :
    ∃ n, IsName n ∧ f.1 = ofStack (.name n :: .name "color_tables" :: stack) := by
  simp only [savedPalettes, paletteFiles, List.map_map, List.mem_map, Function.comp_apply] at hf
  obtain ⟨⟨name, palette⟩, hmem, rfl⟩ := hf
  have hname := isName_ruleFile (hnames name (List.mem_map_of_mem hmem))
  refine ⟨_, hname, ?_⟩
  simp only [paletteDirectory, below_ofStack h isName_paletteDirectory]
  exact below_ofStack (.name isName_paletteDirectory h) hname

theorem exists_layerPlace (h : IsNormal stack) {f : Path × String}
    (hf : f ∈ savedLayers p (ofStack stack)) :
    ∃ n, IsName n ∧ f.1 = ofStack (.name n :: .name "layer_rules" :: stack) := by
  simp only [savedLayers, List.mem_map] at hf
  obtain ⟨g, -, rfl⟩ := hf
  have hname : IsName (layerFileName g) := isName_ruleFile (by cases g <;> decide)
  refine ⟨_, hname, ?_⟩
  simp only [layerDirectory, below_ofStack h isName_layerDirectory]
  exact below_ofStack (.name isName_layerDirectory h) hname

end RuleSet

namespace Chart

open RuleSet

variable {list : Store.Listing} {r : Request} {s : Settings} {b : Store} {stack : List Component}

theorem differsBy_prepare (list : Store.Listing) (r : Request) (s : Settings) (b : Store) :
    b.DiffersBy IsRuleName (prepare list r s b).2 := by
  unfold prepare
  have hsaved {c : Store} {skip : Bool} {files : List (Path × String)}
      (h : ∀ f ∈ files, ∃ n, f.1.pieces.getLast? = some n ∧ Store.IsStep n ∧ IsRuleName n) :
      c.DiffersBy IsRuleName (c.saveUnless skip files).2 := by
    unfold Store.saveUnless
    split
    · exact .refl c
    · exact Store.differsBy_saveAll h
  refine andThen_related (R := Store.DiffersBy IsRuleName) .trans (.refl b) fun p c _ => ?_
  refine andThen_related (R := Store.DiffersBy IsRuleName) .trans ?_ fun _ d _ => ?_
  · exact hsaved fun f => isRuleName_palettes
  refine andThen_related (R := Store.DiffersBy IsRuleName) .trans ?_ fun _ e _ => ?_
  · split <;> exact .refl d
  refine andThen_related (R := Store.DiffersBy IsRuleName) .trans ?_ fun _ u _ => .refl u
  exact hsaved fun f => isRuleName_layers

theorem extends_palettes {p : Presentation} (h : IsNormal stack)
    (hruleSet : s.places.ruleSet = ofStack stack)
    (hnames : ∀ name ∈ p.palettes.keys, '/' ∉ name.toList) :
    b.Extends (afterPalettes Store.names s p b).2 := by
  refine extends_saveUnless (.name isName_paletteDirectory h) ?_
    fun f hf => exists_palettePlace h hnames (hruleSet ▸ hf)
  rw [hruleSet, paletteDirectory, below_ofStack h isName_paletteDirectory]

theorem extends_layers (p : Presentation) (hforce : r.force = false) (h : IsNormal stack)
    (hruleSet : s.places.ruleSet = ofStack stack) :
    b.Extends (afterLayers Store.names r s p b).2 := by
  refine extends_saveUnless (.name isName_layerDirectory h) ?_
    fun f hf => exists_layerPlace h (hruleSet ▸ hf)
  rw [hruleSet, layerDirectory, below_ofStack h isName_layerDirectory, hforce]
  simp

theorem extends_prepare (hforce : r.force = false) (h : IsNormal stack)
    (hruleSet : s.places.ruleSet = ofStack stack)
    (hnames : ∀ p, libraryAt b s.places.library (s.selection Theme.day.palette) = .ok p →
      ∀ name ∈ p.palettes.keys, '/' ∉ name.toList) :
    b.Extends (prepare Store.names r s b).2 := by
  unfold prepare
  refine andThen_related (R := Store.Extends) .trans (.refl b) fun p c hlibrary => ?_
  obtain ⟨hp, rfl⟩ := Prod.mk.inj hlibrary
  refine andThen_related (R := Store.Extends) .trans (extends_palettes h hruleSet (hnames p hp))
    fun _ d _ => ?_
  refine andThen_related (R := Store.Extends) .trans ?_ fun _ e _ => ?_
  · split <;> exact .refl d
  exact andThen_related (R := Store.Extends) .trans (extends_layers p hforce h hruleSet)
    fun _ u _ => .refl u

theorem prepare_eq (hlist : list.IsFaithful) (hsteady : list.IsSteady b) (h : IsNormal stack)
    (hruleSet : s.places.ruleSet = ofStack stack)
    (hnames : ∀ p, libraryAt b s.places.library (s.selection Theme.day.palette) = .ok p →
      ∀ name ∈ p.palettes.keys, '/' ∉ name.toList)
    (hpalettes : list.Opens b (paletteDirectory s.places.ruleSet))
    (hlayers : list.Opens b (layerDirectory s.places.ruleSet)) :
    prepare list r s b = prepare Store.names r s b := by
  unfold prepare
  refine andThen_congr rfl fun p c hlibrary => ?_
  obtain ⟨hp, rfl⟩ := Prod.mk.inj hlibrary
  refine andThen_congr ?palettes fun _ d hsaved => andThen_congr rfl fun _ e hformat => ?_
  case palettes =>
    unfold afterPalettes
    rw [Store.Listing.hasEntries_eq hlist hpalettes]
  obtain rfl : d = e := by
    split at hformat
    · cases hformat
    · exact (Prod.mk.inj hformat).2
  have hextends : b.Extends d := by
    have hfirst := extends_palettes (b := b) h hruleSet (hnames p hp)
    rwa [hsaved] at hfirst
  refine andThen_congr ?_ fun _ _ _ => rfl
  unfold afterLayers
  rw [Store.Listing.hasEntries_eq hlist (hsteady (.refl _) hextends hlayers)]

end Chart

end SeaChart
