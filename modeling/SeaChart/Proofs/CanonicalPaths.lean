import SeaChart.Proofs.LexicalPlaces

/-!
A path is a walk from directory to directory. Two paths have the same normal form exactly when they
lead to the same place from wherever they start, so settings do not depend on how their paths are
spelled.
-/

namespace SeaChart

namespace Path

open Store (visit)

def destination (start : Location) (p : Path) : Location :=
  p.pieces.foldl visit (if p.isAbsolute then [] else start)

def SamePlace (p q : Path) : Prop :=
  ∀ start : Location, (∀ n ∈ start, IsName n) → destination start p = destination start q

section Walk

variable {stack other : List Component}

theorem destination_eq_lexicalPlace (s : Store) (p : Path) :
    destination s.workingDirectory p = s.lexicalPlace p := by
  rw [Store.lexicalPlace, Store.foldl_push_components, ← Store.foldl_visit_place,
    ← Store.start_eq_place]
  rfl

theorem destination_normalize (start : Location) (p : Path) :
    destination start p.normalize = destination start p := by
  let s : Store := { root := default, workingDirectory := start }
  have hnormal : IsNormal (p.components.foldl push []) :=
    .foldl_push .nil fun n => isName_of_mem_components
  calc destination start p.normalize
    _ = s.lexicalPlace (ofStack (p.components.foldl push [])) := destination_eq_lexicalPlace s _
    _ = s.lexicalPlace p := Store.lexicalPlace_ofStack hnormal
    _ = destination start p := (destination_eq_lexicalPlace s p).symm

theorem length_place_parents (s : Store) (count : Nat) :
    (s.place (List.replicate count .parent)).length = s.workingDirectory.length - count := by
  induction count with
  | zero => rfl
  | succ count ih =>
    rw [List.replicate_succ, Store.place, List.length_dropLast, ih]
    omega

def deepStore (depth : Nat) : Store where
  root := default
  workingDirectory := List.replicate depth "x"

theorem length_place_deepStore (depth count : Nat) :
    ((deepStore depth).place (List.replicate count .parent)).length = depth - count := by
  rw [length_place_parents, deepStore, List.length_replicate]

theorem place_parents_ne_root (count : Nat) :
    (deepStore (count + 1)).place (List.replicate count .parent) ≠
      (deepStore (count + 1)).place [.root] := by
  intro heq
  have hlength := congrArg List.length heq
  rw [length_place_deepStore] at hlength
  simp [Store.place] at hlength

theorem place_parents_ne_name (count : Nat) (n : String) :
    (deepStore 0).place (List.replicate count .parent) ≠
      (deepStore 0).place (.name n :: stack) := by
  intro heq
  have hlength := congrArg List.length heq
  rw [length_place_deepStore] at hlength
  simp [Store.place] at hlength

/-- Starts at the root tell names apart, starts deep below it the steps to the parent. -/
theorem eq_of_place (h : IsNormal stack) (h' : IsNormal other)
    (heq : ∀ depth, (deepStore depth).place stack = (deepStore depth).place other) :
    stack = other := by
  induction h generalizing other with
  | root =>
    cases h' with
    | root => rfl
    | parents count => exact absurd (heq _).symm (place_parents_ne_root count)
    | name _ _ => simpa [Store.place] using heq 0
  | parents count =>
    cases h' with
    | root => exact absurd (heq _) (place_parents_ne_root count)
    | parents count' =>
      -- Stacks of parents are told apart by a working directory that is deeper than both.
      have hlength := congrArg List.length (heq (count + count'))
      rw [length_place_deepStore, length_place_deepStore] at hlength
      congr 1
      omega
    | name _ _ => exact absurd (heq 0) (place_parents_ne_name count _)
  | name _ h ih =>
    cases h' with
    | root => simpa [Store.place] using heq 0
    | parents count => exact absurd (heq 0).symm (place_parents_ne_name count _)
    | name _ h' =>
      simp only [Store.place, List.append_singleton_inj] at heq
      rw [ih h' fun depth => (heq depth).1, (heq 0).2]

theorem normalize_eq_iff (p q : Path) : p.normalize = q.normalize ↔ SamePlace p q := by
  constructor
  · intro h start _
    rw [← destination_normalize, h, destination_normalize]
  · intro h
    have hstack : p.components.foldl push [] = q.components.foldl push [] := by
      apply eq_of_place (.foldl_push .nil fun n => isName_of_mem_components)
        (.foldl_push .nil fun n => isName_of_mem_components)
      intro depth
      have hnames : ∀ n ∈ (deepStore depth).workingDirectory, IsName n := by
        intro n hn
        rw [List.eq_of_mem_replicate hn]
        decide +kernel
      have hplace := h _ hnames
      rwa [destination_eq_lexicalPlace, destination_eq_lexicalPlace] at hplace
    rw [normalize, normalize, normalComponents, normalComponents, hstack]

theorem normalize_normalize (p : Path) : p.normalize.normalize = p.normalize := by
  rw [normalize_eq_iff]
  intro start _
  exact destination_normalize start p

end Walk

section Join

variable {p other base base' : Path}

theorem destination_of_relative (h : p.isAbsolute = false) (start : Location) :
    destination start p = p.pieces.foldl visit start := by
  rw [destination, h]
  rfl

theorem destination_slash (start : Location) {text : String} (h : text ≠ "") :
    destination start ⟨text ++ "/"⟩ = destination start ⟨text⟩ := by
  rw [destination, destination, isAbsolute_append h, pieces_slash, List.foldl_append]
  rfl

theorem destination_append_slash (start : Location) (text rest : String) :
    destination start ⟨text ++ "/" ++ rest⟩ =
      (Path.mk rest).pieces.foldl visit (destination start ⟨text ++ "/"⟩) := by
  have hfilled : text ++ "/" ≠ "" := by simp
  rw [destination, destination, isAbsolute_append hfilled, pieces_append, pieces_slash,
    List.foldl_append, List.foldl_append]
  rfl

theorem destination_join (start : Location) (base p : Path) :
    destination start (base.join p) = destination (destination start base) p := by
  obtain ⟨text⟩ := base
  unfold join
  split
  · next habsolute => simp only [destination, habsolute, if_true]
  · next hrelative =>
    rw [Bool.not_eq_true] at hrelative
    rw [destination_of_relative hrelative (destination start ⟨text⟩)]
    by_cases hempty : text = ""
    · subst hempty
      rw [if_pos (Or.inl rfl), String.empty_append]
      exact destination_of_relative hrelative start
    · split
      · next hdirectory =>
        obtain ⟨front, hfront⟩ := List.getLast?_eq_some_iff.mp (hdirectory.resolve_left hempty)
        obtain rfl : text = String.ofList front ++ "/" := by
          rw [← String.toList_inj, hfront, String.toList_append, String.toList_ofList]
          rfl
        exact destination_append_slash start _ p.text
      · rw [← destination_slash start hempty]
        exact destination_append_slash start text p.text

theorem normalize_join (base p : Path) :
    (base.join p).normalize = (base.normalize.join p).normalize := by
  rw [normalize_eq_iff]
  intro start _
  rw [destination_join, destination_join, destination_normalize]

theorem SamePlace.destination_eq (h : SamePlace p other) (start : Location) :
    destination start p = destination start other := by
  rw [← destination_normalize, (normalize_eq_iff p other).mpr h, destination_normalize]

theorem SamePlace.relativeTo_eq (hbase : SamePlace base base') (h : SamePlace p other) :
    base.relativeTo p = base'.relativeTo other := by
  rw [relativeTo, relativeTo, normalize_eq_iff]
  intro start _
  rw [destination_join, destination_join, hbase.destination_eq, h.destination_eq]

theorem SamePlace.map_relativeTo (hbase : SamePlace base base') {written written' : Option Path}
    (h : Option.Rel SamePlace written written') :
    written.map base.relativeTo = written'.map base'.relativeTo := by
  cases h with
  | some h => exact congrArg some (hbase.relativeTo_eq h)
  | none => rfl

theorem isAbsolute_relativeTo (h : base.isAbsolute = true) (p : Path) :
    (base.relativeTo p).isAbsolute = true ∧
      .current ∉ (base.relativeTo p).components ∧ .parent ∉ (base.relativeTo p).components := by
  obtain ⟨stack, hnormal, hroot, heq⟩ := exists_relativeTo h p
  rw [heq, components_ofStack hnormal, List.mem_reverse, List.mem_reverse]
  exact ⟨(isAbsolute_ofStack hnormal).mpr hroot, hnormal.current_notMem,
    fun hparent => hnormal.root_notMem_of_parent hparent hroot⟩

end Join

end Path

structure WrittenSettings.Respelled (w w' : WrittenSettings) : Prop where
  others : { w with data := none, map := none, ruleSet := none, library := none } =
    { w' with data := none, map := none, ruleSet := none, library := none }
  data : Option.Rel Path.SamePlace w.data w'.data
  map : Option.Rel Path.SamePlace w.map w'.map
  ruleSet : Option.Rel Path.SamePlace w.ruleSet w'.ruleSet
  library : Option.Rel Path.SamePlace w.library w'.library

namespace Settings

open SeaChart.Path

variable {w w' : WrittenSettings} {base base' : Path} {text text' : String}

theorem placesOf_respelled (h : w.Respelled w') (hbase : SamePlace base base')
    (data resources : Path) :
    placesOf w data base resources = placesOf w' data base' resources := by
  simp only [placesOf, hbase.map_relativeTo h.map, hbase.map_relativeTo h.ruleSet,
    hbase.map_relativeTo h.library]

theorem ofText_respelled (hread : WrittenSettings.read text = some w)
    (hread' : WrittenSettings.read text' = some w') (h : w.Respelled w')
    (hbase : SamePlace base base') {resources resources' : Path}
    (hresources : SamePlace resources resources') (isFile : Path → Bool) :
    ofText text base resources isFile = ofText text' base' resources' isFile := by
  have hdata := h.data
  unfold ofText
  rw [hread, hread', (normalize_eq_iff _ _).mpr hresources]
  dsimp only
  generalize w.data = data, w'.data = data' at hdata ⊢
  cases hdata with
  | none => rfl
  | some hdata =>
    obtain ⟨hdebug, hpoint, htable, harea, hcategory, htopmarks, hexcluded, -, hdepths⟩ :=
      WrittenSettings.mk.inj h.others
    simp only [hbase.relativeTo_eq hdata, placesOf_respelled h hbase, logOf, hdebug, hpoint, htable,
      harea, hcategory, htopmarks, hexcluded, hdepths]

theorem getLast?_ruleSet {resources : Path} {isFile : Path → Bool} {settings : Settings}
    (h : (ofText text base resources isFile).1 = .ok settings) :
    settings.places.ruleSet.components.getLast? = some (.name "rules") := by
  obtain ⟨w, data, hplaces⟩ := exists_placesOf h
  obtain ⟨stack, hnormal, heq⟩ := exists_ruleSet w (base.relativeTo data) base resources
  rw [hplaces, heq, components_ofStack hnormal, List.reverse_cons, List.getLast?_concat]

theorem paths_canonical :
    (∀ (p : Path) (start : Location), destination start p.normalize = destination start p) ∧
    (∀ p q : Path, p.normalize = q.normalize ↔ SamePlace p q) ∧
    (∀ p : Path, p.normalize.normalize = p.normalize) ∧
    (∀ base p : Path, (base.join p).normalize = (base.normalize.join p).normalize) ∧
    (∀ base p : Path, base.isAbsolute = true →
      (base.relativeTo p).isAbsolute = true ∧
        .current ∉ (base.relativeTo p).components ∧ .parent ∉ (base.relativeTo p).components) ∧
    (∀ (text text' : String) (w w' : WrittenSettings) (base base' resources resources' : Path)
      (isFile : Path → Bool), WrittenSettings.read text = some w →
      WrittenSettings.read text' = some w' → w.Respelled w' → SamePlace base base' →
      SamePlace resources resources' →
      ofText text base resources isFile = ofText text' base' resources' isFile) ∧
    (∀ (text : String) (base resources : Path) (isFile : Path → Bool) (settings : Settings),
      (ofText text base resources isFile).1 = .ok settings →
      settings.places.ruleSet.components.getLast? = some (.name "rules")) := by
  refine ⟨fun p start => destination_normalize start p, normalize_eq_iff, normalize_normalize,
    normalize_join, fun base p hbase => isAbsolute_relativeTo hbase p, ?_, ?_⟩
  · intro text text' w w' base base' resources resources' isFile hread hread' h hbase hresources
    exact ofText_respelled hread hread' h hbase hresources isFile
  · intro text base resources isFile settings h
    exact getLast?_ruleSet h

theorem paths_canonical_dots :
    let isFile (_ : Path) := false
    let dotted := ofText "paths.data = \"enc/../data\"" ⟨"/srv"⟩ ⟨"res"⟩ isFile
    dotted = ofText "paths.data = \"./data/\"" ⟨"/srv/x/.."⟩ ⟨"./res"⟩ isFile ∧
      (dotted.1.map fun s => (s.places.data, s.places.map, s.places.ruleSet)) =
        .ok (⟨"/srv/data"⟩, ⟨"/srv/map"⟩, ⟨"res/rules"⟩) := by
  intro isFile dotted
  have hsame {p q : Path} (h : p.normalize = q.normalize) : SamePlace p q :=
    (normalize_eq_iff p q).mp h
  obtain ⟨-, -, -, -, -, hrespelled, -⟩ := paths_canonical
  constructor
  · apply hrespelled _ _ { data := some ⟨"enc/../data"⟩ } { data := some ⟨"./data/"⟩ }
    · decide +kernel
    · decide +kernel
    · exact ⟨rfl, .some (hsame (by decide +kernel)), .none, .none, .none⟩
    · exact hsame (by decide +kernel)
    · exact hsame (by decide +kernel)
  · decide +kernel

end Settings

end SeaChart
