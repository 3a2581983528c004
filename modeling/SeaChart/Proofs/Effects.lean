import Mathlib.Data.List.Basic
import SeaChart.Program
import SeaChart.Proofs.FileTree

/-!
What jobs do to the files, their reports apart. The making of a chart is the saving of lists of
files: the rule set first, then the files of the map, which depend on what stands in the directory
of the data by then.
-/

namespace SeaChart

def andThen {α β : Type} (effect : Store → Except GenerateError α × Store)
    (next : α → Store → Except GenerateError β × Store) (s : Store) :
    Except GenerateError β × Store :=
  match effect s with
  | (.error e, t) => (.error e, t)
  | (.ok x, t) => next x t

section AndThen

variable {α β γ : Type} (effect : Store → Except GenerateError α × Store)
  (next : α → Store → Except GenerateError β × Store)

theorem andThen_assoc (last : β → Store → Except GenerateError γ × Store) :
    andThen (andThen effect next) last = andThen effect fun x => andThen (next x) last := by
  funext s
  unfold andThen
  rcases effect s with ⟨e | x, t⟩ <;> rfl

theorem andThen_done (x : α) : andThen (fun s => (.ok x, s)) next = next x :=
  rfl

theorem andThen_read (s : Store) (next : Store → Store → Except GenerateError β × Store) :
    andThen (fun s => (.ok s, s)) next s = next s s :=
  rfl

theorem andThen_looked (look : Store → Except GenerateError α)
    (after : α → Store → Except GenerateError β) (s : Store) :
    andThen (fun s => (look s, s)) (fun x s => (after x s, s)) s =
      (look s >>= fun x => after x s, s) := by
  simp only [andThen]
  cases look s <;> rfl

theorem andThen_eq_ok {effect : Store → Except GenerateError α × Store}
    {next : α → Store → Except GenerateError β × Store} {s u : Store} {y : β}
    (h : andThen effect next s = (.ok y, u)) :
    ∃ x t, effect s = (.ok x, t) ∧ next x t = (.ok y, u) := by
  unfold andThen at h
  rcases heffect : effect s with ⟨e | x, t⟩
  · simp [heffect] at h
  · exact ⟨x, t, rfl, by simpa [heffect] using h⟩

theorem andThen_of_eq {effect : Store → Except GenerateError α × Store}
    {next : α → Store → Except GenerateError β × Store} {s t : Store} {x : α}
    (h : effect s = (.ok x, t)) : andThen effect next s = next x t := by
  unfold andThen
  rw [h]

theorem andThen_congr {effect other : Store → Except GenerateError α × Store}
    {next after : α → Store → Except GenerateError β × Store} {s : Store}
    (h : effect s = other s) (hnext : ∀ x t, other s = (.ok x, t) → next x t = after x t) :
    andThen effect next s = andThen other after s := by
  unfold andThen
  rw [h]
  rcases hother : other s with ⟨e | x, t⟩
  · rfl
  · exact hnext x t hother

end AndThen

namespace Store

def saveAll (s : Store) (force : Bool) : List (Path × String) → Except GenerateError Unit × Store
  | [] => (.ok (), s)
  | (path, text) :: files =>
    match s.save path text force with
    | (.error cause, t) => (.error (.unwritable path cause), t)
    | (.ok _, t) => t.saveAll force files

def saveUnless (s : Store) (skip : Bool) (files : List (Path × String)) :
    Except GenerateError Unit × Store :=
  if skip then (.ok (), s) else s.saveAll true files

theorem saveAll_append (s : Store) (force : Bool) (xs ys : List (Path × String)) :
    s.saveAll force (xs ++ ys) =
      andThen (fun s => s.saveAll force xs) (fun _ t => t.saveAll force ys) s := by
  induction xs generalizing s with
  | nil => rfl
  | cons x xs ih =>
    obtain ⟨path, text⟩ := x
    simp only [List.cons_append, saveAll, andThen]
    rcases s.save path text force with ⟨cause | written, t⟩
    · rfl
    · exact ih t

end Store

namespace Job

def Acts {α : Type} (job : Job α) (effect : Store → Except GenerateError α × Store) : Prop :=
  ∀ s log, ∃ log', (ExceptT.run job).run ⟨s, log⟩ = ((effect s).1, ⟨(effect s).2, log'⟩)

abbrev Saves (job : Job Unit) (force : Bool) (files : List (Path × String)) : Prop :=
  Acts job fun s => s.saveAll force files

variable {α β : Type} {job : Job α} {effect : Store → Except GenerateError α × Store}

namespace Acts

theorem bind {rest : α → Job β} {next : α → Store → Except GenerateError β × Store}
    (h : Acts job effect) (hrest : ∀ x, Acts (rest x) (next x)) :
    Acts (job >>= rest) (andThen effect next) := by
  intro s log
  obtain ⟨log', hrun⟩ := h s log
  have hbind : (ExceptT.run (job >>= rest)).run ⟨s, log⟩ =
      match (ExceptT.run job).run ⟨s, log⟩ with
      | (.error e, p) => (.error e, p)
      | (.ok x, p) => (ExceptT.run (rest x)).run p := by
    simp only [ExceptT.run_bind, StateT.run_bind]
    rcases (ExceptT.run job).run ⟨s, log⟩ with ⟨_ | _, _⟩ <;> rfl
  rw [hbind, hrun]
  unfold andThen
  rcases effect s with ⟨e | x, t⟩
  · exact ⟨log', rfl⟩
  · exact hrest x t log'

theorem pure (x : α) : Acts (pure x : Job α) fun s => (.ok x, s) :=
  fun _ log => ⟨log, rfl⟩

theorem throw (e : GenerateError) : Acts (throw e : Job α) fun s => (.error e, s) :=
  fun _ log => ⟨log, rfl⟩

theorem report (log : Log) : Acts (report log) fun s => (.ok (), s) :=
  fun _ before => ⟨before ++ log, rfl⟩

theorem store : Acts store fun s => (.ok s, s) :=
  fun _ log => ⟨log, rfl⟩

theorem ite_bind {c : Prop} [Decidable c] {first : Job Unit} {rest : Job β}
    {effect : Store → Except GenerateError Unit × Store}
    {next : Store → Except GenerateError β × Store} (h : Acts first effect)
    (hrest : Acts rest next) :
    Acts (if c then first >>= fun _ => rest else rest)
      (andThen (fun s => if c then effect s else (.ok (), s)) fun _ => next) := by
  split
  · exact h.bind fun _ => hrest
  · exact hrest

theorem congr {other : Store → Except GenerateError α × Store} (h : Acts job effect)
    (heq : ∀ s, effect s = other s) : Acts job other :=
  funext heq ▸ h

theorem bind_store {rest : Store → Job β} {look : Store → Except GenerateError β}
    (h : ∀ s, Acts (rest s) fun t => (look s, t)) :
    Acts (Job.store >>= rest) fun s => (look s, s) :=
  (Acts.bind store h).congr fun s => andThen_read s _

end Acts

namespace Saves

theorem run_outcome (path : Path) (r : Except FileError Bool × Store) (s : Store) (log : Log) :
    (ExceptT.run (do
      modify fun p => { p with store := r.2 }
      let _ ← (match r.1 with
        | .error cause => throw (.unwritable path cause)
        | .ok written => return written : Job Bool)
      return () : Job Unit)).run ⟨s, log⟩ =
    ((r.1.map fun _ => ()).mapError (.unwritable path), ⟨r.2, log⟩) := by
  rcases r with ⟨cause | written, t⟩ <;> rfl

theorem save (path : Path) (text : String) (force : Bool) :
    Saves (do let _ ← Job.save path text force) force [(path, text)] := by
  intro s log
  refine ⟨log, (run_outcome path (s.save path text force) s log).trans ?_⟩
  simp only [Store.saveAll]
  rcases s.save path text force with ⟨cause | written, t⟩ <;> rfl

theorem bind {rest : Job Unit} {first : Job Unit} {force : Bool} {xs ys : List (Path × String)}
    (h : Saves first force xs) (hrest : Saves rest force ys) :
    Saves (first >>= fun _ => rest) force (xs ++ ys) :=
  (Acts.bind h fun _ => hrest).congr fun s => by
    rw [Store.saveAll_append]

theorem report_bind {rest : Job Unit} {force : Bool} {files : List (Path × String)} (log : Log)
    (h : Saves rest force files) : Saves (report log >>= fun _ => rest) force files :=
  (Acts.bind (Acts.report log) fun _ => h).congr fun _ => rfl

theorem forM {force : Bool} {xs : List α} {body : α → Job Unit}
    {files : α → List (Path × String)} (h : ∀ x, Saves (body x) force (files x)) :
    Saves (xs.forM body) force (xs.flatMap files) := by
  induction xs with
  | nil => exact Acts.pure ()
  | cons x xs ih => exact (h x).bind ih

theorem forM_single {force : Bool} {xs : List α} {body : α → Job Unit}
    {file : α → Path × String} (h : ∀ x, Saves (body x) force [file x]) :
    Saves (xs.forM body) force (xs.map file) := by
  rw [List.map_eq_flatMap]
  exact forM h

end Saves

end Job

namespace RuleSet

def savedPalettes (p : Presentation) (ruleSet : Path) : List (Path × String) :=
  (paletteFiles p).map fun (name, text) => ((paletteDirectory ruleSet).below name, text)

def savedLayers (p : Presentation) (ruleSet : Path) : List (Path × String) :=
  geometries.map fun g => ((layerDirectory ruleSet).below (layerFileName g), layerText p g)

end RuleSet

namespace Chart

abbrev Levels := List (Nat × Nat × List Shapefile)

def filesBy (list : Store.Listing) (s : Store) (data : Path) (level : Nat) :
    Except GenerateError (List Shapefile) :=
  match Shapefile.scan s data level list with
  | .error (directory, cause) => .error (.unreadable directory cause)
  | .ok (files, _) => .ok files

def levelsBy (list : Store.Listing) (s : Store) (data : Path) :
    List (Nat × Nat) → Except GenerateError Levels
  | [] => .ok []
  | (level, maxScale) :: rest => do
    let files ← filesBy list s data level
    let others ← levelsBy list s data rest
    return if files.isEmpty then others else (level, maxScale, files) :: others

def filesAt (list : Store.Listing) (s : Store) (data : Path) (level : Nat) : List Shapefile :=
  (filesBy list s data level).toOption.getD []

def levelsAt (list : Store.Listing) (s : Store) (data : Path) (levels : List (Nat × Nat)) : Levels :=
  (levels.map fun (level, maxScale) => (level, maxScale, filesAt list s data level)).filter
    fun (_, _, files) => !files.isEmpty

theorem filesBy_eq_ok_iff {list : Store.Listing} {s : Store} {data : Path} {level : Nat}
    {files : List Shapefile} :
    filesBy list s data level = .ok files ↔
      ∃ log, Shapefile.scan s data level list = .ok (files, log) := by
  unfold filesBy
  rcases Shapefile.scan s data level list with ⟨directory, cause⟩ | ⟨found, log⟩ <;> simp

theorem filesAt_of_filesBy {list : Store.Listing} {s : Store} {data : Path} {level : Nat}
    {files : List Shapefile} (h : filesBy list s data level = .ok files) :
    filesAt list s data level = files := by
  rw [filesAt, h]
  rfl

section Levels

variable {list : Store.Listing} {s : Store} {data : Path} {levels : List (Nat × Nat)}

theorem levelsAt_cons {level : Nat × Nat} {files : List Shapefile}
    (h : filesBy list s data level.1 = .ok files) :
    levelsAt list s data (level :: levels) =
      if files.isEmpty then levelsAt list s data levels
      else (level.1, level.2, files) :: levelsAt list s data levels := by
  simp only [levelsAt, List.map_cons, List.filter_cons, filesAt_of_filesBy h]
  cases files.isEmpty <;> rfl

theorem levelsBy_of_scanned
    (h : ∀ level ∈ levels, ∃ files, filesBy list s data level.1 = .ok files) :
    levelsBy list s data levels = .ok (levelsAt list s data levels) := by
  induction levels with
  | nil => rfl
  | cons level levels ih =>
    obtain ⟨⟨files, hfiles⟩, hothers⟩ := List.forall_mem_cons.mp h
    rw [levelsBy, hfiles, ih hothers, levelsAt_cons hfiles]
    rfl

theorem levelsBy_eq_ok {found : Levels} (h : levelsBy list s data levels = .ok found) :
    found = levelsAt list s data levels ∧
      ∀ level ∈ levels, ∃ files, filesBy list s data level.1 = .ok files := by
  suffices hscanned : ∀ level ∈ levels, ∃ files, filesBy list s data level.1 = .ok files from
    ⟨Except.ok.inj (h.symm.trans (levelsBy_of_scanned hscanned)), hscanned⟩
  induction levels generalizing found with
  | nil => exact fun _ hlevel => absurd hlevel List.not_mem_nil
  | cons level levels ih =>
    rw [levelsBy] at h
    cases hfiles : filesBy list s data level.1 with
    | error e =>
      rw [hfiles] at h
      cases h
    | ok files =>
      cases hothers : levelsBy list s data levels with
      | error e =>
        rw [hfiles, hothers] at h
        cases h
      | ok others => exact List.forall_mem_cons.mpr ⟨⟨files, hfiles⟩, ih hothers⟩

end Levels

def levelFile (p : Presentation) (map : Path) (t : Theme) :
    Nat × Nat × List Shapefile → Path × String
  | (level, maxScale, files) =>
    (map.below (MainMap.includePath t level),
      Level.text (p.withPalette t.palette) level maxScale files)

def mainPath (map : Path) (t : Theme) : Path :=
  map.below ("SeaChart_" ++ t.name ++ ".map")

def mainFile (p : Presentation) (s : Settings) (levels : Levels) (t : Theme) : Path × String :=
  (mainPath s.places.map t, MainMap.text (p.withPalette t.palette) s t (levels.map Prod.fst))

def symbolPath (map : Path) (t : Theme) : Path :=
  (map.below "symbols").below ("symbols-" ++ t.name ++ ".sym")

def symbolFile (p : Presentation) (map : Path) (t : Theme) : Path × String :=
  (symbolPath map t, SymbolSet.text (p.withPalette t.palette) t)

def savedFiles (p : Presentation) (s : Settings) (levels : Levels) : List (Path × String) :=
  (Theme.all.flatMap fun t =>
    levels.map (levelFile p s.places.map t) ++ [mainFile p s levels t]) ++
  Theme.all.map (symbolFile p s.places.map)

def libraryAt (s : Store) (path : Path) (selection : Selection) :
    Except GenerateError Presentation :=
  if s.isFile path then
    match s.readText path with
    | .error cause => .error (.unreadableLibrary cause)
    | .ok text =>
      match Presentation.read selection text with
      | .error cause => .error (.library cause)
      | .ok (p, _) => .ok p
  else .error (.missingLibrary path)

def afterPalettes (list : Store.Listing) (s : Settings) (p : Presentation) (b : Store) :
    Except GenerateError Unit × Store :=
  b.saveUnless (b.hasEntries (RuleSet.paletteDirectory s.places.ruleSet) list)
    (RuleSet.savedPalettes p s.places.ruleSet)

def afterLayers (list : Store.Listing) (r : Request) (s : Settings) (p : Presentation) (b : Store) :
    Except GenerateError Unit × Store :=
  b.saveUnless (b.hasEntries (RuleSet.layerDirectory s.places.ruleSet) list && !r.force)
    (RuleSet.savedLayers p s.places.ruleSet)

def prepare (list : Store.Listing) (r : Request) (s : Settings) :
    Store → Except GenerateError Presentation × Store :=
  andThen (fun b => (libraryAt b s.places.library (s.selection Theme.day.palette), b)) fun p =>
    andThen (afterPalettes list s p) fun _ => andThen
      (fun b => if r.format ≠ .chart then (.error (.unsupported r.format), b) else (.ok (), b))
      fun _ => andThen (afterLayers list r s p) fun _ b => (.ok p, b)

def make (list : Store.Listing) (r : Request) (s : Settings) :
    Store → Except GenerateError Unit × Store :=
  andThen (prepare list r s) fun p =>
    andThen (fun b => (levelsBy list b s.places.data Level.all, b)) fun levels b =>
      b.saveAll r.force (savedFiles p s levels)

theorem libraryAt_of_prepare {list : Store.Listing} {r : Request} {s : Settings} {b c : Store}
    {p : Presentation} (h : prepare list r s b = (.ok p, c)) :
    libraryAt b s.places.library (s.selection Theme.day.palette) = .ok p := by
  obtain ⟨q, t, hlibrary, h⟩ := andThen_eq_ok h
  obtain ⟨-, t, -, h⟩ := andThen_eq_ok h
  obtain ⟨-, t, -, h⟩ := andThen_eq_ok h
  obtain ⟨-, t, -, h⟩ := andThen_eq_ok h
  obtain rfl : q = p := Except.ok.inj (Prod.mk.inj h).1
  exact (Prod.mk.inj hlibrary).1

theorem make_eq_ok {list : Store.Listing} {r : Request} {s : Settings} {b after : Store}
    (h : make list r s b = (.ok (), after)) :
    ∃ p mid, prepare list r s b = (.ok p, mid) ∧
      levelsBy list mid s.places.data Level.all =
        .ok (levelsAt list mid s.places.data Level.all) ∧
      mid.saveAll r.force (savedFiles p s (levelsAt list mid s.places.data Level.all)) =
        (.ok (), after) := by
  obtain ⟨p, mid, hprepare, h⟩ := andThen_eq_ok h
  obtain ⟨levels, t, hlooked, hsaved⟩ := andThen_eq_ok h
  obtain ⟨hlevels, rfl⟩ := Prod.mk.inj hlooked
  obtain ⟨rfl, -⟩ := levelsBy_eq_ok hlevels
  exact ⟨p, mid, hprepare, hlevels, hsaved⟩

end Chart

namespace Job

open Chart RuleSet

theorem saves_savePalettes (p : Presentation) (ruleSet : Path) :
    Saves (savePalettes p (paletteDirectory ruleSet)) true (savedPalettes p ruleSet) :=
  Saves.forM_single fun _ => Saves.save _ _ _

theorem saves_saveLayerRules (p : Presentation) (ruleSet : Path) :
    Saves (saveLayerRules p (layerDirectory ruleSet)) true (savedLayers p ruleSet) :=
  Saves.forM_single fun _ => Saves.report_bind _ (Saves.save _ _ _)

theorem saves_saveMaps (p : Presentation) (s : Settings) (levels : Levels) (force : Bool)
    (t : Theme) : Saves (saveMaps p s levels force t) force
      (levels.map (levelFile p s.places.map t) ++ [mainFile p s levels t]) := by
  simp only [saveMaps, paint, bind_assoc, pure_bind]
  refine Saves.report_bind _ (Saves.bind (Saves.forM_single fun _ => ?_) ?_)
  · exact Saves.report_bind _ (Saves.save _ _ _)
  · exact Saves.report_bind _ (Saves.save _ _ _)

theorem saves_symbolSets (p : Presentation) (map : Path) (force : Bool) :
    Saves (Theme.all.forM fun t => do
      let p ← paint p t
      let _ ← saveSymbolSet p t (map.below "symbols") force) force
      (Theme.all.map (symbolFile p map)) := by
  refine Saves.forM_single fun t => ?_
  simp only [paint, saveSymbolSet, bind_assoc, pure_bind]
  exact Saves.report_bind _ (Saves.save _ _ _)

variable (list : Store.Listing)

theorem acts_scan (data : Path) (level : Nat) :
    Acts (scan data level list) fun s => (filesBy list s data level, s) := by
  unfold scan filesBy
  refine Acts.bind_store fun s => ?_
  generalize Shapefile.scan s data level list = found
  rcases found with ⟨directory, cause⟩ | ⟨files, log⟩
  · exact Acts.throw _
  · exact (Acts.bind (Acts.report log) fun _ => Acts.pure files).congr fun _ => rfl

theorem acts_scanLevels (data : Path) (levels : List (Nat × Nat)) :
    Acts (scanLevels data levels list) fun s => (levelsBy list s data levels, s) := by
  induction levels with
  | nil => exact Acts.pure []
  | cons level levels ih =>
    obtain ⟨level, maxScale⟩ := level
    have hothers (files : List Shapefile) : Acts (do
        let others ← scanLevels data levels list
        return if files.isEmpty then others else (level, maxScale, files) :: others) _ :=
      (Acts.bind ih fun others => Acts.pure _).congr (andThen_looked _ _)
    exact (Acts.bind (acts_scan list data level) hothers).congr (andThen_looked _ _)

theorem acts_loadLibrary (path : Path) (selection : Selection) :
    Acts (loadLibrary path selection) fun s => (libraryAt s path selection, s) := by
  intro s log
  -- What is read is generalized so that no case opens the store or the document.
  have hrun (isFile : Bool) (text : Except FileError String)
      (read : String → Except Presentation.ReadError (Presentation × Log)) : ∃ log',
      (ExceptT.run (do
        if !isFile then throw (.missingLibrary path)
        match text with
        | .error cause => throw (.unreadableLibrary cause)
        | .ok text =>
          match read text with
          | .error cause => throw (.library cause)
          | .ok (p, log) =>
            report log
            return p : Job Presentation)).run ⟨s, log⟩ =
      ((if isFile then
          match text with
          | .error cause => .error (.unreadableLibrary cause)
          | .ok text =>
            match read text with
            | .error cause => .error (.library cause)
            | .ok (p, _) => .ok p
        else .error (.missingLibrary path)), ⟨s, log'⟩) := by
    cases isFile with
    | false => exact ⟨log, rfl⟩
    | true =>
      rcases text with cause | text
      · exact ⟨log, rfl⟩
      · dsimp only
        rcases read text with cause | ⟨p, extra⟩
        · exact ⟨log, rfl⟩
        · exact ⟨log ++ extra, rfl⟩
  exact hrun (s.isFile path) (s.readText path) (Presentation.read selection)

theorem acts_saveFiles (p : Presentation) (s : Settings) (force : Bool) :
    Acts (saveChart p s force list >>= fun _ => Theme.all.forM fun t => do
        let p ← paint p t
        let _ ← saveSymbolSet p t (s.places.map.below "symbols") force)
      (andThen (fun b => (levelsBy list b s.places.data Level.all, b)) fun levels b =>
        b.saveAll force (savedFiles p s levels)) := by
  have hmaps (levels : Levels) : Acts (if levels.isEmpty then do
        report [noLevels s.places.data]
        Theme.all.forM (saveMaps p s levels force)
      else Theme.all.forM (saveMaps p s levels force)) _ :=
    Acts.ite_bind (Acts.report _) (Saves.forM fun t => saves_saveMaps p s levels force t)
  refine (Acts.bind (Acts.bind (acts_scanLevels list _ _) hmaps)
    fun _ => saves_symbolSets p s.places.map force).congr fun b => ?_
  simp only [savedFiles, Store.saveAll_append, ite_self, andThen_assoc, andThen_done]

theorem acts_generate (r : Request) (s : Settings) :
    Acts (generate r s list) (make list r s) := by
  unfold generate
  refine (Acts.bind (acts_loadLibrary _ _) fun p => Acts.bind Acts.store fun b =>
    Acts.ite_bind (saves_savePalettes p _) (Acts.ite_bind (Acts.throw _)
      (Acts.bind Acts.store fun c => Acts.ite_bind (saves_saveLayerRules p _)
        (acts_saveFiles list p s r.force)))).congr fun b => ?_
  simp only [make, prepare, andThen_assoc, andThen_done]
  refine andThen_congr rfl fun p b _ => ?_
  rw [andThen_read]
  refine andThen_congr ?palettes fun _ b _ => andThen_congr rfl fun _ b _ => ?_
  case palettes =>
    unfold afterPalettes
    cases b.hasEntries (paletteDirectory s.places.ruleSet) list <;> rfl
  rw [andThen_read]
  refine andThen_congr ?layers fun _ _ _ => rfl
  unfold afterLayers
  cases b.hasEntries (layerDirectory s.places.ruleSet) list <;> cases r.force <;> rfl

theorem run_eq_make (r : Request) (s : Settings) (b : Store) :
    (Job.run (generate r s list) b).1 = (make list r s b).1 ∧
      (Job.run (generate r s list) b).2.store = (make list r s b).2 := by
  obtain ⟨log, hrun⟩ := acts_generate list r s b []
  have hjob : Job.run (generate r s list) b =
      ((make list r s b).1, ⟨(make list r s b).2, log⟩) := hrun
  rw [hjob]
  exact ⟨rfl, rfl⟩

end Job

namespace Program

theorem run_eq_make (list : Store.Listing) {usualResources : String} {arguments : List String}
    {b : Store} {r : Request} {s : Settings}
    (harguments : CommandLine.read usualResources arguments = .ok r)
    (hsettings : (Settings.load b ⟨r.settingsFile⟩ ⟨r.resources⟩).1 = .ok s) :
    (run usualResources arguments b list).store = (Chart.make list r s b).2 ∧
      ((run usualResources arguments b list).exitCode = 0 ↔
        (Chart.make list r s b).1 = .ok ()) := by
  obtain ⟨hresult, hstore⟩ := Job.run_eq_make list r s b
  rcases hload : Settings.load b ⟨r.settingsFile⟩ ⟨r.resources⟩ with ⟨settings, early⟩
  rw [hload] at hsettings
  subst hsettings
  simp only [run, harguments, hload, carryOut]
  rcases hjob : Job.run (generate r s list) b with ⟨_ | _, progress⟩
  · rw [hjob] at hresult hstore
    simp [← hresult, ← hstore]
  · rw [hjob] at hresult hstore
    simp [← hresult, ← hstore]

def HasPlainNames (library : Except GenerateError Presentation) : Bool :=
  match library with
  | .ok p => p.palettes.keys.all fun name => !name.toList.contains '/'
  | .error _ => true

theorem plain_of_hasPlainNames {library : Except GenerateError Presentation}
    (h : HasPlainNames library = true) {p : Presentation} (hp : library = .ok p) :
    ∀ name ∈ p.palettes.keys, '/' ∉ name.toList := by
  subst hp
  simpa [HasPlainNames] using h

end Program

section Sample

def sampleStore (map : String) (entries : List (String × Entry)) : Store where
  root := .directory ([
    ("c", .file (Text.encodeUtf8
      ("[paths]\ndata=\"d\"\nmap=\"" ++ map ++ "\"\nruleset=\"r\"\nchartsymbols=\"l\""))),
    ("l", .file (Text.encodeUtf8 "<chartsymbols/>"))] ++ entries)

def paletteStore (name : String) (entries : List (String × Entry)) : Store :=
  let library := "<chartsymbols><color-table name=\"" ++ name ++ "\"/></chartsymbols>"
  let sample := sampleStore "m" entries
  { sample with root := (Entry.file (Text.encodeUtf8 library)).insert ["l"] sample.root }

def sampleData : String × Entry :=
  ("d", .directory [("CL3", .directory [("CL3-Point-A.shp", .file [])])])

def sampleRequest (force : Bool) : Request :=
  ⟨"c", .chart, force, "/", false, 0⟩

theorem read_sample : CommandLine.read "/" ["c"] = .ok (sampleRequest false) := by
  decide +kernel

theorem read_sample_forced : CommandLine.read "/" ["-f", "c"] = .ok (sampleRequest true) := by
  decide +kernel

def sampleSettings (b : Store) : Settings :=
  match (Settings.load b ⟨"c"⟩ ⟨"/"⟩).1 with
  | .ok s => s
  | .error _ => default

theorem load_sample {b : Store} (h : (Settings.load b ⟨"c"⟩ ⟨"/"⟩).1.isOk = true) :
    (Settings.load b ⟨"c"⟩ ⟨"/"⟩).1 = .ok (sampleSettings b) := by
  unfold sampleSettings
  cases hload : (Settings.load b ⟨"c"⟩ ⟨"/"⟩).1 with
  | error e => simp [hload, Except.isOk, Except.toBool] at h
  | ok s => rfl

end Sample

end SeaChart
