import Mathlib.Data.List.Basic
import SeaChart.Store.Basic

namespace SeaChart

open Text (Bytes)

inductive Kind where
  | file (contents : Bytes)
  | directory
deriving DecidableEq

namespace Entry

def kind : Entry → Kind
  | .file contents => .file contents
  | .directory _ => .directory

theorem find?_append (e : Entry) (l m : Location) :
    e.find? (l ++ m) = (e.find? l).bind fun d => d.find? m := by
  induction l generalizing e with
  | nil => rfl
  | cons name names ih =>
    cases e with
    | file contents => rfl
    | directory children =>
      cases h : children.lookup name <;> simp [find?, h, ih]

def IsLeaf (e : Entry) : Prop :=
  ∀ name l, e.find? (name :: l) = none

theorem isLeaf_file (contents : Bytes) : (file contents).IsLeaf :=
  fun _ _ => rfl

theorem isLeaf_empty : (directory []).IsLeaf :=
  fun _ _ => rfl

theorem lookup_insertEntry (name other : String) (new : Entry) (children : List (String × Entry)) :
    (Dictionary.insertEntry name new children).lookup other =
      if other = name then some new else children.lookup other := by
  split
  · next h => exact h ▸ Dictionary.find?_insert_self ⟨children⟩ name new
  · next h => exact Dictionary.find?_insert_of_ne ⟨children⟩ new h

theorem kind_find?_insert {new e : Entry} (hnew : new.IsLeaf) {l : Location} {name : String}
    (hparent : (e.find? l).map kind = some .directory)
    (hold : (e.find? (l ++ [name])).map kind ≠ some .directory) (m : Location) :
    ((new.insert (l ++ [name]) e).find? m).map kind =
      if m = l ++ [name] then some new.kind else (e.find? m).map kind := by
  -- The induction goes down to the directory that the leaf is put into.
  induction l generalizing e m with
  | nil =>
    cases e with
    | file contents => simp [find?, kind] at hparent
    | directory children =>
      cases m with
      | nil => simp [insert, find?, kind]
      | cons x xs =>
        simp only [List.nil_append, insert, find?, lookup_insertEntry, List.cons.injEq]
        by_cases hx : x = name
        · subst hx
          cases xs with
          | nil => simp [find?]
          | cons y ys =>
            have hbelow : ((children.lookup x).bind fun d => d.find? (y :: ys)) = none := by
              cases hlookup : children.lookup x with
              | none => rfl
              | some old =>
                cases old with
                | file contents => rfl
                | directory _ => simp [find?, hlookup, kind] at hold
            simp [hnew y ys, hbelow]
        · simp [hx]
  | cons x xs ih =>
    cases e with
    | file contents => simp [find?] at hparent
    | directory children =>
      cases hlookup : children.lookup x with
      | none => simp [find?, hlookup] at hparent
      | some child =>
        simp only [find?, hlookup, Option.bind_some, List.cons_append] at hparent hold
        have ih := ih hparent hold
        cases m with
        | nil => simp [insert, find?, kind]
        | cons y ys =>
          simp only [List.cons_append, insert, find?, lookup_insertEntry, hlookup,
            Option.getD_some, List.cons.injEq]
          by_cases hy : y = x
          · subst hy
            simpa [hlookup] using ih ys
          · simp [hy]

def Within (e f : Entry) : Prop :=
  ∀ l k, (e.find? l).map kind = some k → (f.find? l).map kind = some k

theorem within_directory {xs ys : List (String × Entry)}
    (h : ∀ name e, xs.lookup name = some e → ∃ f, ys.lookup name = some f ∧ e.Within f) :
    (directory xs).Within (directory ys) := by
  intro l k hk
  cases l with
  | nil => exact hk
  | cons name rest =>
    simp only [find?] at hk ⊢
    cases hx : xs.lookup name with
    | none => simp [hx] at hk
    | some e =>
      obtain ⟨f, hy, hwithin⟩ := h name e hx
      rw [hx] at hk
      rw [hy]
      exact hwithin rest k hk

end Entry

namespace Store

variable {s t u : Store} {l m : Location}

def kind? (s : Store) (l : Location) : Option Kind :=
  (s.root.find? l).map Entry.kind

theorem kind?_eq_directory_iff :
    s.kind? l = some .directory ↔ ∃ children, s.root.find? l = some (.directory children) := by
  unfold kind?
  rcases s.root.find? l with _ | _ | _ <;> simp [Entry.kind]

theorem kind?_eq_file_iff {contents : Bytes} :
    s.kind? l = some (.file contents) ↔ s.root.find? l = some (.file contents) := by
  unfold kind?
  rcases s.root.find? l with _ | _ | _ <;> simp [Entry.kind]

theorem kind?_eq_directory_of_append {name : String}
    (h : (s.kind? (l ++ name :: m)).isSome = true) : s.kind? l = some .directory := by
  unfold kind? at h ⊢
  rw [Entry.find?_append] at h
  rcases hfind : s.root.find? l with _ | contents | children
  · simp [hfind] at h
  · simp [hfind, Entry.find?] at h
  · rfl

theorem isSome_kind?_append_singleton {children : List (String × Entry)}
    (h : s.root.find? l = some (.directory children)) (name : String) :
    (s.kind? (l ++ [name])).isSome = (children.lookup name).isSome := by
  unfold kind?
  rw [Entry.find?_append, h]
  simp only [Option.bind_some, Entry.find?]
  cases children.lookup name <;> rfl

def IsStep (piece : String) : Prop :=
  ¬(piece = "" ∨ piece = "." ∨ piece = "..")

instance (piece : String) : Decidable (IsStep piece) :=
  inferInstanceAs (Decidable (¬(piece = "" ∨ piece = "." ∨ piece = "..")))

theorem follow_eq_ok_iff {piece : String} (h : IsStep piece) :
    s.follow l piece = .ok m ↔
      m = l ++ [piece] ∧ piece.utf8ByteSize ≤ nameLimit ∧ (s.kind? m).isSome = true := by
  simp only [IsStep, not_or] at h
  unfold follow
  rcases hfind : s.root.find? l with _ | contents | children
  · simp only [reduceCtorEq, false_iff, not_and]
    rintro rfl -
    simp [kind?, Entry.find?_append, hfind]
  · simp only [reduceCtorEq, false_iff, not_and]
    rintro rfl -
    simp [kind?, Entry.find?_append, hfind, Entry.find?]
  · simp only [h.1, h.2.1, h.2.2, or_self, if_false]
    by_cases hlong : piece.utf8ByteSize > nameLimit
    · simp [hlong, Nat.not_le.mpr hlong]
    · have hkind := isSome_kind?_append_singleton hfind piece
      simp only [hlong, if_false, Nat.not_lt.mp hlong, true_and, ← hkind]
      split
      · next hsome =>
        constructor
        · rintro ⟨⟩
          exact ⟨rfl, hsome⟩
        · rintro ⟨rfl, -⟩
          rfl
      · next hnone =>
        simp only [reduceCtorEq, false_iff, not_and]
        rintro rfl
        exact hnone

theorem follow_of_not_isStep {piece : String} (h : ¬IsStep piece) :
    s.follow l piece = .ok m ↔
      s.kind? l = some .directory ∧ m = if piece = ".." then l.dropLast else l := by
  simp only [IsStep, not_not] at h
  unfold follow
  rcases hfind : s.root.find? l with _ | contents | children
  · simp [kind?, hfind]
  · simp [kind?, hfind, Entry.kind]
  · have hkind : s.kind? l = some .directory := kind?_eq_directory_iff.mpr ⟨children, hfind⟩
    rcases h with rfl | rfl | rfl <;> simp [hkind, eq_comm (a := m)]

theorem entry_eq_ok_iff {p : Path} {e : Entry} :
    s.entry p = .ok e ↔ ∃ l, s.locate p = .ok l ∧ s.root.find? l = some e := by
  unfold entry
  cases hlocate : s.locate p with
  | error cause => simp [bind, Except.bind]
  | ok l => cases hfind : s.root.find? l <;> simp [bind, Except.bind, hfind]

theorem contains_iff {p : Path} :
    s.contains p = true ↔ ∃ l, s.locate p = .ok l ∧ (s.kind? l).isSome = true := by
  unfold contains
  cases hentry : s.entry p with
  | ok e =>
    obtain ⟨l, hlocate, hfind⟩ := entry_eq_ok_iff.mp hentry
    simp [hlocate, kind?, hfind, Except.isOk, Except.toBool]
  | error cause =>
    simp only [Except.isOk, Except.toBool, Bool.false_eq_true, false_iff, not_exists, not_and]
    intro l hlocate hsome
    simp only [kind?, Option.isSome_map, Option.isSome_iff_exists] at hsome
    obtain ⟨e, hfind⟩ := hsome
    simp [entry_eq_ok_iff.mpr ⟨l, hlocate, hfind⟩] at hentry

theorem isFile_iff {p : Path} :
    s.isFile p = true ↔ ∃ l contents, s.locate p = .ok l ∧ s.kind? l = some (.file contents) := by
  have hentry (contents : Bytes) :
      s.entry p = .ok (.file contents) ↔
        ∃ l, s.locate p = .ok l ∧ s.kind? l = some (.file contents) := by
    simp only [entry_eq_ok_iff, kind?_eq_file_iff]
  rw [exists_comm]
  simp only [← hentry, isFile]
  rcases s.entry p with _ | _ | _ <;> simp

theorem isDirectory_iff {p : Path} :
    s.isDirectory p = true ↔ ∃ l, s.locate p = .ok l ∧ s.kind? l = some .directory := by
  simp only [isDirectory, kind?_eq_directory_iff]
  rcases hentry : s.entry p with cause | contents | children
  · simp only [Bool.false_eq_true, false_iff]
    rintro ⟨l, hlocate, children, hfind⟩
    simp [entry_eq_ok_iff.mpr ⟨l, hlocate, hfind⟩] at hentry
  · simp only [Bool.false_eq_true, false_iff]
    rintro ⟨l, hlocate, children, hfind⟩
    simp [entry_eq_ok_iff.mpr ⟨l, hlocate, hfind⟩] at hentry
  · obtain ⟨l, hlocate, hfind⟩ := entry_eq_ok_iff.mp hentry
    simp [hlocate, hfind]

theorem read_eq_ok_iff {p : Path} {contents : Bytes} :
    s.read p = .ok contents ↔
      ∃ l, s.locate p = .ok l ∧ s.kind? l = some (.file contents) := by
  simp only [kind?_eq_file_iff, ← entry_eq_ok_iff, read]
  rcases s.entry p with _ | _ | _ <;> simp [bind, Except.bind]

theorem names_eq_ok_iff {p : Path} {names : List String} :
    s.names p = .ok names ↔ ∃ l children, s.locate p = .ok l ∧
      s.root.find? l = some (.directory children) ∧ children.map Prod.fst = names := by
  simp only [Store.names]
  rcases hentry : s.entry p with cause | contents | children
  · simp only [bind, Except.bind, reduceCtorEq, false_iff]
    rintro ⟨l, children, hlocate, hfind, -⟩
    simp [entry_eq_ok_iff.mpr ⟨l, hlocate, hfind⟩] at hentry
  · simp only [bind, Except.bind, reduceCtorEq, false_iff]
    rintro ⟨l, children, hlocate, hfind, -⟩
    simp [entry_eq_ok_iff.mpr ⟨l, hlocate, hfind⟩] at hentry
  · obtain ⟨l, hlocate, hfind⟩ := entry_eq_ok_iff.mp hentry
    simp [bind, Except.bind, hlocate, hfind]

theorem exists_names_of_isDirectory {p : Path} (h : s.isDirectory p = true) :
    ∃ names, s.names p = .ok names := by
  obtain ⟨l, hlocate, hkind⟩ := isDirectory_iff.mp h
  obtain ⟨children, hfind⟩ := kind?_eq_directory_iff.mp hkind
  exact ⟨_, names_eq_ok_iff.mpr ⟨l, children, hlocate, hfind, rfl⟩⟩

theorem mem_names_iff {p : Path} {names : List String} (h : s.names p = .ok names) :
    ∃ l, s.locate p = .ok l ∧ s.kind? l = some .directory ∧
      ∀ name, name ∈ names ↔ (s.kind? (l ++ [name])).isSome = true := by
  obtain ⟨l, children, hlocate, hfind, rfl⟩ := names_eq_ok_iff.mp h
  refine ⟨l, hlocate, kind?_eq_directory_iff.mpr ⟨children, hfind⟩, fun name => ?_⟩
  simp [isSome_kind?_append_singleton hfind]

theorem isDirectory_of_names {p : Path} {names : List String} (h : s.names p = .ok names) :
    s.isDirectory p = true := by
  obtain ⟨l, hlocate, hkind, -⟩ := mem_names_iff h
  exact isDirectory_iff.mpr ⟨l, hlocate, hkind⟩

theorem hasEntries_iff {p : Path} :
    s.hasEntries p = true ↔
      ∃ l name, s.locate p = .ok l ∧ (s.kind? (l ++ [name])).isSome = true := by
  unfold hasEntries
  cases hnames : s.names p with
  | ok names =>
    obtain ⟨l, hlocate, -, hmem⟩ := mem_names_iff hnames
    simp only [hlocate, Except.ok.injEq, exists_and_left, exists_eq_left', ← hmem]
    cases names <;> simp
  | error cause =>
    simp only [Bool.false_eq_true, false_iff, not_exists, not_and]
    intro l name hlocate hsome
    obtain ⟨children, hfind⟩ := kind?_eq_directory_iff.mp (kind?_eq_directory_of_append hsome)
    simp [names_eq_ok_iff.mpr ⟨l, children, hlocate, hfind, rfl⟩] at hnames

structure Extends (s t : Store) : Prop where
  workingDirectory : t.workingDirectory = s.workingDirectory
  kept : s.root.Within t.root

namespace Extends

theorem refl (s : Store) : s.Extends s :=
  ⟨rfl, fun _ _ h => h⟩

theorem trans (h : s.Extends t) (h' : t.Extends u) : s.Extends u :=
  ⟨h'.workingDirectory.trans h.workingDirectory, fun l k hk => h'.kept l k (h.kept l k hk)⟩

theorem isSome_kind? (h : s.Extends t) (hs : (s.kind? l).isSome = true) :
    (t.kind? l).isSome = true := by
  obtain ⟨k, hk⟩ := Option.isSome_iff_exists.mp hs
  exact Option.isSome_iff_exists.mpr ⟨k, h.kept l k hk⟩

theorem follow (h : s.Extends t) {piece : String} (hs : s.follow l piece = .ok m) :
    t.follow l piece = .ok m := by
  by_cases hstep : IsStep piece
  · rw [follow_eq_ok_iff hstep] at hs ⊢
    exact ⟨hs.1, hs.2.1, h.isSome_kind? hs.2.2⟩
  · rw [follow_of_not_isStep hstep] at hs ⊢
    exact ⟨h.kept l _ hs.1, hs.2⟩

theorem foldlM_follow (h : s.Extends t) {pieces : List String}
    (hs : pieces.foldlM s.follow l = .ok m) : pieces.foldlM t.follow l = .ok m := by
  induction pieces generalizing l with
  | nil => exact hs
  | cons piece pieces ih =>
    rw [List.foldlM_cons] at hs ⊢
    cases hfollow : s.follow l piece with
    | error cause => simp [hfollow, bind, Except.bind] at hs
    | ok next =>
      rw [hfollow] at hs
      rw [h.follow hfollow]
      exact ih hs

theorem start (h : s.Extends t) (p : Path) : t.start p = s.start p := by
  simp only [Store.start, h.workingDirectory]

theorem locate (h : s.Extends t) {p : Path} (hs : s.locate p = .ok l) : t.locate p = .ok l := by
  unfold Store.locate at hs ⊢
  cases hfault : textFault p with
  | some cause => simp [hfault] at hs
  | none =>
    simp only [hfault, followAll, h.start] at hs ⊢
    exact h.foldlM_follow hs

theorem isFile (h : s.Extends t) {p : Path} (hs : s.isFile p = true) : t.isFile p = true := by
  obtain ⟨l, contents, hlocate, hkind⟩ := isFile_iff.mp hs
  exact isFile_iff.mpr ⟨l, contents, h.locate hlocate, h.kept l _ hkind⟩

theorem read (h : s.Extends t) {p : Path} {contents : Bytes} (hs : s.read p = .ok contents) :
    t.read p = .ok contents := by
  obtain ⟨l, hlocate, hkind⟩ := read_eq_ok_iff.mp hs
  exact read_eq_ok_iff.mpr ⟨l, h.locate hlocate, h.kept l _ hkind⟩

theorem readText (h : s.Extends t) {p : Path} {text : String} (hs : s.readText p = .ok text) :
    t.readText p = .ok text := by
  unfold Store.readText at hs ⊢
  cases hread : s.read p with
  | error cause => simp [hread, bind, Except.bind] at hs
  | ok contents =>
    rw [hread] at hs
    rw [h.read hread]
    exact hs

theorem absolute (h : s.Extends t) {p q : Path} (hs : s.absolute p = .ok q) :
    t.absolute p = .ok q := by
  unfold Store.absolute at hs ⊢
  cases hlocate : s.locate p with
  | error cause => simp [hlocate, Except.map] at hs
  | ok l =>
    rw [hlocate] at hs
    rw [h.locate hlocate]
    exact hs

theorem hasEntries (h : s.Extends t) {p : Path} (hs : s.hasEntries p = true) :
    t.hasEntries p = true := by
  obtain ⟨l, name, hlocate, hsome⟩ := hasEntries_iff.mp hs
  exact hasEntries_iff.mpr ⟨l, name, h.locate hlocate, h.isSome_kind? hsome⟩

end Extends

end Store

end SeaChart
