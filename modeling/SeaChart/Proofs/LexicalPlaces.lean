import Mathlib.Data.List.Basic
import SeaChart.Proofs.SavedFiles

/-!
Where files are written, whatever the text of a path. There are no links, so a path that leads
anywhere leads to the place that its pieces alone give; on the way to it only directories are made.
-/

namespace SeaChart.Store

open SeaChart.Path
open Text (Bytes)

variable {s t u : Store} {stack : List Component} {n : String} {l m : Location} {p : Path}

section Place

def lexicalPlace (s : Store) (p : Path) : Location :=
  s.place (p.components.foldl push [])

theorem lexicalPlace_congr (h : t.workingDirectory = s.workingDirectory) (p : Path) :
    t.lexicalPlace p = s.lexicalPlace p :=
  place_congr h _

theorem foldl_push_reverse (h : IsNormal stack) : stack.reverse.foldl push [] = stack := by
  induction h with
  | root => rfl
  | parents count =>
    induction count with
    | zero => rfl
    | succ count ih =>
      rw [List.replicate_succ, List.reverse_cons, List.foldl_append, ih]
      cases count <;> rfl
  | name _ _ ih =>
    rw [List.reverse_cons, List.foldl_append, ih]
    rfl

theorem lexicalPlace_ofStack (h : IsNormal stack) :
    s.lexicalPlace (ofStack stack) = s.place stack := by
  rw [lexicalPlace, components_ofStack h, foldl_push_reverse h]

theorem place_push_parent (s : Store) (stack : List Component) :
    s.place (push stack .parent) = (s.place stack).dropLast := by
  cases stack with
  | nil => rfl
  | cons c stack =>
    cases c with
    | root => rfl
    | current => rfl
    | parent => rfl
    | name n => simp [push, place]

def visit (l : Location) (piece : String) : Location :=
  if piece = "" ∨ piece = "." then l
  else if piece = ".." then l.dropLast
  else l ++ [piece]

theorem visit_place (s : Store) (stack : List Component) (piece : String) :
    visit (s.place stack) piece = s.place ((ofPiece? piece).elim stack (push stack)) := by
  unfold visit ofPiece?
  split
  · rfl
  · split
    · exact (place_push_parent s stack).symm
    · rfl

theorem foldl_visit_place (s : Store) (stack : List Component) (pieces : List String) :
    pieces.foldl visit (s.place stack) =
      s.place ((pieces.filterMap ofPiece?).foldl push stack) := by
  induction pieces generalizing stack with
  | nil => rfl
  | cons piece pieces ih =>
    rw [List.foldl_cons, visit_place, ih]
    cases hpiece : ofPiece? piece with
    | none => rw [List.filterMap_cons_none hpiece, Option.elim_none]
    | some c => rw [List.filterMap_cons_some hpiece, List.foldl_cons, Option.elim_some]

theorem eq_visit_of_follow {piece : String} (h : s.follow l piece = .ok m) :
    m = visit l piece := by
  by_cases hstep : IsStep piece
  · obtain ⟨rfl, -⟩ := (follow_eq_ok_iff hstep).mp h
    simp only [IsStep, not_or] at hstep
    simp [visit, hstep]
  · obtain ⟨-, rfl⟩ := (follow_of_not_isStep hstep).mp h
    rw [IsStep, not_not] at hstep
    obtain rfl | rfl | rfl := hstep <;> rfl

theorem eq_foldl_visit {pieces : List String} (h : pieces.foldlM s.follow l = .ok m) :
    m = pieces.foldl visit l := by
  induction pieces generalizing l with
  | nil =>
    cases h
    rfl
  | cons piece pieces ih =>
    rw [List.foldlM_cons, bind_eq_ok_iff] at h
    obtain ⟨next, hfollow, h⟩ := h
    obtain rfl := eq_visit_of_follow hfollow
    exact ih h

theorem foldl_push_components (p : Path) :
    p.components.foldl push [] =
      (p.pieces.filterMap ofPiece?).foldl push (if p.isAbsolute then [.root] else []) := by
  unfold components
  split
  · rfl
  · split <;> rfl

theorem start_eq_place (s : Store) (p : Path) :
    s.start p = s.place (if p.isAbsolute then [.root] else []) := by
  unfold start
  split <;> rfl

theorem lexicalPlace_eq (s : Store) (hlast : p.pieces.getLast? = some n) (hstep : IsStep n) :
    s.lexicalPlace p = s.place ((p.pieces.dropLast.filterMap ofPiece?).foldl push
      (if p.isAbsolute then [.root] else [])) ++ [n] := by
  have hpieces : p.pieces = p.pieces.dropLast ++ [n] := (List.dropLast_append_getLast? n hlast).symm
  have hpiece : ofPiece? n = some (.name n) := by
    simp only [IsStep, not_or] at hstep
    simp [ofPiece?, hstep]
  conv_lhs => rw [lexicalPlace, foldl_push_components, hpieces]
  rw [List.filterMap_append, List.foldl_append, List.filterMap_cons_some hpiece]
  rfl

theorem getLast?_lexicalPlace (s : Store) (hlast : p.pieces.getLast? = some n)
    (hstep : IsStep n) : (s.lexicalPlace p).getLast? = some n := by
  rw [lexicalPlace_eq s hlast hstep, List.getLast?_concat]

theorem lexicalPlace_of_followAll (hlast : p.pieces.getLast? = some n) (hstep : IsStep n)
    (h : s.followAll p p.pieces.dropLast = .ok l) : s.lexicalPlace p = l ++ [n] := by
  rw [followAll, start_eq_place] at h
  rw [lexicalPlace_eq s hlast hstep, ← foldl_visit_place, ← eq_foldl_visit h]

end Place

section Builds

structure Builds (s t : Store) : Prop where
  workingDirectory : t.workingDirectory = s.workingDirectory
  kind? : ∀ l, t.kind? l = s.kind? l ∨ s.kind? l = none ∧ t.kind? l = some .directory

namespace Builds

theorem refl (s : Store) : s.Builds s :=
  ⟨rfl, fun _ => Or.inl rfl⟩

theorem trans (h : s.Builds t) (h' : t.Builds u) : s.Builds u := by
  refine ⟨h'.workingDirectory.trans h.workingDirectory, fun l => ?_⟩
  obtain heq | ⟨hnone, hnew⟩ := h'.kind? l
  · rw [heq]
    exact h.kind? l
  · obtain heq | ⟨-, hdirectory⟩ := h.kind? l
    · exact Or.inr ⟨heq ▸ hnone, hnew⟩
    · rw [hdirectory] at hnone
      cases hnone

end Builds

theorem builds_makeDirectory (hok : s.makeDirectory p = .ok t) : s.Builds t := by
  unfold makeDirectory at hok
  split at hok
  · cases hok
  · split at hok
    · cases hok
    · next hwalk =>
      obtain ⟨l, n, -, -, -, -, hnone, hputs⟩ := create_after_notFound Entry.isLeaf_empty hwalk hok
      refine ⟨hputs.workingDirectory, fun m => ?_⟩
      rw [hputs.kind?]
      split
      · next heq => exact Or.inr ⟨heq ▸ hnone, rfl⟩
      · exact Or.inl rfl
    · cases hok

theorem builds_makeDirectories (cs : List Component) : s.Builds (s.makeDirectories cs).2 := by
  induction cs generalizing s with
  | nil => exact .refl s
  | cons c cs ih =>
    unfold makeDirectories
    simp only
    split
    · next t hok => exact builds_makeDirectory hok
    · have habove : s.Builds (s.makeDirectories cs).2 := ih
      split
      · next e t heq => simpa [heq] using habove
      · next t heq =>
        have ht : s.Builds t := by simpa [heq] using habove
        split
        · next u hok => exact ht.trans (builds_makeDirectory hok)
        · exact ht
    · exact .refl s

theorem save_builds (hlast : p.pieces.getLast? = some n) (hstep : IsStep n) (text : String)
    (force : Bool) :
    ∃ t, s.Builds t ∧ ((s.save p text force).2 = t ∨
      t.Puts (s.save p text force).2 (s.lexicalPlace p) (.file (Text.encodeUtf8 text))) := by
  have hdirectories : s.Builds (s.makeDirectoriesAbove p).2 := by
    unfold makeDirectoriesAbove
    split
    · exact builds_makeDirectories _
    · exact .refl s
  unfold save
  split
  · exact ⟨s, .refl s, Or.inl rfl⟩
  · split
    · next e t heq => exact ⟨t, by simpa [heq] using hdirectories, Or.inl rfl⟩
    · next t heq =>
      have ht : s.Builds t := by simpa [heq] using hdirectories
      refine ⟨t, ht, ?_⟩
      split
      · exact Or.inl rfl
      · next u hok =>
        obtain ⟨-, l, hl, -, -, -, hputs⟩ := write_eq_ok hlast hstep hok
        rw [← lexicalPlace_congr ht.workingDirectory, lexicalPlace_of_followAll hlast hstep hl]
        exact Or.inr hputs

end Builds

section Changed

def contents? (s : Store) (l : Location) : Option Bytes :=
  match s.root.find? l with
  | some (.file contents) => some contents
  | _ => none

def Changed (s t : Store) (l : Location) : Prop :=
  t.contents? l ≠ s.contents? l

instance (s t : Store) (l : Location) : Decidable (s.Changed t l) :=
  inferInstanceAs (Decidable (t.contents? l ≠ s.contents? l))

theorem contents?_eq_some_iff {contents : Bytes} :
    s.contents? l = some contents ↔ s.kind? l = some (.file contents) := by
  rw [kind?_eq_file_iff, contents?]
  rcases s.root.find? l with _ | _ | _ <;> simp

theorem contents?_congr (h : t.kind? l = s.kind? l) : t.contents? l = s.contents? l := by
  ext contents
  rw [contents?_eq_some_iff, contents?_eq_some_iff, h]

theorem not_changed_self (s : Store) (l : Location) : ¬s.Changed s l :=
  not_not.mpr rfl

theorem Extends.kind?_of_changed (h : s.Extends t) (hl : s.Changed t l) : s.kind? l = none := by
  cases hkind : s.kind? l with
  | none => rfl
  | some k => exact absurd (contents?_congr ((h.kept l k hkind).trans hkind.symm)) hl

structure ChangesOnly (P : Location → Prop) (s t : Store) : Prop where
  workingDirectory : t.workingDirectory = s.workingDirectory
  changed : ∀ l, s.Changed t l → P l

variable {P Q : Location → Prop}

namespace ChangesOnly

theorem refl (s : Store) : ChangesOnly P s s :=
  ⟨rfl, fun l hl => absurd hl (not_changed_self s l)⟩

theorem trans (h : ChangesOnly P s t) (h' : ChangesOnly P t u) : ChangesOnly P s u := by
  refine ⟨h'.workingDirectory.trans h.workingDirectory, fun l hl => ?_⟩
  by_cases hfirst : s.Changed t l
  · exact h.changed l hfirst
  · apply h'.changed l
    rw [Changed, not_not] at hfirst
    rwa [Changed, hfirst]

theorem mono (h : ChangesOnly P s t) (hPQ : ∀ l, P l → Q l) : ChangesOnly Q s t :=
  ⟨h.workingDirectory, fun l hl => hPQ l (h.changed l hl)⟩

end ChangesOnly

theorem Builds.changesOnly (h : s.Builds t) : ChangesOnly P s t := by
  refine ⟨h.workingDirectory, fun l hl => absurd ?_ hl⟩
  obtain heq | ⟨hnone, hnew⟩ := h.kind? l
  · exact contents?_congr heq
  · ext contents
    rw [contents?_eq_some_iff, contents?_eq_some_iff, hnone, hnew]
    simp

theorem Puts.changesOnly {k : Kind} (h : s.Puts t m k) : ChangesOnly (· = m) s t := by
  refine ⟨h.workingDirectory, fun l hl => ?_⟩
  by_contra hne
  have hkind := h.kind? l
  rw [if_neg hne] at hkind
  exact hl (contents?_congr hkind)

theorem changesOnly_save (hlast : p.pieces.getLast? = some n) (hstep : IsStep n) (text : String)
    (force : Bool) : ChangesOnly (· = s.lexicalPlace p) s (s.save p text force).2 := by
  obtain ⟨t, hbuilds, heq | hputs⟩ := save_builds (s := s) hlast hstep text force
  · rw [heq]
    exact hbuilds.changesOnly
  · exact hbuilds.changesOnly.trans hputs.changesOnly

def AreNamed (files : List (Path × String)) : Prop :=
  ∀ f ∈ files, ∃ n, f.1.pieces.getLast? = some n ∧ IsStep n

theorem changesOnly_saveAll {files : List (Path × String)} (h : AreNamed files) (force : Bool) :
    ChangesOnly (fun l => ∃ f ∈ files, l = s.lexicalPlace f.1) s (s.saveAll force files).2 := by
  induction files generalizing s with
  | nil => exact .refl s
  | cons f files ih =>
    obtain ⟨path, text⟩ := f
    obtain ⟨n, hlast, hstep⟩ := h _ List.mem_cons_self
    have hsaved := changesOnly_save (s := s) hlast hstep text force
    have hfirst : ChangesOnly (fun l => ∃ f ∈ (path, text) :: files, l = s.lexicalPlace f.1) s
        (s.save path text force).2 :=
      hsaved.mono fun l hl => ⟨(path, text), List.mem_cons_self, hl⟩
    simp only [saveAll]
    split
    · next cause t heq => simpa [heq] using hfirst
    · next written t heq =>
      rw [heq] at hfirst
      refine hfirst.trans ((ih fun g hg => h g (List.mem_cons_of_mem _ hg)).mono ?_)
      rintro l ⟨g, hg, rfl⟩
      exact ⟨g, List.mem_cons_of_mem _ hg, lexicalPlace_congr hfirst.workingDirectory g.1⟩

theorem changesOnly_saveUnless {files : List (Path × String)} (h : AreNamed files) (skip : Bool) :
    ChangesOnly (fun l => skip = false ∧ ∃ f ∈ files, l = s.lexicalPlace f.1) s
      (s.saveUnless skip files).2 := by
  cases skip with
  | true => exact .refl s
  | false => exact (changesOnly_saveAll h true).mono fun l hl => ⟨rfl, hl⟩

end Changed

end SeaChart.Store
