import Mathlib.Data.List.Basic
import SeaChart.Proofs.Effects
import SeaChart.Proofs.Saving

namespace SeaChart

open SeaChart.Path
open Text (Bytes)

def Path.IsFilePath (p : Path) : Prop :=
  ∃ n stack, IsNormal (.name n :: stack) ∧ p = ofStack (.name n :: stack)

namespace Store

variable {s t u : Store} {stack : List Component} {n : String} {m : Location}
  {force : Bool} {files : List (Path × String)}

namespace Saved

variable {text : String} {result : Except FileError Bool}

theorem directory (h : s.Saved n stack text force result u)
    (hm : s.kind? m = some .directory) : u.kind? m = some .directory := by
  by_cases heq : m = s.place (.name n :: stack)
  · cases h with
    | kept => exact hm
    | failed cause hgrown => exact hgrown.toExtends.kept m _ hm
    | written _ hgrown _ _ _ hold _ =>
      rw [place_congr hgrown.workingDirectory, ← heq] at hold
      exact absurd (hgrown.toExtends.kept m _ hm) hold
  · exact h.kept_elsewhere heq hm

theorem isSome (h : s.Saved n stack text force result u)
    (hm : (s.kind? m).isSome = true) : (u.kind? m).isSome = true := by
  cases h with
  | kept => exact hm
  | failed cause hgrown => exact hgrown.toExtends.isSome_kind? hm
  | written _ hgrown _ _ _ _ hputs =>
    rw [hputs.kind?]
    split
    · rfl
    · exact hgrown.toExtends.isSome_kind? hm

theorem contains_mono (h : s.Saved n stack text force result u) {p : Path} (hp : p.IsFilePath)
    (hs : s.contains p = true) : u.contains p = true := by
  obtain ⟨k, above, hnormal, rfl⟩ := hp
  rw [contains_ofStack_iff hnormal] at hs ⊢
  obtain ⟨hfault, hreaches, hsome⟩ := hs
  refine ⟨hfault, ⟨hreaches.short, fun hparent => ?_⟩, ?_⟩
  · rw [h.workingDirectory]
    exact h.directory (hreaches.start hparent)
  · rw [place_congr h.workingDirectory]
    exact h.isSome hsome

theorem kind?_of_not_prefix (h : s.Saved n stack text force result u)
    (hm : ¬m <+: s.place (.name n :: stack)) : u.kind? m = s.kind? m := by
  rcases h.new_cases (m := m) with heq | rfl | ⟨-, hle⟩
  · exact heq
  · exact absurd (List.prefix_refl _) hm
  · exact absurd (hle.trans (List.prefix_append _ _)) hm

end Saved

theorem save_cases (h : IsNormal (.name n :: stack)) (text : String) (force : Bool)
    (files : List (Path × String)) :
    ∃ result t, s.Saved n stack text force result t ∧
      s.saveAll force ((ofStack (.name n :: stack), text) :: files) =
        match result with
        | .error cause => (.error (.unwritable (ofStack (.name n :: stack)) cause), t)
        | .ok _ => t.saveAll force files := by
  refine ⟨_, _, saved_save h text force, ?_⟩
  simp only [saveAll]
  rcases s.save (ofStack (.name n :: stack)) text force with ⟨cause | written, t⟩ <;> rfl

variable (force) in
theorem saveAll_workingDirectory (h : ∀ f ∈ files, f.1.IsFilePath) :
    (s.saveAll force files).2.workingDirectory = s.workingDirectory := by
  induction files generalizing s with
  | nil => rfl
  | cons f files ih =>
    obtain ⟨path, text⟩ := f
    obtain ⟨n, stack, hnormal, rfl⟩ := h _ List.mem_cons_self
    obtain ⟨result, t, hsaved, heq⟩ := save_cases (s := s) hnormal text force files
    rw [heq]
    cases result with
    | error cause => exact hsaved.workingDirectory
    | ok written =>
      exact (ih fun g hg => h g (List.mem_cons_of_mem _ hg)).trans hsaved.workingDirectory

theorem extends_saveAll (h : ∀ f ∈ files, f.1.IsFilePath) :
    s.Extends (s.saveAll false files).2 := by
  induction files generalizing s with
  | nil => exact .refl s
  | cons f files ih =>
    obtain ⟨path, text⟩ := f
    obtain ⟨n, stack, hnormal, rfl⟩ := h _ List.mem_cons_self
    obtain ⟨result, t, hsaved, heq⟩ := save_cases (s := s) hnormal text false files
    have ht : s.Extends t := (hsaved.adds hnormal).toExtends
    rw [heq]
    cases result with
    | error cause => exact ht
    | ok written => exact ht.trans (ih fun g hg => h g (List.mem_cons_of_mem _ hg))

theorem adds_saveAll {b : Store} (hb : b.Adds s stack)
    (h : ∀ f ∈ files, ∃ n, IsNormal (.name n :: stack) ∧ f.1 = ofStack (.name n :: stack) ∧
      (textFault f.1 = none → b.Reaches (.name n :: stack) →
        b.kind? (b.place (.name n :: stack)) = none)) :
    b.Adds (s.saveAll force files).2 stack := by
  induction files generalizing s with
  | nil => exact hb
  | cons f files ih =>
    obtain ⟨path, text⟩ := f
    obtain ⟨n, hnormal, rfl, habsent⟩ := h _ List.mem_cons_self
    obtain ⟨result, t, hsaved, heq⟩ := save_cases (s := s) hnormal text force files
    have ht : b.Adds t stack := hsaved.adds_of_absent hnormal hb habsent
    rw [heq]
    cases result with
    | error cause => exact ht
    | ok written => exact ih ht fun g hg => h g (List.mem_cons_of_mem _ hg)

variable (force) in
theorem contains_saveAll {p : Path} (hp : p.IsFilePath) (hs : s.contains p = true)
    (h : ∀ f ∈ files, f.1.IsFilePath) : (s.saveAll force files).2.contains p = true := by
  induction files generalizing s with
  | nil => exact hs
  | cons f files ih =>
    obtain ⟨path, text⟩ := f
    obtain ⟨n, stack, hnormal, rfl⟩ := h _ List.mem_cons_self
    obtain ⟨result, t, hsaved, heq⟩ := save_cases (s := s) hnormal text force files
    have ht : t.contains p = true := hsaved.contains_mono hp hs
    rw [heq]
    cases result with
    | error cause => exact ht
    | ok written => exact ih ht fun g hg => h g (List.mem_cons_of_mem _ hg)

theorem contains_of_saveAll (hok : s.saveAll force files = (.ok (), u))
    (h : ∀ f ∈ files, f.1.IsFilePath) {f : Path × String} (hf : f ∈ files) :
    u.contains f.1 = true := by
  induction files generalizing s with
  | nil => cases hf
  | cons g files ih =>
    obtain ⟨path, text⟩ := g
    have htail : ∀ g ∈ files, g.1.IsFilePath := fun g hg => h g (List.mem_cons_of_mem _ hg)
    obtain ⟨n, stack, hnormal, rfl⟩ := h _ List.mem_cons_self
    obtain ⟨result, t, hsaved, heq⟩ := save_cases (s := s) hnormal text force files
    rw [heq] at hok
    cases result with
    | error cause => cases hok
    | ok written =>
      rcases List.mem_cons.mp hf with rfl | hf
      · have hthere := contains_saveAll force ⟨n, stack, hnormal, rfl⟩
          (hsaved.contains hnormal) htail
        rwa [show t.saveAll force files = _ from hok] at hthere
      · exact ih hok htail hf

variable (force) in
theorem kind?_saveAll (h : ∀ f ∈ files, ∃ n stack, IsNormal (.name n :: stack) ∧
      f.1 = ofStack (.name n :: stack) ∧ ¬m <+: s.place (.name n :: stack)) :
    (s.saveAll force files).2.kind? m = s.kind? m := by
  induction files generalizing s with
  | nil => rfl
  | cons f files ih =>
    obtain ⟨path, text⟩ := f
    obtain ⟨n, stack, hnormal, rfl, hm⟩ := h _ List.mem_cons_self
    obtain ⟨result, t, hsaved, heq⟩ := save_cases (s := s) hnormal text force files
    have ht : t.kind? m = s.kind? m := hsaved.kind?_of_not_prefix hm
    rw [heq]
    cases result with
    | error cause => exact ht
    | ok written =>
      refine (ih fun g hg => ?_).trans ht
      obtain ⟨k, above, hg, heq, hle⟩ := h g (List.mem_cons_of_mem _ hg)
      exact ⟨k, above, hg, heq, place_congr hsaved.workingDirectory _ ▸ hle⟩

theorem read_eq_ok_of_contains (hnormal : IsNormal (.name n :: stack)) {contents : Bytes}
    (hthere : s.contains (ofStack (.name n :: stack)) = true)
    (hkind : s.kind? (s.place (.name n :: stack)) = some (.file contents)) :
    s.read (ofStack (.name n :: stack)) = .ok contents := by
  obtain ⟨hfault, hreaches, hsome⟩ := (contains_ofStack_iff hnormal).mp hthere
  exact read_eq_ok_iff.mpr
    ⟨_, (locate_eq_ok_iff hnormal).mpr ⟨hfault, hreaches, rfl, hsome⟩, hkind⟩

theorem saveAll_file {xs ys : List (Path × String)} {text : String}
    (hnormal : IsNormal (.name n :: stack))
    (hok : s.saveAll force (xs ++ (ofStack (.name n :: stack), text) :: ys) = (.ok (), u))
    (h : ∀ f ∈ xs ++ ys, ∃ k above, IsNormal (.name k :: above) ∧ f.1 = ofStack (.name k :: above) ∧
      ¬s.place (.name n :: stack) <+: s.place (.name k :: above)) :
    u.read (ofStack (.name n :: stack)) = .ok (Text.encodeUtf8 text) ∨
      (force = false ∧ (s.kind? (s.place (.name n :: stack))).isSome = true ∧
        u.kind? (s.place (.name n :: stack)) = s.kind? (s.place (.name n :: stack))) := by
  have hpaths : ∀ f ∈ xs ++ ys, f.1.IsFilePath := fun f hf =>
    let ⟨k, above, hk, heq, _⟩ := h f hf
    ⟨k, above, hk, heq⟩
  obtain ⟨hxs, hys⟩ := List.forall_mem_append.mp hpaths
  have hdirectory := saveAll_workingDirectory (s := s) force hxs
  have hbefore := kind?_saveAll (s := s) (m := s.place (.name n :: stack)) force
    fun f hf => h f (List.mem_append_left ys hf)
  rw [saveAll_append, andThen] at hok
  rcases hfirst : s.saveAll force xs with ⟨e | _, r⟩
  · simp [hfirst] at hok
  · simp only [hfirst] at hok hdirectory hbefore
    obtain ⟨result, t, hsaved, heq⟩ := save_cases (s := r) hnormal text force ys
    rw [heq] at hok
    cases result with
    | error cause => cases hok
    | ok written =>
      have hlast : t.saveAll force ys = (.ok (), u) := hok
      have hplace := place_congr (hsaved.workingDirectory.trans hdirectory)
      have hafter := kind?_saveAll (s := t) (m := s.place (.name n :: stack)) force
        fun f hf => by
          obtain ⟨k, above, hk, heq, hle⟩ := h f (List.mem_append_right xs hf)
          exact ⟨k, above, hk, heq, hplace (.name k :: above) ▸ hle⟩
      have hthere := contains_saveAll force ⟨n, stack, hnormal, rfl⟩
        (hsaved.contains hnormal) hys
      have hfinal := saveAll_workingDirectory (s := t) force hys
      rw [hlast] at hafter hthere hfinal
      cases hsaved with
      | kept hforce hkept =>
        obtain ⟨-, -, hsome⟩ := (contains_ofStack_iff hnormal).mp hkept
        rw [place_congr hdirectory, hbefore] at hsome
        exact Or.inr ⟨hforce, hsome, hafter.trans hbefore⟩
      | written _ hgrown _ _ _ _ hputs =>
        refine Or.inl (read_eq_ok_of_contains hnormal hthere ?_)
        rw [place_congr hfinal, hplace, hafter, hputs.kind?,
          place_congr (hgrown.workingDirectory.trans hdirectory), if_pos rfl]

theorem saveAll_of_contains (h : ∀ f ∈ files, s.contains f.1 = true) :
    s.saveAll false files = (.ok (), s) := by
  induction files with
  | nil => rfl
  | cons f files ih =>
    obtain ⟨path, text⟩ := f
    simp only [saveAll, save_of_contains (h _ List.mem_cons_self)]
    exact ih fun g hg => h g (List.mem_cons_of_mem _ hg)

end Store

end SeaChart
