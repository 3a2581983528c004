import Mathlib.Data.List.Basic
import SeaChart.Proofs.Effects

namespace SeaChart

open Shapefile (levelName)

namespace Store.Listing

variable {list : Listing} {s : Store} {p : Path}

def Opens (list : Listing) (s : Store) (p : Path) : Prop :=
  s.isDirectory p = true → ∃ found, list s p = .ok found

def IsFaithful (list : Listing) : Prop :=
  ∀ {s p found}, list s p = .ok found → ∃ names, s.names p = .ok names ∧ found.Perm names

/-- What may be listed may still be listed after files are added, and so may what is new. -/
def IsSteady (list : Listing) (b : Store) : Prop :=
  ∀ {s t p}, b.Extends s → s.Extends t → list.Opens s p → list.Opens t p

theorem isFaithful_names : IsFaithful Store.names :=
  fun h => ⟨_, h, .refl _⟩

theorem opens_names (s : Store) (p : Path) : Opens Store.names s p :=
  exists_names_of_isDirectory

theorem isSteady_names (b : Store) : IsSteady Store.names b :=
  fun _ _ _ => opens_names _ _

theorem hasEntries_eq (h : list.IsFaithful) (hopens : list.Opens s p) :
    s.hasEntries p list = s.hasEntries p := by
  unfold hasEntries
  cases hlisted : list s p with
  | ok found =>
    obtain ⟨names, hnames, hperm⟩ := h hlisted
    simp only [hnames, hperm.isEmpty_eq]
  | error cause =>
    cases hnames : s.names p with
    | error cause' => rfl
    | ok names =>
      obtain ⟨found, hfound⟩ := hopens (isDirectory_of_names hnames)
      rw [hlisted] at hfound
      cases hfound

def refusing (refused : Path) : Listing :=
  fun s p => if p = refused then .error .denied else s.names p

theorem isFaithful_refusing (refused : Path) : (refusing refused).IsFaithful := by
  intro s p found h
  unfold refusing at h
  split at h
  · cases h
  · exact isFaithful_names h

end Store.Listing

namespace Chart

open Store.Listing

variable {list : Store.Listing} {s : Store} {data : Path} {level : Nat}

theorem opens_iff :
    list.Opens s (data.below (levelName level)) ↔
      ∃ files, filesBy list s data level = .ok files := by
  unfold Store.Listing.Opens filesBy Shapefile.scan
  cases hdirectory : s.isDirectory (data.below (levelName level)) with
  | false => simp [hdirectory]
  | true => cases hlisted : list s (data.below (levelName level)) <;>
      simp [hdirectory, hlisted]

end Chart

end SeaChart
