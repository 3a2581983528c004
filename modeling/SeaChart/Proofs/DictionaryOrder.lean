import Mathlib.Data.String.Basic
import SeaChart.Dictionary

namespace SeaChart.Dictionary

variable {α : Type}

theorem mem_insertEntry {key : String} {value : α} {es : List (String × α)} {e : String × α}
    (h : e ∈ insertEntry key value es) : e = (key, value) ∨ e ∈ es := by
  induction es with
  | nil => exact Or.inl (List.mem_singleton.mp h)
  | cons d es ih =>
    obtain ⟨k, v⟩ := d
    simp only [insertEntry] at h
    split at h
    · exact List.mem_cons.mp h
    · split at h
      · rcases List.mem_cons.mp h with h | h
        · exact Or.inl h
        · exact Or.inr (List.mem_cons_of_mem _ h)
      · rcases List.mem_cons.mp h with rfl | h
        · exact Or.inr List.mem_cons_self
        · rcases ih h with h | h
          · exact Or.inl h
          · exact Or.inr (List.mem_cons_of_mem _ h)

theorem pairwise_insertEntry (key : String) (value : α) {es : List (String × α)}
    (h : es.Pairwise fun d e => d.1 < e.1) :
    (insertEntry key value es).Pairwise fun d e => d.1 < e.1 := by
  induction es with
  | nil => exact List.pairwise_singleton _ _
  | cons d es ih =>
    obtain ⟨k, v⟩ := d
    obtain ⟨hhead, htail⟩ := List.pairwise_cons.mp h
    simp only [insertEntry]
    split
    · next hlt =>
      refine List.pairwise_cons.mpr ⟨?_, h⟩
      intro e he
      rcases List.mem_cons.mp he with rfl | he
      · exact hlt
      · exact hlt.trans (hhead e he)
    · next hnlt =>
      split
      · next heq =>
        subst heq
        exact List.pairwise_cons.mpr ⟨hhead, htail⟩
      · next hne =>
        refine List.pairwise_cons.mpr ⟨?_, ih htail⟩
        intro e he
        rcases mem_insertEntry he with rfl | he
        · exact lt_of_le_of_ne (not_lt.mp hnlt) (Ne.symm hne)
        · exact hhead e he

theorem Sorted.insert {d : Dictionary α} (h : d.Sorted) (key : String) (value : α) :
    (d.insert key value).Sorted :=
  List.pairwise_map.mpr (pairwise_insertEntry key value (List.pairwise_map.mp h))

structure Keyed (nameOf : α → String) (d : Dictionary α) : Prop where
  sorted : d.Sorted
  named : ∀ e ∈ d.entries, nameOf e.2 = e.1

theorem Keyed.insert {nameOf : α → String} {d : Dictionary α} (h : Keyed nameOf d) (value : α) :
    Keyed nameOf (d.insert (nameOf value) value) := by
  refine ⟨h.sorted.insert _ _, ?_⟩
  intro e he
  rcases mem_insertEntry he with rfl | he
  · rfl
  · exact h.named e he

theorem keyed_foldl_insert {nameOf : α → String} (values : List α) {d : Dictionary α}
    (h : Keyed nameOf d) :
    Keyed nameOf ((values.map fun v => (nameOf v, v)).foldl
      (fun d (key, value) => d.insert key value) d) := by
  induction values generalizing d with
  | nil => exact h
  | cons v values ih => exact ih (h.insert v)

theorem keyed_ofList (nameOf : α → String) (values : List α) :
    Keyed nameOf (ofList (values.map fun v => (nameOf v, v))) :=
  keyed_foldl_insert values ⟨List.Pairwise.nil, fun _ he => absurd he List.not_mem_nil⟩

theorem filter_entries_eq_lookup {es : List (String × α)} (h : es.Pairwise fun d e => d.1 < e.1)
    (key : String) : es.filter (·.1 = key) = ((es.lookup key).map (key, ·)).toList := by
  induction es with
  | nil => rfl
  | cons e es ih =>
    obtain ⟨k, v⟩ := e
    obtain ⟨hhead, htail⟩ := List.pairwise_cons.mp h
    by_cases hk : k = key
    · subst hk
      have hnone : es.filter (·.1 = k) = [] := by
        simp only [List.filter_eq_nil_iff, decide_eq_true_eq]
        intro e he
        exact (hhead e he).ne'
      simp [hnone]
    · have hk' : (key == k) = false := by simpa using Ne.symm hk
      simp [hk, hk', List.lookup_cons, ih htail]

theorem Sorted.mem_entries_iff {d : Dictionary α} (h : d.Sorted) {key : String} {value : α} :
    (key, value) ∈ d.entries ↔ d.find? key = some value := by
  have hfilter := filter_entries_eq_lookup (List.pairwise_map.mp h) key
  have hmem : (key, value) ∈ d.entries ↔ (key, value) ∈ d.entries.filter (·.1 = key) := by
    simp [List.mem_filter]
  rw [hmem, hfilter, find?]
  simp

theorem Sorted.eq_of_find? {d e : Dictionary α} (hd : d.Sorted) (he : e.Sorted)
    (h : ∀ key, d.find? key = e.find? key) : d = e := by
  have hsorted {c : Dictionary α} (hc : c.Sorted) : c.entries.Pairwise fun a b => a.1 < b.1 :=
    List.pairwise_map.mp hc
  have hnodup {c : Dictionary α} (hc : c.Sorted) : c.entries.Nodup :=
    (hsorted hc).imp fun hlt heq => absurd (heq ▸ hlt) (lt_irrefl _)
  have hperm : d.entries.Perm e.entries := by
    apply (List.perm_ext_iff_of_nodup (hnodup hd) (hnodup he)).mpr
    rintro ⟨key, value⟩
    rw [hd.mem_entries_iff, he.mem_entries_iff, h]
  have heq : d.entries = e.entries := by
    refine hperm.eq_of_pairwise (fun a b _ _ hab hba => ?_) (hsorted hd) (hsorted he)
    exact absurd (lt_trans hab hba) (lt_irrefl _)
  obtain ⟨entries⟩ := d
  exact congrArg Dictionary.mk heq

def filterMap (f : String → α → Option α) (d : Dictionary α) : Dictionary α :=
  ⟨d.entries.filterMap fun (key, value) => (f key value).map (key, ·)⟩

theorem Sorted.filterMap {d : Dictionary α} (h : d.Sorted) (f : String → α → Option α) :
    (d.filterMap f).Sorted := by
  apply List.pairwise_map.mpr
  apply List.pairwise_filterMap.mpr
  apply (List.pairwise_map.mp h).imp
  rintro ⟨k, v⟩ ⟨l, w⟩ hlt e he e' he'
  obtain ⟨_, -, rfl⟩ := Option.map_eq_some_iff.mp he
  obtain ⟨_, -, rfl⟩ := Option.map_eq_some_iff.mp he'
  exact hlt

theorem Sorted.find?_filterMap {d : Dictionary α} (h : d.Sorted) (f : String → α → Option α)
    (key : String) : (d.filterMap f).find? key = (d.find? key).bind (f key) := by
  ext value
  rw [← (h.filterMap f).mem_entries_iff, Option.bind_eq_some_iff]
  simp only [Dictionary.filterMap, List.mem_filterMap, Option.map_eq_some_iff, Prod.mk.injEq]
  constructor
  · rintro ⟨⟨k, v⟩, hentry, w, hf, rfl, rfl⟩
    exact ⟨v, h.mem_entries_iff.mp hentry, hf⟩
  · rintro ⟨v, hfind, hf⟩
    exact ⟨(key, v), h.mem_entries_iff.mpr hfind, value, hf, rfl, rfl⟩

theorem Keyed.filter_values {nameOf : α → String} {d : Dictionary α} (h : Keyed nameOf d)
    (name : String) : d.values.filter (nameOf · = name) = (d.find? name).toList := by
  have hkeys : d.values.filter (nameOf · = name) =
      (d.entries.filter (·.1 = name)).map Prod.snd := by
    rw [values, List.filter_map]
    congr 1
    apply List.filter_congr
    intro e he
    simp [h.named e he]
  rw [hkeys, filter_entries_eq_lookup (List.pairwise_map.mp h.sorted), find?]
  cases d.entries.lookup name <;> rfl

end SeaChart.Dictionary
