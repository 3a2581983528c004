import Mathlib.Data.List.Basic
import Mathlib.Data.List.Perm.Basic
import Mathlib.Order.Lattice

/-!
Stable sorting by a key. Members of one key keep their order, which leaves only one sorted list, so
members may be selected before the sorting as well as after it.
-/

namespace SeaChart

variable {α κ : Type} [LinearOrder κ] {key : α → κ} {l s t : List α}

structure StablySorted (key : α → κ) (l s : List α) : Prop where
  ordered : s.Pairwise fun a b => key a ≤ key b
  ties : ∀ k, (s.filter fun a => key a = k) = l.filter fun a => key a = k

namespace StablySorted

theorem mem_iff_of_ties (h : ∀ k, (s.filter fun a => key a = k) = l.filter fun a => key a = k)
    (a : α) : a ∈ s ↔ a ∈ l := by
  have hties : a ∈ s.filter (fun b => key b = key a) ↔ a ∈ l.filter (fun b => key b = key a) := by
    rw [h]
  simpa using hties

theorem eq_of_ties (hs : s.Pairwise fun a b => key a ≤ key b)
    (ht : t.Pairwise fun a b => key a ≤ key b)
    (h : ∀ k, (s.filter fun a => key a = k) = t.filter fun a => key a = k) : s = t := by
  induction s generalizing t with
  | nil =>
    apply Eq.symm
    rw [List.eq_nil_iff_forall_not_mem]
    intro b hb
    exact List.not_mem_nil ((mem_iff_of_ties h b).mpr hb)
  | cons a s ih =>
    cases t with
    | nil => exact absurd ((mem_iff_of_ties h a).mp List.mem_cons_self) List.not_mem_nil
    | cons b t =>
      rw [List.pairwise_cons] at hs ht
      have hab : key a ≤ key b := by
        rcases List.mem_cons.mp ((mem_iff_of_ties h b).mpr List.mem_cons_self) with heq | hb
        · rw [heq]
        · exact hs.1 b hb
      have hba : key b ≤ key a := by
        rcases List.mem_cons.mp ((mem_iff_of_ties h a).mp List.mem_cons_self) with heq | ha
        · rw [heq]
        · exact ht.1 a ha
      have hkey : key a = key b := le_antisymm hab hba
      -- The heads have the same key, so both come first among its members.
      have hheads := h (key a)
      simp only [List.filter_cons, hkey, decide_true, if_true, List.cons.injEq] at hheads
      obtain ⟨rfl, hties⟩ := hheads
      congr 1
      apply ih hs.2 ht.2
      intro k
      by_cases hk : key a = k
      · rw [← hk]
        exact hties
      · have htails := h k
        simpa only [List.filter_cons, hk, decide_false, Bool.false_eq_true, if_false] using htails

theorem eq (hs : StablySorted key l s) (ht : StablySorted key l t) : s = t := by
  apply eq_of_ties hs.ordered ht.ordered
  intro k
  rw [hs.ties, ht.ties]

theorem perm (h : StablySorted key l s) : s.Perm l := by
  classical
  rw [List.perm_iff_count]
  intro a
  have hkey (xs : List α) : (xs.filter fun b => key b = key a).count a = xs.count a :=
    List.count_filter (by simp)
  rw [← hkey s, h.ties, hkey]

theorem filter (h : StablySorted key l s) (p : α → Bool) :
    StablySorted key (l.filter p) (s.filter p) where
  ordered := h.ordered.filter p
  ties k := by
    rw [List.filter_comm, h.ties, List.filter_comm]

theorem mergeSort (key : α → κ) (l : List α) :
    StablySorted key l (l.mergeSort fun a b => key a ≤ key b) := by
  have trans : ∀ a b c : α, decide (key a ≤ key b) → decide (key b ≤ key c) →
      decide (key a ≤ key c) := by
    simp only [decide_eq_true_eq]
    intro a b c
    exact le_trans
  have total : ∀ a b : α, decide (key a ≤ key b) || decide (key b ≤ key a) := by
    intro a b
    simpa using le_total (key a) (key b)
  constructor
  · have hsorted := List.pairwise_mergeSort trans total l
    simpa only [decide_eq_true_eq] using hsorted
  · intro k
    set sorted := l.mergeSort fun a b => key a ≤ key b with hsorted
    have hties : (l.filter fun a => key a = k).Pairwise fun a b => decide (key a ≤ key b) := by
      apply List.pairwise_of_forall_mem_list
      intro a ha b hb
      have hka := (List.mem_filter.mp ha).2
      have hkb := (List.mem_filter.mp hb).2
      rw [decide_eq_true_eq] at hka hkb ⊢
      rw [hka, hkb]
    have hsublist : (l.filter fun a => key a = k).Sublist (sorted.filter fun a => key a = k) := by
      have hfilter := (List.sublist_mergeSort trans total hties List.filter_sublist).filter
        fun a => key a = k
      simpa only [List.filter_filter, Bool.and_self] using hfilter
    have hperm : (sorted.filter fun a => key a = k).Perm (l.filter fun a => key a = k) :=
      (List.mergeSort_perm _ _).filter _
    exact (hsublist.eq_of_length hperm.length_eq.symm).symm

end StablySorted

end SeaChart
