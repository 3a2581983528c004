import Mathlib.Data.List.Basic
import SeaChart.Proofs.FileTree
import SeaChart.Proofs.NormalPaths

namespace SeaChart.Store

open SeaChart.Path
open Text (Bytes)

variable {s t u : Store} {stack : List Component} {c : Component} {n : String} {l m : Location}

section Place

def base (s : Store) (stack : List Component) : Location :=
  if .root ∈ stack then [] else s.workingDirectory

def place (s : Store) : List Component → Location
  | [] => s.workingDirectory
  | .root :: _ => []
  | .current :: stack => s.place stack
  | .parent :: stack => (s.place stack).dropLast
  | .name n :: stack => s.place stack ++ [n]

def walk (s : Store) (stack : List Component) : Except FileError Location :=
  (stack.reverse.map Component.piece).foldlM s.follow (s.base stack)

structure Reaches (s : Store) (stack : List Component) : Prop where
  short : ∀ n, .name n ∈ stack → n.utf8ByteSize ≤ nameLimit
  start : .parent ∈ stack → s.kind? s.workingDirectory = some .directory

theorem base_cons (hc : c ≠ .root) : s.base (c :: stack) = s.base stack := by
  simp [base, hc.symm]

theorem walk_cons (hc : c ≠ .root) :
    s.walk (c :: stack) = s.walk stack >>= fun l => s.follow l c.piece := by
  simp [walk, base_cons hc, List.foldlM_append]

theorem start_ofStack (h : IsNormal stack) : s.start (ofStack stack) = s.base stack := by
  simp [start, base, isAbsolute_ofStack h]

theorem followAll_ofStack (h : IsNormal (c :: stack)) (hc : c ≠ .root) :
    s.followAll (ofStack (c :: stack)) (ofStack (c :: stack)).pieces = s.walk (c :: stack) := by
  simp only [followAll, start_ofStack h, pieces_ofStack h hc, walk]

theorem kind?_eq_directory_of_prefix (h : s.kind? m = some .directory) (hle : l <+: m) :
    s.kind? l = some .directory := by
  obtain ⟨rest, rfl⟩ := hle
  cases rest with
  | nil => simpa using h
  | cons name rest => exact kind?_eq_directory_of_append (Option.isSome_of_eq_some h)

theorem bind_eq_ok_iff {α β : Type} {x : Except FileError α} {f : α → Except FileError β} {b : β} :
    x >>= f = .ok b ↔ ∃ a, x = .ok a ∧ f a = .ok b := by
  cases x <;> simp [bind, Except.bind]

theorem reaches_tail (h : s.Reaches (c :: stack)) : s.Reaches stack :=
  ⟨fun n hn => h.short n (List.mem_cons_of_mem c hn), fun hp => h.start (List.mem_cons_of_mem c hp)⟩

theorem reaches_name_iff :
    s.Reaches (.name n :: stack) ↔ n.utf8ByteSize ≤ nameLimit ∧ s.Reaches stack := by
  constructor
  · exact fun h => ⟨h.short n List.mem_cons_self, reaches_tail h⟩
  · rintro ⟨hn, h⟩
    refine ⟨fun k hk => ?_, fun hp => h.start (by simpa using hp)⟩
    rcases List.mem_cons.mp hk with heq | hk
    · cases heq
      exact hn
    · exact h.short k hk

theorem walk_name_of_tail (hname : IsName n)
    (htail : ∀ l, s.kind? l = some .directory →
      (s.walk stack = .ok l ↔ s.Reaches stack ∧ l = s.place stack)) :
    s.walk (.name n :: stack) = .ok l ↔
      s.Reaches (.name n :: stack) ∧ l = s.place (.name n :: stack) ∧
        (s.kind? l).isSome = true := by
  rw [walk_cons (by simp), bind_eq_ok_iff, reaches_name_iff]
  simp only [Component.piece, follow_eq_ok_iff hname.isStep, place]
  constructor
  · rintro ⟨d, hwalk, rfl, hshort, hsome⟩
    obtain ⟨hreaches, rfl⟩ := (htail d (kind?_eq_directory_of_append hsome)).mp hwalk
    exact ⟨⟨hshort, hreaches⟩, rfl, hsome⟩
  · rintro ⟨⟨hshort, hreaches⟩, rfl, hsome⟩
    exact ⟨_, (htail _ (kind?_eq_directory_of_append hsome)).mpr ⟨hreaches, rfl⟩, rfl, hshort,
      hsome⟩

theorem walk_parents (count : Nat) :
    s.walk (List.replicate count .parent) = .ok l ↔
      s.Reaches (List.replicate count .parent) ∧ l = s.place (List.replicate count .parent) := by
  have hshort (k : Nat) : ∀ n, .name n ∈ List.replicate k Component.parent →
      n.utf8ByteSize ≤ nameLimit := by
    intro n hn
    simp at hn
  have hplace (k : Nat) : s.place (List.replicate k .parent) <+: s.workingDirectory := by
    induction k with
    | zero => exact List.prefix_refl _
    | succ k ih => exact (List.dropLast_prefix _).trans ih
  induction count generalizing l with
  | zero =>
    simp only [List.replicate_zero, walk, base, place]
    constructor
    · rintro ⟨⟩
      exact ⟨⟨by simp, by simp⟩, rfl⟩
    · rintro ⟨-, rfl⟩
      rfl
  | succ count ih =>
    have hstep : ¬IsStep ".." := not_not.mpr (Or.inr (Or.inr rfl))
    rw [List.replicate_succ, walk_cons (by simp), bind_eq_ok_iff]
    simp only [Component.piece, follow_of_not_isStep hstep, if_true, place, ih]
    constructor
    · rintro ⟨d, ⟨hreaches, rfl⟩, hkind, rfl⟩
      refine ⟨⟨hshort (count + 1), fun _ => ?_⟩, rfl⟩
      cases count with
      | zero => exact hkind
      | succ count => exact hreaches.start (by simp)
    · rintro ⟨hreaches, rfl⟩
      have hstart := hreaches.start List.mem_cons_self
      exact ⟨_, ⟨reaches_tail hreaches, rfl⟩, kind?_eq_directory_of_prefix hstart (hplace count),
        rfl⟩

theorem walk_eq_ok_iff (h : IsNormal stack) (hl : s.kind? l = some .directory) :
    s.walk stack = .ok l ↔ s.Reaches stack ∧ l = s.place stack := by
  induction h generalizing l with
  | root =>
    have hstep : ¬IsStep "" := not_not.mpr (Or.inl rfl)
    have hreaches : s.Reaches [.root] := ⟨by simp, by simp⟩
    have hwalk : s.walk [.root] = s.follow [] "" := by
      simp [walk, base, Component.piece]
    rw [hwalk, follow_of_not_isStep hstep]
    simp only [place, hreaches, true_and]
    constructor
    · rintro ⟨-, rfl⟩
      rfl
    · rintro rfl
      exact ⟨hl, rfl⟩
  | parents count => exact walk_parents count
  | name hname _ ih =>
    rw [walk_name_of_tail hname fun d hd => ih hd]
    simp [hl]

theorem walk_name_eq_ok_iff (h : IsNormal (.name n :: stack)) :
    s.walk (.name n :: stack) = .ok l ↔
      s.Reaches (.name n :: stack) ∧ l = s.place (.name n :: stack) ∧
        (s.kind? l).isSome = true :=
  walk_name_of_tail (h.isName List.mem_cons_self) fun _ hd => walk_eq_ok_iff h.tail hd

theorem locate_eq_ok_iff (h : IsNormal (.name n :: stack)) :
    s.locate (ofStack (.name n :: stack)) = .ok l ↔
      textFault (ofStack (.name n :: stack)) = none ∧ s.Reaches (.name n :: stack) ∧
        l = s.place (.name n :: stack) ∧ (s.kind? l).isSome = true := by
  unfold locate
  cases textFault (ofStack (.name n :: stack)) with
  | some cause => simp
  | none => simp [followAll_ofStack h, walk_name_eq_ok_iff h]

theorem contains_ofStack_iff (h : IsNormal (.name n :: stack)) :
    s.contains (ofStack (.name n :: stack)) = true ↔
      textFault (ofStack (.name n :: stack)) = none ∧ s.Reaches (.name n :: stack) ∧
        (s.kind? (s.place (.name n :: stack))).isSome = true := by
  simp only [contains_iff, locate_eq_ok_iff h]
  constructor
  · rintro ⟨l, ⟨hfault, hreaches, rfl, hsome⟩, -⟩
    exact ⟨hfault, hreaches, hsome⟩
  · rintro ⟨hfault, hreaches, hsome⟩
    exact ⟨_, ⟨hfault, hreaches, rfl, hsome⟩, hsome⟩

theorem place_of_rooted (h : IsNormal stack) (hroot : .root ∈ stack) :
    s.place stack = t.place stack := by
  induction h with
  | root => rfl
  | parents count => simp at hroot
  | name _ _ ih => exact congrArg (· ++ _) (ih (by simpa using hroot))

theorem reverse_eq_place (h : IsNormal stack) (hroot : .root ∈ stack) :
    stack.reverse = .root :: (s.place stack).map .name := by
  induction h with
  | root => rfl
  | parents count => simp at hroot
  | name _ _ ih => simp [ih (by simpa using hroot), place]

theorem locate_of_rooted (h : IsNormal (.name n :: stack)) (hroot : .root ∈ stack)
    (hs : s.locate (ofStack (.name n :: stack)) = .ok l) (ht : (t.kind? l).isSome = true) :
    t.locate (ofStack (.name n :: stack)) = .ok l := by
  have hroot' : .root ∈ .name n :: stack := List.mem_cons_of_mem _ hroot
  obtain ⟨hfault, hreaches, rfl, -⟩ := (locate_eq_ok_iff h).mp hs
  refine (locate_eq_ok_iff h).mpr
    ⟨hfault, ⟨hreaches.short, fun hparent => ?_⟩, place_of_rooted h hroot', ht⟩
  exact absurd hroot' (h.root_notMem_of_parent hparent)

theorem base_of_reaches (h : IsNormal stack) (hreaches : s.Reaches stack)
    (hkind : s.kind? (s.place stack) = some .directory) :
    s.kind? (s.base stack) = some .directory := by
  induction h with
  | root => exact hkind
  | parents count =>
    cases count with
    | zero => exact hkind
    | succ count => simpa [base] using hreaches.start (by simp)
  | @name n _ _ _ ih =>
    rw [base_cons (by simp)]
    exact ih (reaches_tail hreaches)
      (kind?_eq_directory_of_append (Option.isSome_of_eq_some hkind))

end Place

section Effects

structure Puts (s t : Store) (l : Location) (k : Kind) : Prop where
  workingDirectory : t.workingDirectory = s.workingDirectory
  kind? : ∀ m, t.kind? m = if m = l then some k else s.kind? m

structure Adds (s t : Store) (stack : List Component) : Prop where
  toExtends : s.Extends t
  start : t = s ∨ s.kind? (s.base stack) = some .directory

structure Grown (s t : Store) (stack : List Component) : Prop where
  workingDirectory : t.workingDirectory = s.workingDirectory
  kind? : ∀ m, t.kind? m = s.kind? m ∨
    (s.kind? m = none ∧ t.kind? m = some .directory ∧ m <+: s.place stack)
  start : t = s ∨ s.kind? (s.base stack) = some .directory

theorem place_congr (h : t.workingDirectory = s.workingDirectory) (stack : List Component) :
    t.place stack = s.place stack := by
  induction stack with
  | nil => exact h
  | cons c stack ih => cases c <;> simp [place, ih]

theorem base_congr (h : t.workingDirectory = s.workingDirectory) (stack : List Component) :
    t.base stack = s.base stack := by
  simp [base, h]

namespace Adds

theorem refl (s : Store) (stack : List Component) : s.Adds s stack :=
  ⟨.refl s, Or.inl rfl⟩

theorem trans (h : s.Adds t stack) (h' : t.Adds u stack) : s.Adds u stack where
  toExtends := h.toExtends.trans h'.toExtends
  start := by
    rcases h.start with rfl | hstart
    · exact h'.start
    · exact Or.inr hstart

theorem reaches (h : s.Adds t stack) (hnormal : IsNormal stack) (ht : t.Reaches stack) :
    s.Reaches stack := by
  refine ⟨ht.short, fun hparent => ?_⟩
  rcases h.start with rfl | hstart
  · exact ht.start hparent
  · simpa [base, hnormal.root_notMem_of_parent hparent] using hstart

end Adds

namespace Grown

theorem refl (s : Store) (stack : List Component) : s.Grown s stack :=
  ⟨rfl, fun _ => Or.inl rfl, Or.inl rfl⟩

theorem trans (h : s.Grown t stack) (h' : t.Grown u stack) : s.Grown u stack where
  workingDirectory := h'.workingDirectory.trans h.workingDirectory
  kind? m := by
    have hplace := place_congr h.workingDirectory stack
    rcases h'.kind? m with heq' | ⟨hnone, hnew, hle⟩
    · rw [heq']
      exact h.kind? m
    · rcases h.kind? m with heq | ⟨-, hnew', -⟩
      · exact Or.inr ⟨heq ▸ hnone, hnew, hplace ▸ hle⟩
      · simp [hnew'] at hnone
  start := by
    rcases h.start with rfl | hstart
    · exact h'.start
    · exact Or.inr hstart

theorem name (h : s.Grown t stack) (n : String) : s.Grown t (.name n :: stack) where
  workingDirectory := h.workingDirectory
  kind? m := by
    rcases h.kind? m with heq | ⟨hnone, hnew, hle⟩
    · exact Or.inl heq
    · exact Or.inr ⟨hnone, hnew, hle.trans (List.prefix_append _ _)⟩
  start := by
    rw [base_cons (by simp)]
    exact h.start

theorem toExtends (h : s.Grown t stack) : s.Extends t where
  workingDirectory := h.workingDirectory
  kept m k hk := by
    rcases h.kind? m with heq | ⟨hnone, -, -⟩
    · exact heq.trans hk
    · exact absurd (hnone.symm.trans hk) (by simp)

theorem toAdds (h : s.Grown t stack) : s.Adds t stack :=
  ⟨h.toExtends, h.start⟩

end Grown

theorem Puts.of_insert {e : Entry} (he : e.IsLeaf) {name : String}
    (hparent : s.kind? l = some .directory) (hold : s.kind? (l ++ [name]) ≠ some .directory) :
    s.Puts { s with root := e.insert (l ++ [name]) s.root } (l ++ [name]) e.kind :=
  ⟨rfl, fun m => Entry.kind_find?_insert he hparent hold m⟩

theorem create_eq_ok {p : Path} {e : Entry} (hok : s.create p e = .ok t) :
    ∃ l n, s.followAll p p.pieces.dropLast = .ok l ∧ p.pieces.getLast? = some n ∧ IsStep n ∧
      s.kind? l = some .directory ∧ t = { s with root := e.insert (l ++ [n]) s.root } := by
  unfold create at hok
  obtain ⟨l, hl, hok⟩ := bind_eq_ok_iff.mp hok
  split at hok
  · next n children hlast hfind =>
    split at hok
    · cases hok
    · next hstep =>
      cases hok
      exact ⟨l, n, hl, hlast, hstep, kind?_eq_directory_iff.mpr ⟨children, hfind⟩, rfl⟩
  · cases hok
  · cases hok

theorem follow_eq_notFound (hstep : IsStep n) (hl : s.kind? l = some .directory)
    (h : s.follow l n = .error .notFound) :
    n.utf8ByteSize ≤ nameLimit ∧ s.kind? (l ++ [n]) = none := by
  simp only [IsStep, not_or] at hstep
  obtain ⟨children, hfind⟩ := kind?_eq_directory_iff.mp hl
  simp only [follow, hfind, hstep, or_self, if_false] at h
  split at h
  · cases h
  · next hshort =>
    split at h
    · cases h
    · next hnone =>
      refine ⟨Nat.not_lt.mp hshort, ?_⟩
      rw [← Option.not_isSome_iff_eq_none, isSome_kind?_append_singleton hfind n]
      exact hnone

theorem followAll_eq {p : Path} (hlast : p.pieces.getLast? = some n) :
    s.followAll p p.pieces = s.followAll p p.pieces.dropLast >>= fun l => s.follow l n := by
  simp only [followAll]
  conv_lhs => rw [← List.dropLast_append_getLast? n hlast]
  simp [List.foldlM_append]

theorem create_after_notFound {p : Path} {e : Entry} (he : e.IsLeaf)
    (hwalk : s.followAll p p.pieces = .error .notFound) (hok : s.create p e = .ok t) :
    ∃ l n, s.followAll p p.pieces.dropLast = .ok l ∧ p.pieces.getLast? = some n ∧
      n.utf8ByteSize ≤ nameLimit ∧ s.kind? l = some .directory ∧ s.kind? (l ++ [n]) = none ∧
      s.Puts t (l ++ [n]) e.kind := by
  obtain ⟨l, n, hl, hlast, hstep, hkind, rfl⟩ := create_eq_ok hok
  rw [followAll_eq hlast, hl] at hwalk
  obtain ⟨hshort, hnone⟩ := follow_eq_notFound hstep hkind hwalk
  refine ⟨l, n, hl, hlast, hshort, hkind, hnone, .of_insert he hkind ?_⟩
  rw [hnone]
  simp

theorem followAll_dropLast_ofStack (h : IsNormal (.name n :: stack)) :
    s.followAll (ofStack (.name n :: stack)) (ofStack (.name n :: stack)).pieces.dropLast =
      s.walk stack := by
  simp [followAll, start_ofStack h, pieces_ofStack h, walk, base_cons]

theorem getLast?_pieces_ofStack (h : IsNormal (.name n :: stack)) :
    (ofStack (.name n :: stack)).pieces.getLast? = some n := by
  simp [pieces_ofStack h, Component.piece]

theorem create_in_place (h : IsNormal (.name n :: stack)) {e : Entry} (he : e.IsLeaf)
    (hwalk : s.walk (.name n :: stack) = .error .notFound)
    (hok : s.create (ofStack (.name n :: stack)) e = .ok t) :
    s.Reaches (.name n :: stack) ∧ s.kind? (s.place stack) = some .directory ∧
      s.kind? (s.place (.name n :: stack)) = none ∧
      s.Puts t (s.place (.name n :: stack)) e.kind := by
  rw [← followAll_ofStack h (by simp)] at hwalk
  obtain ⟨l, k, hl, hlast, hshort, hkind, hnone, hputs⟩ := create_after_notFound he hwalk hok
  obtain rfl : n = k := Option.some_inj.mp ((getLast?_pieces_ofStack h).symm.trans hlast)
  rw [followAll_dropLast_ofStack h] at hl
  obtain ⟨hreaches, rfl⟩ := (walk_eq_ok_iff h.tail hkind).mp hl
  exact ⟨reaches_name_iff.mpr ⟨hshort, hreaches⟩, hkind, hnone, hputs⟩

theorem makeDirectory_eq_ok (h : IsNormal (.name n :: stack))
    (hok : s.makeDirectory (ofStack (.name n :: stack)) = .ok t) :
    s.Reaches (.name n :: stack) ∧ s.kind? (s.place stack) = some .directory ∧
      s.kind? (s.place (.name n :: stack)) = none ∧
      s.Puts t (s.place (.name n :: stack)) .directory := by
  unfold makeDirectory at hok
  split at hok
  · cases hok
  · rw [followAll_ofStack h (by simp)] at hok
    split at hok
    · cases hok
    · next hwalk => exact create_in_place h Entry.isLeaf_empty hwalk hok
    · cases hok

theorem makeDirectory_ne_ok (h : IsNormal (c :: stack)) (hc : ∀ n, c ≠ .name n) :
    s.makeDirectory (ofStack (c :: stack)) ≠ .ok t := by
  have hlast : ∃ piece, (ofStack (c :: stack)).pieces.getLast? = some piece ∧ ¬IsStep piece := by
    cases c with
    | root =>
      obtain rfl := h.root_notMem_of_cons rfl
      exact ⟨"", by decide, not_not.mpr (Or.inl rfl)⟩
    | current => exact absurd List.mem_cons_self h.current_notMem
    | parent =>
      refine ⟨"..", ?_, not_not.mpr (Or.inr (Or.inr rfl))⟩
      simp [pieces_ofStack h, Component.piece]
    | name n => exact absurd rfl (hc n)
  obtain ⟨piece, hpiece, hstep⟩ := hlast
  intro hok
  unfold makeDirectory at hok
  split at hok
  · cases hok
  · split at hok
    · cases hok
    · obtain ⟨_, n, -, hlast, hn, -⟩ := create_eq_ok hok
      obtain rfl : piece = n := Option.some_inj.mp (hpiece.symm.trans hlast)
      exact hstep hn
    · cases hok

theorem grown_makeDirectory (h : IsNormal (.name n :: stack))
    (hok : s.makeDirectory (ofStack (.name n :: stack)) = .ok t) :
    s.Grown t (.name n :: stack) := by
  obtain ⟨hreaches, hkind, hnone, hputs⟩ := makeDirectory_eq_ok h hok
  refine ⟨hputs.workingDirectory, fun m => ?_, Or.inr ?_⟩
  · rw [hputs.kind?]
    split
    · next heq =>
      subst heq
      exact Or.inr ⟨hnone, rfl, List.prefix_refl _⟩
    · exact Or.inl rfl
  · rw [base_cons (by simp)]
    exact base_of_reaches h.tail (reaches_tail hreaches) hkind

theorem makeDirectories_of_noName (h : IsNormal stack) (hnone : ∀ n, .name n ∉ stack) :
    (s.makeDirectories stack).2 = s := by
  induction stack with
  | nil => rfl
  | cons c stack ih =>
    have hne (t : Store) : s.makeDirectory (ofComponents (c :: stack).reverse) ≠ .ok t :=
      makeDirectory_ne_ok h fun n hc => hnone n (hc ▸ List.mem_cons_self)
    have habove := ih h.tail fun n hn => hnone n (List.mem_cons_of_mem c hn)
    unfold makeDirectories
    simp only
    split
    · next t hok => exact absurd hok (hne t)
    · split
      · next e t heq => simpa [heq] using habove
      · next t heq =>
        obtain rfl : t = s := by simpa [heq] using habove
        split
        · next u hok => exact absurd hok (hne u)
        · rfl
    · rfl

theorem grown_makeDirectories (h : IsNormal stack) :
    s.Grown (s.makeDirectories stack).2 stack := by
  induction h generalizing s with
  | root =>
    rw [makeDirectories_of_noName .root (by simp)]
    exact .refl s _
  | parents count =>
    rw [makeDirectories_of_noName (.parents count) (by simp)]
    exact .refl s _
  | @name n stack hname hstack ih =>
    have h : IsNormal (.name n :: stack) := .name hname hstack
    -- After a first failure the directories above are made and the attempt is repeated.
    unfold makeDirectories
    simp only
    split
    · next t hok => exact grown_makeDirectory h hok
    · have habove := ih (s := s)
      split
      · next e t heq => exact (heq ▸ habove).name n
      · next t heq =>
        have ht : s.Grown t (.name n :: stack) := (heq ▸ habove).name n
        split
        · next u hok => exact ht.trans (grown_makeDirectory h hok)
        · exact ht
    · exact .refl s _

end Effects

section Save

theorem write_eq_ok {p : Path} (hlast : p.pieces.getLast? = some n) (hstep : IsStep n)
    {contents : Bytes} (hok : s.write p contents = .ok t) :
    textFault p = none ∧ ∃ l, s.followAll p p.pieces.dropLast = .ok l ∧
      n.utf8ByteSize ≤ nameLimit ∧ s.kind? l = some .directory ∧
      s.kind? (l ++ [n]) ≠ some .directory ∧ s.Puts t (l ++ [n]) (.file contents) := by
  have hfile : asksForDirectory p = false := by
    have hne : n ≠ "" := fun hempty => hstep (Or.inl hempty)
    simp [asksForDirectory, hlast, hne]
  unfold write at hok
  split at hok
  · cases hok
  · next hfault =>
    simp only [hfile, Bool.false_eq_true, if_false] at hok
    refine ⟨hfault, ?_⟩
    split at hok
    · next m hm =>
      rw [followAll_eq hlast] at hm
      obtain ⟨l, hl, hfollow⟩ := bind_eq_ok_iff.mp hm
      obtain ⟨rfl, hshort, hsome⟩ := (follow_eq_ok_iff hstep).mp hfollow
      have hparent := kind?_eq_directory_of_append hsome
      split at hok
      · cases hok
      · next hnot =>
        cases hok
        have hold : s.kind? (l ++ [n]) ≠ some .directory := fun hkind =>
          let ⟨children, hfind⟩ := kind?_eq_directory_iff.mp hkind
          hnot children hfind
        exact ⟨l, hl, hshort, hparent, hold, .of_insert (Entry.isLeaf_file contents) hparent hold⟩
    · next hwalk =>
      obtain ⟨l, k, hl, hk, hshort, hparent, hnone, hputs⟩ :=
        create_after_notFound (Entry.isLeaf_file contents) hwalk hok
      obtain rfl : n = k := Option.some_inj.mp (hlast.symm.trans hk)
      exact ⟨l, hl, hshort, hparent, by simp [hnone], hputs⟩
    · cases hok

theorem write_in_place (h : IsNormal (.name n :: stack)) {contents : Bytes}
    (hok : s.write (ofStack (.name n :: stack)) contents = .ok t) :
    textFault (ofStack (.name n :: stack)) = none ∧ s.Reaches (.name n :: stack) ∧
      s.kind? (s.place stack) = some .directory ∧
      s.kind? (s.place (.name n :: stack)) ≠ some .directory ∧
      s.Puts t (s.place (.name n :: stack)) (.file contents) := by
  obtain ⟨hfault, l, hl, hshort, hparent, hold, hputs⟩ :=
    write_eq_ok (getLast?_pieces_ofStack h) (h.isName List.mem_cons_self).isStep hok
  rw [followAll_dropLast_ofStack h] at hl
  obtain ⟨hreaches, rfl⟩ := (walk_eq_ok_iff h.tail hparent).mp hl
  exact ⟨hfault, reaches_name_iff.mpr ⟨hshort, hreaches⟩, hparent, hold, hputs⟩

/-- What saving a file does: it keeps what is there, fails on the way, or writes. -/
inductive Saved (s : Store) (n : String) (stack : List Component) (text : String) (force : Bool) :
    Except FileError Bool → Store → Prop
  | kept (hforce : force = false) (hthere : s.contains (ofStack (.name n :: stack)) = true) :
      Saved s n stack text force (.ok false) s
  | failed {t : Store} (cause : FileError) (hgrown : s.Grown t stack) :
      Saved s n stack text force (.error cause) t
  | written {t u : Store}
      (hforce : s.contains (ofStack (.name n :: stack)) = true → force = true)
      (hgrown : s.Grown t stack) (hfault : textFault (ofStack (.name n :: stack)) = none)
      (hreaches : t.Reaches (.name n :: stack))
      (hparent : t.kind? (t.place stack) = some .directory)
      (hold : t.kind? (t.place (.name n :: stack)) ≠ some .directory)
      (hputs : t.Puts u (t.place (.name n :: stack)) (.file (Text.encodeUtf8 text))) :
      Saved s n stack text force (.ok true) u

theorem saved_save (h : IsNormal (.name n :: stack)) (text : String) (force : Bool) :
    s.Saved n stack text force (s.save (ofStack (.name n :: stack)) text force).1
      (s.save (ofStack (.name n :: stack)) text force).2 := by
  have hdirectories : s.makeDirectoriesAbove (ofStack (.name n :: stack)) =
      s.makeDirectories stack := by
    simp [makeDirectoriesAbove, parent?_ofStack h, components_ofStack h.tail]
  have hgrown := grown_makeDirectories (s := s) h.tail
  unfold save
  rw [hdirectories]
  split
  · next hkept => exact .kept hkept.2 hkept.1
  · next hnot =>
    split
    · next cause t heq => exact .failed cause (by simpa [heq] using hgrown)
    · next t heq =>
      have ht : s.Grown t stack := by simpa [heq] using hgrown
      split
      · next cause _ => exact .failed cause ht
      · next u hok =>
        obtain ⟨hfault, hreaches, hparent, hold, hputs⟩ := write_in_place h hok
        refine .written (fun hthere => ?_) ht hfault hreaches hparent hold hputs
        simpa using fun hforce => hnot ⟨hthere, hforce⟩

namespace Saved

variable {text : String} {force : Bool} {result : Except FileError Bool}

theorem workingDirectory (h : s.Saved n stack text force result u) :
    u.workingDirectory = s.workingDirectory := by
  cases h with
  | kept => rfl
  | failed cause hgrown => exact hgrown.workingDirectory
  | written _ hgrown _ _ _ _ hputs => exact hputs.workingDirectory.trans hgrown.workingDirectory

theorem kept_elsewhere (h : s.Saved n stack text force result u)
    (hm : m ≠ s.place (.name n :: stack)) {k : Kind} (hk : s.kind? m = some k) :
    u.kind? m = some k := by
  cases h with
  | kept => exact hk
  | failed cause hgrown => exact hgrown.toExtends.kept m k hk
  | written _ hgrown _ _ _ _ hputs =>
    rw [hputs.kind?, place_congr hgrown.workingDirectory, if_neg hm]
    exact hgrown.toExtends.kept m k hk

theorem new_cases (h : s.Saved n stack text force result u) :
    u.kind? m = s.kind? m ∨ m = s.place (.name n :: stack) ∨
      (u.kind? m = some .directory ∧ m <+: s.place stack) := by
  cases h with
  | kept => exact Or.inl rfl
  | failed cause hgrown =>
    rcases hgrown.kind? m with heq | ⟨-, hnew, hle⟩
    · exact Or.inl heq
    · exact Or.inr (Or.inr ⟨hnew, hle⟩)
  | written _ hgrown _ _ _ _ hputs =>
    by_cases hm : m = s.place (.name n :: stack)
    · exact Or.inr (Or.inl hm)
    · rw [hputs.kind?, place_congr hgrown.workingDirectory, if_neg hm]
      rcases hgrown.kind? m with heq | ⟨-, hnew, hle⟩
      · exact Or.inl heq
      · exact Or.inr (Or.inr ⟨hnew, hle⟩)

theorem adds_of_absent {b : Store} (h : s.Saved n stack text force result u)
    (hnormal : IsNormal (.name n :: stack)) (hb : b.Adds s stack)
    (habsent : textFault (ofStack (.name n :: stack)) = none → b.Reaches (.name n :: stack) →
      b.kind? (b.place (.name n :: stack)) = none) : b.Adds u stack := by
  cases h with
  | kept => exact hb
  | failed cause hgrown => exact hb.trans hgrown.toAdds
  | @written t _ _ hgrown hfault hreaches hparent _ hputs =>
    have ht : b.Adds t stack := hb.trans hgrown.toAdds
    have hbreaches : b.Reaches (.name n :: stack) := by
      obtain ⟨hshort, htail⟩ := reaches_name_iff.mp hreaches
      exact reaches_name_iff.mpr ⟨hshort, ht.reaches hnormal.tail htail⟩
    have hnone := habsent hfault hbreaches
    have hplace := place_congr ht.toExtends.workingDirectory (.name n :: stack)
    refine ⟨⟨hputs.workingDirectory.trans ht.toExtends.workingDirectory, fun m k hk => ?_⟩, ?_⟩
    · have hm : m ≠ b.place (.name n :: stack) := by
        rintro rfl
        exact absurd (hnone.symm.trans hk) (by simp)
      have hput := hputs.kind? m
      rw [hplace, if_neg hm] at hput
      exact hput.trans (ht.toExtends.kept m k hk)
    · have hstart := base_of_reaches hnormal.tail (reaches_tail hreaches) hparent
      rw [base_congr ht.toExtends.workingDirectory] at hstart
      rcases ht.start with rfl | hb
      · exact Or.inr hstart
      · exact Or.inr hb

theorem adds (h : s.Saved n stack text false result u) (hnormal : IsNormal (.name n :: stack)) :
    s.Adds u stack := by
  cases h with
  | kept => exact .refl s stack
  | failed cause hgrown => exact hgrown.toAdds
  | written hforce hgrown hfault hreaches hparent hold hputs =>
    have hsaved : s.Saved n stack text false (.ok true) u :=
      .written hforce hgrown hfault hreaches hparent hold hputs
    refine hsaved.adds_of_absent hnormal (.refl s stack) fun hfault hreaches => ?_
    rw [← Option.not_isSome_iff_eq_none]
    intro hsome
    have hthere := (contains_ofStack_iff hnormal).mpr ⟨hfault, hreaches, hsome⟩
    exact absurd (hforce hthere) (by simp)

theorem reads (h : s.Saved n stack text force (.ok true) u)
    (hnormal : IsNormal (.name n :: stack)) :
    u.read (ofStack (.name n :: stack)) = .ok (Text.encodeUtf8 text) := by
  cases h with
  | @written t _ _ hgrown hfault hreaches hparent hold hputs =>
    have hplace := place_congr hputs.workingDirectory (.name n :: stack)
    have hfile : u.kind? (u.place (.name n :: stack)) = some (.file (Text.encodeUtf8 text)) := by
      rw [hplace, hputs.kind?, if_pos rfl]
    refine read_eq_ok_iff.mpr ⟨_, (locate_eq_ok_iff hnormal).mpr
      ⟨hfault, ⟨hreaches.short, fun hp => ?_⟩, rfl, Option.isSome_of_eq_some hfile⟩, hfile⟩
    have hstart := hreaches.start hp
    have hne : u.workingDirectory ≠ t.place (.name n :: stack) := by
      rw [hputs.workingDirectory]
      intro heq
      exact hold (heq ▸ hstart)
    rw [hputs.kind?, if_neg hne, hputs.workingDirectory]
    exact hstart

theorem contains {written : Bool} (h : s.Saved n stack text force (.ok written) u)
    (hnormal : IsNormal (.name n :: stack)) :
    u.contains (ofStack (.name n :: stack)) = true := by
  cases h with
  | kept _ hthere => exact hthere
  | written hforce hgrown hfault hreaches hparent hold hputs =>
    have hread := reads (.written hforce hgrown hfault hreaches hparent hold hputs) hnormal
    obtain ⟨l, hlocate, hkind⟩ := read_eq_ok_iff.mp hread
    exact contains_iff.mpr ⟨l, hlocate, Option.isSome_of_eq_some hkind⟩

end Saved

end Save

end SeaChart.Store
