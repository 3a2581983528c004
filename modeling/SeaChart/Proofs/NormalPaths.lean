import Mathlib.Data.List.Basic
import SeaChart.Proofs.FileTree
import SeaChart.Settings.Reader

/-!
Normal paths: names over the root or over steps to the parent. Their components stand in a stack,
the last one first, and the text of a path and its stack determine each other.
-/

namespace SeaChart

namespace Path

structure IsName (name : String) : Prop where
  isStep : Store.IsStep name
  noSlash : '/' ∉ name.toList

instance (name : String) : Decidable (IsName name) :=
  decidable_of_iff (Store.IsStep name ∧ '/' ∉ name.toList)
    ⟨fun ⟨h, h'⟩ => ⟨h, h'⟩, fun h => ⟨h.isStep, h.noSlash⟩⟩

def Component.piece : Component → String
  | .root => ""
  | .current => "."
  | .parent => ".."
  | .name n => n

def ofStack (stack : List Component) : Path :=
  ofComponents stack.reverse

inductive IsNormal : List Component → Prop
  | root : IsNormal [.root]
  | parents (count : Nat) : IsNormal (List.replicate count .parent)
  | name {n : String} {stack : List Component} :
      IsName n → IsNormal stack → IsNormal (.name n :: stack)

variable {stack : List Component} {c : Component} {n : String}

namespace IsNormal

theorem nil : IsNormal [] :=
  .parents 0

theorem isName (h : IsNormal stack) (hn : .name n ∈ stack) : IsName n := by
  induction h with
  | root => simp at hn
  | parents count => simp at hn
  | name hname _ ih =>
    rcases List.mem_cons.mp hn with heq | hn
    · cases heq
      exact hname
    · exact ih hn

theorem current_notMem (h : IsNormal stack) : .current ∉ stack := by
  induction h with
  | root => simp
  | parents count => simp
  | name _ _ ih => simpa using ih

theorem tail (h : IsNormal (c :: stack)) : IsNormal stack := by
  generalize hcs : c :: stack = cs at h
  cases h with
  | root =>
    cases hcs
    exact nil
  | parents count =>
    cases count with
    | zero => cases hcs
    | succ count =>
      cases hcs
      exact .parents count
  | name _ h =>
    cases hcs
    exact h

theorem root_notMem_of_cons (h : IsNormal (c :: stack)) (hc : c = .root) : stack = [] := by
  subst hc
  generalize hcs : Component.root :: stack = cs at h
  cases h with
  | root => simpa using hcs
  | parents count => cases count <;> cases hcs
  | name _ _ => cases hcs

theorem root_notMem_of_parent (h : IsNormal stack) (hparent : .parent ∈ stack) :
    .root ∉ stack := by
  induction h with
  | root => simp at hparent
  | parents count => simp
  | name _ _ ih => simpa using ih (by simpa using hparent)

theorem reverse_cases (h : IsNormal stack) :
    (∃ rest, stack.reverse = .root :: rest ∧ .root ∉ rest) ∨ .root ∉ stack := by
  induction h with
  | root => exact Or.inl ⟨[], rfl, by simp⟩
  | parents count => exact Or.inr (by simp)
  | @name n _ _ _ ih =>
    rcases ih with ⟨rest, heq, hrest⟩ | hroot
    · refine Or.inl ⟨rest ++ [.name n], ?_, ?_⟩
      · simp [heq]
      · simp [hrest]
    · exact Or.inr (by simpa using hroot)

theorem noSlash (h : IsNormal stack) (hc : c ∈ stack) : '/' ∉ c.piece.toList := by
  cases c with
  | root => simp [Component.piece]
  | current => simp [Component.piece]
  | parent => simp [Component.piece]
  | name n => exact (h.isName hc).noSlash

theorem eq_root_of_piece (h : IsNormal stack) (hc : c ∈ stack) (hpiece : c.piece = "") :
    c = .root := by
  cases c with
  | root => rfl
  | current => exact absurd hpiece (by decide)
  | parent => exact absurd hpiece (by decide)
  | name n => exact absurd (Or.inl hpiece) (h.isName hc).isStep

theorem piece_ne_dot (h : IsNormal stack) (hc : c ∈ stack) : c.piece ≠ "." := by
  cases c with
  | root => decide
  | current => exact absurd hc h.current_notMem
  | parent => decide
  | name n => exact fun hpiece => (h.isName hc).isStep (Or.inr (Or.inl hpiece))

end IsNormal

section Pieces

theorem pieces_of_noSlash (h : '/' ∉ n.toList) : (Path.mk n).pieces = [n] := by
  simp [pieces, List.splitOn_eq_singleton h]

theorem pieces_append (a b : String) :
    (Path.mk (a ++ "/" ++ b)).pieces = (Path.mk a).pieces ++ (Path.mk b).pieces := by
  have hlist : (a ++ "/" ++ b).toList = a.toList ++ '/' :: b.toList := by simp
  rw [pieces, hlist, List.splitOn_append_cons_self, List.map_append]
  rfl

theorem pieces_slash (text : String) :
    (Path.mk (text ++ "/")).pieces = (Path.mk text).pieces ++ [""] := by
  have hpieces := pieces_append text ""
  rwa [String.append_empty] at hpieces

theorem isAbsolute_append {text : String} (h : text ≠ "") (rest : String) :
    (Path.mk (text ++ rest)).isAbsolute = (Path.mk text).isAbsolute := by
  have hne : text.toList ≠ [] := fun hnil => h (String.toList_inj.mp hnil)
  simp only [isAbsolute, String.toList_append, List.head?_append_of_ne_nil _ hne]

theorem isAbsolute_iff {p : Path} :
    p.isAbsolute = true ↔ ∃ piece rest, p.pieces = "" :: piece :: rest := by
  unfold isAbsolute pieces
  cases htext : p.text.toList with
  | nil => simp
  | cons c cs =>
    rw [List.splitOn_cons_eq_if_modifyHead]
    obtain ⟨first, rest, hsplit⟩ := List.exists_cons_of_ne_nil (List.splitOn_ne_nil '/' cs)
    by_cases hc : c = '/'
    · simp [hc, hsplit]
    · simp [hc, hsplit]

def lead : List Component → String
  | [] => ""
  | c :: stack => lead stack ++ c.piece ++ "/"

theorem pieces_lead_append (h : IsNormal stack) (text : String) :
    (Path.mk (lead stack ++ text)).pieces =
      stack.reverse.map Component.piece ++ (Path.mk text).pieces := by
  induction stack generalizing text with
  | nil => simp [lead]
  | cons c stack ih =>
    have hc := h.noSlash List.mem_cons_self
    have htext : lead (c :: stack) ++ text = lead stack ++ (c.piece ++ "/" ++ text) := by
      simp [lead, String.append_assoc]
    rw [htext, ih h.tail, pieces_append, pieces_of_noSlash hc]
    simp

theorem lead_append (xs : List Component) (c : Component) :
    lead (xs ++ [c]) = c.piece ++ "/" ++ lead xs := by
  induction xs with
  | nil => simp [lead]
  | cons x xs ih => simp [lead, ih, String.append_assoc]

theorem text_eq_piece (h : c ≠ .root) : c.text = c.piece := by
  cases c with
  | root => exact absurd rfl h
  | current => rfl
  | parent => rfl
  | name n => rfl

theorem intercalate_text (h : .root ∉ stack) (hc : c ≠ .root) :
    String.intercalate "/" ((c :: stack).reverse.map Component.text) = lead stack ++ c.piece := by
  induction stack generalizing c with
  | nil => simp [lead, text_eq_piece hc]
  | cons d stack ih =>
    have hd : d ≠ .root := fun hd => h (hd ▸ List.mem_cons_self)
    rw [List.reverse_cons, List.map_append,
      String.intercalate_append_of_ne_nil (by simp) (by simp),
      ih (fun hroot => h (List.mem_cons_of_mem d hroot)) hd]
    simp [lead, text_eq_piece hc]

theorem text_ofStack (h : IsNormal (c :: stack)) (hc : c ≠ .root) :
    (ofStack (c :: stack)).text = lead stack ++ c.piece := by
  have hstack : IsNormal stack := h.tail
  unfold ofStack
  rcases hstack.reverse_cases with ⟨rest, heq, hrest⟩ | hroot
  · have hrev : stack = rest.reverse ++ [.root] := by
      rw [← List.reverse_reverse stack, heq, List.reverse_cons]
    have hbottom : (c :: stack).reverse = .root :: (c :: rest.reverse).reverse := by
      simp [hrev]
    rw [hbottom, hrev, lead_append]
    simp only [ofComponents]
    rw [intercalate_text (by simpa using hrest) hc]
    simp [Component.piece, String.append_assoc]
  · have hne : ∀ rest, (c :: stack).reverse ≠ .root :: rest := by
      intro rest heq
      have hmem : .root ∈ (c :: stack).reverse := heq ▸ List.mem_cons_self
      simp [hroot, hc.symm] at hmem
    unfold ofComponents
    split
    · next rest heq => exact absurd heq (hne rest)
    · exact intercalate_text hroot hc

theorem pieces_ofStack (h : IsNormal (c :: stack)) (hc : c ≠ .root) :
    (ofStack (c :: stack)).pieces = (c :: stack).reverse.map Component.piece := by
  have hpath : ofStack (c :: stack) = ⟨lead stack ++ c.piece⟩ :=
    congrArg Path.mk (text_ofStack h hc)
  rw [hpath, pieces_lead_append h.tail, pieces_of_noSlash (h.noSlash List.mem_cons_self)]
  simp

end Pieces

section Parts

theorem isAbsolute_ofStack (h : IsNormal stack) :
    (ofStack stack).isAbsolute = true ↔ .root ∈ stack := by
  cases stack with
  | nil => simp [ofStack, ofComponents, isAbsolute]
  | cons c stack =>
    by_cases hc : c = .root
    · obtain rfl := h.root_notMem_of_cons hc
      simp [hc, ofStack, ofComponents, isAbsolute]
    · rw [isAbsolute_iff, pieces_ofStack h hc]
      constructor
      · rintro ⟨piece, rest, heq⟩
        obtain ⟨d, ds, hds, hd, -⟩ := List.map_eq_cons_iff.mp heq
        have hmem : d ∈ c :: stack := by
          rw [← List.mem_reverse, hds]
          exact List.mem_cons_self
        exact h.eq_root_of_piece hmem hd ▸ hmem
      · intro hroot
        rcases h.reverse_cases with ⟨rest, heq, -⟩ | hnot
        · cases rest with
          | nil =>
            simp only [List.reverse_eq_cons_iff, List.reverse_nil, List.nil_append,
              List.cons.injEq] at heq
            exact absurd heq.1 hc
          | cons d ds => exact ⟨d.piece, ds.map Component.piece, by simp [heq, Component.piece]⟩
        · exact absurd hroot hnot

theorem ofPiece?_piece (hc : c ≠ .root) (hcurrent : c ≠ .current)
    (hname : ∀ n, c = .name n → IsName n) : ofPiece? c.piece = some c := by
  cases c with
  | root => exact absurd rfl hc
  | current => exact absurd rfl hcurrent
  | parent => rfl
  | name n =>
    have hstep := (hname n rfl).isStep
    simp only [Store.IsStep, not_or] at hstep
    simp [ofPiece?, Component.piece, hstep]

theorem filterMap_ofPiece? {cs : List Component} (h : IsNormal stack) (hsub : cs ⊆ stack)
    (hroot : .root ∉ cs) : (cs.map Component.piece).filterMap ofPiece? = cs := by
  induction cs with
  | nil => rfl
  | cons c cs ih =>
    obtain ⟨hc, hcs⟩ := List.cons_subset.mp hsub
    have hpiece : ofPiece? c.piece = some c :=
      ofPiece?_piece (List.ne_of_not_mem_cons hroot).symm
        (fun heq => h.current_notMem (heq ▸ hc)) (fun n heq => h.isName (heq ▸ hc))
    simp [hpiece, ih hcs (List.not_mem_of_not_mem_cons hroot)]

theorem components_ofStack (h : IsNormal stack) : (ofStack stack).components = stack.reverse := by
  cases stack with
  | nil => decide
  | cons c cs =>
    by_cases hc : c = .root
    · obtain rfl := h.root_notMem_of_cons hc
      subst hc
      decide
    · unfold components
      rw [pieces_ofStack h hc]
      rcases h.reverse_cases with ⟨rest, heq, hrest⟩ | hroot
      · have habsolute : (ofStack (c :: cs)).isAbsolute = true := by
          rw [isAbsolute_ofStack h, ← List.mem_reverse, heq]
          exact List.mem_cons_self
        have hsub : rest ⊆ c :: cs := fun d hd => by
          rw [← List.mem_reverse, heq]
          exact List.mem_cons_of_mem _ hd
        simp [habsolute, heq, Component.piece, ofPiece?, filterMap_ofPiece? h hsub hrest]
      · have hrelative : (ofStack (c :: cs)).isAbsolute = false := by
          rw [← Bool.not_eq_true, isAbsolute_ofStack h]
          exact hroot
        have hhead : ((c :: cs).reverse.map Component.piece).head? ≠ some "." := by
          intro hdot
          obtain ⟨d, hd, hpiece⟩ := List.mem_map.mp (List.mem_of_mem_head? hdot)
          exact h.piece_ne_dot (List.mem_reverse.mp hd) hpiece
        have hsub : (c :: cs).reverse ⊆ c :: cs := fun d hd => List.mem_reverse.mp hd
        simp only [hrelative, hhead, if_false, Bool.false_eq_true]
        exact filterMap_ofPiece? h hsub (fun hmem => hroot (List.mem_reverse.mp hmem))

theorem parent?_ofStack (h : IsNormal (.name n :: stack)) :
    (ofStack (.name n :: stack)).parent? = some (ofStack stack) := by
  unfold parent?
  rw [components_ofStack h]
  simp [ofStack]

theorem below_eq (h : IsNormal stack) {text : String} (htext : (Path.mk text).isAbsolute = false) :
    (ofStack stack).below text = ⟨lead stack ++ text⟩ := by
  simp only [below, join, htext, Bool.false_eq_true, if_false]
  cases stack with
  | nil => simp [ofStack, ofComponents, lead]
  | cons c stack =>
    by_cases hc : c = .root
    · obtain rfl := h.root_notMem_of_cons hc
      simp [hc, ofStack, ofComponents, lead, Component.piece]
    · have hpiece : c.piece.toList ≠ [] := fun hnil =>
        hc (h.eq_root_of_piece List.mem_cons_self (String.toList_inj.mp hnil))
      have hlast : (lead stack ++ c.piece).toList.getLast? ≠ some '/' := by
        rw [String.toList_append, List.getLast?_append_of_ne_nil _ hpiece]
        exact fun hslash => h.noSlash List.mem_cons_self (List.mem_of_getLast? hslash)
      have hfilled : lead stack ++ c.piece ≠ "" := by
        rw [← String.toList_inj.ne, String.toList_append]
        simp [hpiece]
      simp only [text_ofStack h hc, hfilled, hlast, or_self, if_false, lead]

theorem IsName.isAbsolute (hn : IsName n) : (Path.mk n).isAbsolute = false := by
  rw [← Bool.not_eq_true, isAbsolute_iff, pieces_of_noSlash hn.noSlash]
  simp

theorem IsName.isAbsolute_slash (hn : IsName n) (rest : String) :
    (Path.mk (n ++ "/" ++ rest)).isAbsolute = false := by
  rw [← Bool.not_eq_true, isAbsolute_iff, pieces_append, pieces_of_noSlash hn.noSlash]
  rintro ⟨piece, others, heq⟩
  exact hn.isStep (Or.inl (List.cons.inj heq).1)

theorem below_ofStack (h : IsNormal stack) (hn : IsName n) :
    (ofStack stack).below n = ofStack (.name n :: stack) := by
  rw [below_eq h hn.isAbsolute]
  exact congrArg Path.mk (text_ofStack (.name hn h) (by simp)).symm

theorem below_slash (h : IsNormal stack) (hn : IsName n) {rest : String}
    (hrest : (Path.mk rest).isAbsolute = false) :
    (ofStack stack).below (n ++ "/" ++ rest) = (ofStack (.name n :: stack)).below rest := by
  rw [below_eq h (hn.isAbsolute_slash rest), below_eq (.name hn h) hrest]
  simp [lead, Component.piece, String.append_assoc]

end Parts

section Normalize

theorem isName_of_mem_components {p : Path} (h : .name n ∈ p.components) : IsName n := by
  have hinner : .name n ∈ p.pieces.filterMap ofPiece? := by
    unfold components at h
    split at h
    · simpa using h
    · split at h
      · simpa using h
      · exact h
  obtain ⟨piece, hpiece, hof⟩ := List.mem_filterMap.mp hinner
  obtain ⟨chars, hchars, rfl⟩ := List.mem_map.mp hpiece
  unfold ofPiece? at hof
  split at hof
  · cases hof
  · next hdot =>
    split at hof
    · cases hof
    · next hdots =>
      cases hof
      refine ⟨fun hstep => ?_, by simpa using Text.notMem_of_mem_splitOn hchars⟩
      rcases hstep with h | h | h
      · exact hdot (Or.inl h)
      · exact hdot (Or.inr h)
      · exact hdots h

theorem IsNormal.push (h : IsNormal stack) (hc : ∀ n, c = .name n → IsName n) :
    IsNormal (push stack c) := by
  cases c with
  | root => exact .root
  | current => exact h
  | name n => exact .name (hc n rfl) h
  | parent =>
    cases h with
    | root => exact .root
    | parents count =>
      cases count with
      | zero => exact .parents 1
      | succ count => exact .parents (count + 2)
    | name _ h => exact h

theorem IsNormal.foldl_push {cs : List Component} (h : IsNormal stack)
    (hcs : ∀ n, .name n ∈ cs → IsName n) : IsNormal (cs.foldl Path.push stack) := by
  induction cs generalizing stack with
  | nil => exact h
  | cons c cs ih =>
    exact ih (h.push fun n heq => hcs n (heq ▸ List.mem_cons_self))
      fun n hn => hcs n (List.mem_cons_of_mem c hn)

theorem root_mem_push (h : .root ∈ stack) (c : Component) : .root ∈ push stack c := by
  cases c with
  | root => exact List.mem_cons_self
  | current => exact h
  | name n => exact List.mem_cons_of_mem _ h
  | parent =>
    cases stack with
    | nil => cases h
    | cons d stack =>
      cases d with
      | root => exact h
      | name n => simpa [push] using h
      | current => exact List.mem_cons_of_mem _ h
      | parent => exact List.mem_cons_of_mem _ h

theorem root_mem_foldl_push {cs : List Component} (h : .root ∈ stack) :
    .root ∈ cs.foldl push stack := by
  induction cs generalizing stack with
  | nil => exact h
  | cons c cs ih => exact ih (root_mem_push h c)

theorem exists_normalize (p : Path) :
    ∃ stack, IsNormal stack ∧ p.normalize = ofStack stack ∧
      (p.isAbsolute = true → .root ∈ stack) := by
  refine ⟨p.components.foldl push [], .foldl_push .nil fun n => isName_of_mem_components, rfl, ?_⟩
  intro habsolute
  unfold components
  simp only [habsolute, if_true, List.foldl_cons]
  exact root_mem_foldl_push List.mem_cons_self

theorem isAbsolute_join {base : Path} (h : base.isAbsolute = true) (p : Path) :
    (base.join p).isAbsolute = true := by
  obtain ⟨text⟩ := base
  have hfilled : text ≠ "" := by
    rintro rfl
    cases h
  have hhead (rest : String) : (Path.mk (text ++ rest)).isAbsolute = true :=
    (isAbsolute_append hfilled rest).trans h
  unfold join
  split
  · next habsolute => exact habsolute
  · split
    · exact hhead p.text
    · rw [String.append_assoc]
      exact hhead _

theorem exists_relativeTo {base : Path} (h : base.isAbsolute = true) (p : Path) :
    ∃ stack, IsNormal stack ∧ .root ∈ stack ∧ base.relativeTo p = ofStack stack := by
  obtain ⟨stack, hnormal, heq, hroot⟩ := exists_normalize (base.join p)
  exact ⟨stack, hnormal, hroot (isAbsolute_join h p), heq⟩

theorem isName_rules : IsName "rules" := by
  decide +kernel

theorem exists_endingIn (h : IsNormal stack) (hn : IsName n) :
    ∃ other, IsNormal (.name n :: other) ∧
      (ofStack stack).endingIn n = ofStack (.name n :: other) := by
  unfold endingIn
  split
  · next hfile =>
    rw [fileName?, components_ofStack h, List.getLast?_reverse] at hfile
    cases stack with
    | nil => cases hfile
    | cons c stack =>
      cases c with
      | name m =>
        cases hfile
        exact ⟨stack, h, rfl⟩
      | _ => cases hfile
  · exact ⟨stack, .name hn h, below_ofStack h hn⟩

end Normalize

end Path

structure Places.AreNormal (places : Places) : Prop where
  data : ∃ stack, Path.IsNormal stack ∧ .root ∈ stack ∧ places.data = .ofStack stack
  map : ∃ stack, Path.IsNormal stack ∧ .root ∈ stack ∧ places.map = .ofStack stack
  ruleSet : ∃ stack, Path.IsNormal stack ∧ places.ruleSet = .ofStack stack

namespace Settings

open SeaChart.Path

theorem exists_ruleSet (w : WrittenSettings) (data base resources : Path) :
    ∃ stack, IsNormal (.name "rules" :: stack) ∧
      (placesOf w data base resources.normalize).ruleSet = ofStack (.name "rules" :: stack) := by
  cases hrules : w.ruleSet with
  | some p =>
    obtain ⟨stack, hnormal, heq, -⟩ := exists_normalize (base.join p)
    simpa [placesOf, hrules, relativeTo, heq] using exists_endingIn hnormal isName_rules
  | none =>
    obtain ⟨stack, hnormal, heq, -⟩ := exists_normalize resources
    simpa [placesOf, hrules, heq] using exists_endingIn hnormal isName_rules

theorem areNormal_placesOf (w : WrittenSettings) (data : Path) {base : Path} (resources : Path)
    (h : base.isAbsolute = true) :
    (placesOf w (base.relativeTo data) base resources.normalize).AreNormal where
  data := exists_relativeTo h data
  map := by
    cases hmap : w.map with
    | some p => simpa [placesOf, hmap] using exists_relativeTo h p
    | none =>
      obtain ⟨stack, hnormal, hroot, heq⟩ := exists_relativeTo h data
      have hbelow : ((ofStack stack).below "../map").isAbsolute = true :=
        isAbsolute_join ((isAbsolute_ofStack hnormal).mpr hroot) _
      obtain ⟨other, hother, hnormalize, hroot'⟩ :=
        exists_normalize ((ofStack stack).below "../map")
      exact ⟨other, hother, hroot' hbelow, by simp [placesOf, hmap, heq, hnormalize]⟩
  ruleSet := by
    obtain ⟨stack, hnormal, heq⟩ := exists_ruleSet w (base.relativeTo data) base resources
    exact ⟨_, hnormal, heq⟩

theorem exists_placesOf {text : String} {base resources : Path} {isFile : Path → Bool}
    {settings : Settings} (h : (ofText text base resources isFile).1 = .ok settings) :
    ∃ w data, settings.places = placesOf w (base.relativeTo data) base resources.normalize := by
  unfold ofText at h
  split at h
  · cases h
  · next w _ =>
    split at h
    · cases h
    · next data _ =>
      dsimp only at h
      cases htopmarks : (w.topmarks.map readTopmarks).getD (.ok .rigid) with
      | error e => simp [htopmarks, Except.map] at h
      | ok topmarks =>
        rw [htopmarks] at h
        cases h
        exact ⟨w, data, rfl⟩

theorem areNormal_of_ofText {text : String} {base resources : Path} {isFile : Path → Bool}
    {settings : Settings} (hbase : base.isAbsolute = true)
    (h : (ofText text base resources isFile).1 = .ok settings) : settings.places.AreNormal := by
  obtain ⟨w, data, hplaces⟩ := exists_placesOf h
  rw [hplaces]
  exact areNormal_placesOf w data resources hbase

theorem isAbsolute_of_absolute {s : Store} {p base : Path} (h : s.absolute p = .ok base) :
    base.isAbsolute = true := by
  unfold Store.absolute at h
  cases hlocate : s.locate p with
  | error e => simp [hlocate, Except.map] at h
  | ok location =>
    rw [hlocate] at h
    cases h
    simp [isAbsolute]

theorem ofText_fst_eq (text : String) (base resources : Path) (isFile isFile' : Path → Bool) :
    (ofText text base resources isFile).1 = (ofText text base resources isFile').1 := by
  unfold ofText
  split
  · rfl
  · split <;> rfl

theorem loaded_eq_ok_iff (s : Store) (path directory resources : Path) (settings : Settings) :
    (match (do return ((← s.readText path), ← s.absolute directory) :
        Except FileError (String × Path)) with
      | .error cause => ((.error (.unreadable path cause), []) :
        Except SettingsError Settings × Log)
      | .ok (text, base) => ofText text base resources s.isFile).1 = .ok settings ↔
      ∃ text base, s.readText path = .ok text ∧ s.absolute directory = .ok base ∧
        (ofText text base resources fun _ => false).1 = .ok settings := by
  rcases s.readText path with cause | text
  · simp [bind, Except.bind]
  · rcases s.absolute directory with cause | base
    · simp [bind, Except.bind]
    · simp [bind, Except.bind, pure, Except.pure, ofText_fst_eq text base resources s.isFile
        fun _ => false]

theorem exists_settingsDirectory (path resources : Path) :
    ∃ directory, ∀ (s : Store) (settings : Settings),
      (load s path resources).1 = .ok settings ↔
        ∃ text base, s.readText path = .ok text ∧ s.absolute directory = .ok base ∧
          (ofText text base resources fun _ => false).1 = .ok settings :=
  ⟨_, fun s settings => loaded_eq_ok_iff s path _ resources settings⟩

theorem areNormal_of_load {s : Store} {path resources : Path} {settings : Settings}
    (h : (load s path resources).1 = .ok settings) : settings.places.AreNormal := by
  obtain ⟨directory, hload⟩ := exists_settingsDirectory path resources
  obtain ⟨text, base, -, hbase, hsettings⟩ := (hload s settings).mp h
  exact areNormal_of_ofText (isAbsolute_of_absolute hbase) hsettings

theorem load_extends {s t : Store} (h : s.Extends t) {path resources : Path}
    {settings : Settings} (hs : (load s path resources).1 = .ok settings) :
    (load t path resources).1 = .ok settings := by
  obtain ⟨directory, hload⟩ := exists_settingsDirectory path resources
  obtain ⟨text, base, htext, hbase, hsettings⟩ := (hload s settings).mp hs
  exact (hload t settings).mpr ⟨text, base, h.readText htext, h.absolute hbase, hsettings⟩

end Settings

end SeaChart
