import SeaChart.Proofs.PaletteChange

/-!
A level's map file is read back into its layers. The reader matches the keywords that open blocks
with the lines that end them and takes a line only if it is indented by four spaces for each block
that is open around it.
-/

namespace SeaChart

open Mapfile
open Mapfile.Stanza (IsShaped blockKeywords colorKeywords)

namespace Mapfile

inductive Item where
  | line (text : String)
  | block (keyword : String) (body : List Item)

mutual

def Item.decEq : (a b : Item) → Decidable (a = b)
  | .line s, .line t => decidable_of_iff (s = t) (by simp)
  | .block k xs, .block l ys =>
    have := Item.decEqAll xs ys
    decidable_of_iff (k = l ∧ xs = ys) (by simp)
  | .line _, .block _ _ => isFalse nofun
  | .block _ _, .line _ => isFalse nofun

def Item.decEqAll : (xs ys : List Item) → Decidable (xs = ys)
  | [], [] => isTrue rfl
  | x :: xs, y :: ys =>
    have := Item.decEq x y
    have := Item.decEqAll xs ys
    decidable_of_iff (x = y ∧ xs = ys) (by simp)
  | [], _ :: _ => isFalse nofun
  | _ :: _, [] => isFalse nofun

end

instance : DecidableEq Item := Item.decEq

def bare (row : List Char) : String :=
  String.ofList (row.dropWhile (· = ' '))

def leading (row : List Char) : Nat :=
  (row.takeWhile (· = ' ')).length

structure Reading where
  opened : List (String × List Item)
  items : List Item

def Reading.take (r : Reading) (row : List Char) : Option Reading :=
  if bare row = "" then some r
  else if bare row = "END" then
    match r.opened with
    | [] => none
    | (keyword, before) :: outer =>
      if leading row = 4 * outer.length then
        some ⟨outer, .block keyword r.items.reverse :: before⟩
      else none
  else if leading row = 4 * r.opened.length then
    if bare row ∈ blockKeywords then some ⟨(bare row, r.items) :: r.opened, []⟩
    else some ⟨r.opened, .line (bare row) :: r.items⟩
  else none

def readBlocks (text : String) : Option (List Item) :=
  ((text.toList.splitOn '\n').foldlM Reading.take ⟨[], []⟩).bind fun r =>
    if r.opened.isEmpty then some r.items.reverse else none

def IsIndented : Nat → List (List Char) → Prop
  | _, [] => True
  | depth, row :: rows =>
    if bare row = "" then IsIndented depth rows
    else if bare row = "END" then
      ∃ outer, depth = outer + 1 ∧ leading row = 4 * outer ∧ IsIndented outer rows
    else
      leading row = 4 * depth ∧
        IsIndented (if bare row ∈ blockKeywords then depth + 1 else depth) rows

theorem isIndented_of_take {r t : Reading} {row : List Char} {rows : List (List Char)}
    (h : r.take row = some t) (hrows : IsIndented t.opened.length rows) :
    IsIndented r.opened.length (row :: rows) := by
  unfold Reading.take at h
  rw [IsIndented]
  split
  · next hblank =>
    rw [if_pos hblank] at h
    cases h
    exact hrows
  · next hblank =>
    rw [if_neg hblank] at h
    split
    · next hend =>
      rw [if_pos hend] at h
      split at h
      · cases h
      · next keyword before outer hopened =>
        split at h
        · next hdepth =>
          cases h
          exact ⟨outer.length, by rw [hopened, List.length_cons], hdepth, hrows⟩
        · cases h
    · next hend =>
      rw [if_neg hend] at h
      split at h
      · next hdepth =>
        refine ⟨hdepth, ?_⟩
        split at h
        · next hopens =>
          cases h
          rw [if_pos hopens]
          exact hrows
        · next hopens =>
          cases h
          rw [if_neg hopens]
          exact hrows
      · cases h

theorem isIndented_of_foldlM {r t : Reading} {rows : List (List Char)}
    (h : rows.foldlM Reading.take r = some t) : IsIndented r.opened.length rows := by
  induction rows generalizing r with
  | nil => trivial
  | cons row rows ih =>
    rw [List.foldlM_cons] at h
    obtain ⟨u, hu, h⟩ := Option.bind_eq_some_iff.mp h
    exact isIndented_of_take hu (ih h)

def row (depth : Nat) (text : String) : List Char :=
  List.replicate (4 * depth) ' ' ++ text.toList

theorem bare_row (depth : Nat) {text : String} (h : text.toList.head? ≠ some ' ') :
    bare (row depth text) = text := by
  have hdrop (n : Nat) :
      (List.replicate n ' ' ++ text.toList).dropWhile (· = ' ') = text.toList := by
    induction n with
    | zero => cases htext : text.toList <;> simp_all
    | succ n ih => simpa [List.replicate_succ] using ih
  rw [bare, row, hdrop, String.ofList_toList]

theorem leading_row (depth : Nat) {text : String} (h : text.toList.head? ≠ some ' ') :
    leading (row depth text) = 4 * depth := by
  have htake (n : Nat) :
      ((List.replicate n ' ' ++ text.toList).takeWhile (· = ' ')).length = n := by
    induction n with
    | zero => cases htext : text.toList <;> simp_all
    | succ n ih => simpa [List.replicate_succ] using ih
  exact htake (4 * depth)

namespace Reading

variable {opened : List (String × List Item)} {items : List Item}

theorem take_entry {word : String} (value : String) (hword : word ≠ "")
    (hspace : ' ' ∉ word.toList) :
    take ⟨opened, items⟩ (row opened.length (word ++ " " ++ value)) =
      some ⟨opened, .line (word ++ " " ++ value) :: items⟩ := by
  have hmem : ' ' ∈ (word ++ " " ++ value).toList := by simp
  have hhead : (word ++ " " ++ value).toList.head? ≠ some ' ' := by
    cases hlist : word.toList with
    | nil => exact absurd (String.toList_eq_nil_iff.mp hlist) hword
    | cons c cs =>
      rw [hlist] at hspace
      simpa [hlist] using (List.ne_of_not_mem_cons hspace).symm
  have hother {s : String} (hs : ' ' ∉ s.toList) : word ++ " " ++ value ≠ s :=
    fun heq => hs (heq ▸ hmem)
  have hkeyword : word ++ " " ++ value ∉ blockKeywords := by
    have hall : ∀ k ∈ blockKeywords, ' ' ∉ k.toList := by decide
    exact fun h => hall _ h hmem
  rw [take, bare_row _ hhead, leading_row _ hhead, if_neg (hother (by decide)),
    if_neg (hother (by decide)), if_pos rfl, if_neg hkeyword]

theorem take_opening {keyword : String} (h : keyword ∈ blockKeywords) :
    take ⟨opened, items⟩ (row opened.length keyword) =
      some ⟨(keyword, items) :: opened, []⟩ := by
  have hall : ∀ k ∈ blockKeywords, k ≠ "" ∧ k ≠ "END" ∧ k.toList.head? ≠ some ' ' := by decide
  obtain ⟨hblank, hend, hhead⟩ := hall keyword h
  rw [take, bare_row _ hhead, leading_row _ hhead, if_neg hblank, if_neg hend, if_pos rfl,
    if_pos h]

theorem take_end (opened : List (String × List Item)) (items : List Item) (keyword : String)
    (before : List Item) :
    take ⟨(keyword, before) :: opened, items⟩ (row opened.length "END") =
      some ⟨opened, .block keyword items.reverse :: before⟩ := by
  have hhead : ("END" : String).toList.head? ≠ some ' ' := by decide
  rw [take, bare_row _ hhead, leading_row _ hhead, if_neg (by decide), if_pos rfl]
  exact if_pos rfl

end Reading

namespace Stanza

variable (ink : String → String)

mutual

def rows (depth : Nat) : Stanza → List (List Char)
  | .line text => [row depth text]
  | .color keyword name => [row depth (keyword ++ " " ++ ink name)]
  | .splice _ => []
  | .blank => [[]]
  | .block keyword body => row depth keyword :: (rowsOfAll (depth + 1) body ++ [row depth "END"])

def rowsOfAll (depth : Nat) : List Stanza → List (List Char)
  | [] => []
  | s :: ss => rows depth s ++ rowsOfAll depth ss

end

mutual

def items : Stanza → List Item
  | .line text => [.line text]
  | .color keyword name => [.line (keyword ++ " " ++ ink name)]
  | .splice _ => []
  | .blank => []
  | .block keyword body => [.block keyword (itemsOfAll body)]

def itemsOfAll : List Stanza → List Item
  | [] => []
  | s :: ss => items s ++ itemsOfAll ss

end

variable {ink} {sources : List String}

theorem rowsOfAll_eq (depth : Nat) (ss : List Stanza) :
    rowsOfAll ink depth ss = ss.flatMap (rows ink depth) := by
  induction ss with
  | nil => rfl
  | cons s ss ih => rw [rowsOfAll, ih, List.flatMap_cons]

theorem itemsOfAll_eq (ss : List Stanza) : itemsOfAll ink ss = ss.flatMap (items ink) := by
  induction ss with
  | nil => rfl
  | cons s ss ih => rw [itemsOfAll, ih, List.flatMap_cons]

theorem toList_join_linesOfAll {ss : List Stanza} (depth : Nat)
    (h : ∀ s ∈ ss, (String.join (lines ink depth s)).toList =
      (rows ink depth s).flatMap (· ++ ['\n'])) :
    (String.join (linesOfAll ink depth ss)).toList =
      (rowsOfAll ink depth ss).flatMap (· ++ ['\n']) := by
  induction ss with
  | nil => rfl
  | cons s ss ih =>
    obtain ⟨hfirst, hothers⟩ := List.forall_mem_cons.mp h
    simp only [linesOfAll, rowsOfAll, String.join_append, String.toList_append, hfirst, ih hothers,
      List.flatMap_append]

/-- Stanzas of which no line is spliced; their lines break only where a source does. -/
inductive IsLined (sources : List String) : Stanza → Prop
  | line {text : String} (h : BreaksFrom sources text) : IsLined sources (.line text)
  | color {keyword name : String} (h : '\n' ∉ keyword.toList) : IsLined sources (.color keyword name)
  | blank : IsLined sources .blank
  | block {keyword : String} {body : List Stanza} (h : '\n' ∉ keyword.toList)
      (hbody : ∀ s ∈ body, IsLined sources s) : IsLined sources (.block keyword body)

theorem IsShaped.isLined {s : Stanza} (h : IsShaped sources s) : IsLined sources s := by
  induction h with
  | line h =>
    obtain ⟨word, value, -, -, hword, hvalue, rfl⟩ := h
    exact .line ((BreaksFrom.of_oneLine hword).spaced hvalue)
  | @color keyword name h =>
    have hall : ∀ k ∈ colorKeywords, '\n' ∉ k.toList := by decide
    exact .color (hall keyword h)
  | blank => exact .blank
  | @block keyword body h hbody ih =>
    have hall : ∀ k ∈ blockKeywords, '\n' ∉ k.toList := by decide
    exact .block (hall keyword h) ih

theorem IsLined.toList_join_lines {s : Stanza} (h : IsLined sources s) (depth : Nat) :
    (String.join (lines ink depth s)).toList = (rows ink depth s).flatMap (· ++ ['\n']) := by
  have hindented (depth : Nat) (text : String) :
      (indented depth text).toList = row depth text ++ ['\n'] := by
    simp [indented, indentation, row]
  induction h generalizing depth with
  | line h => simp [lines, rows, hindented]
  | color h => simp [lines, rows, hindented]
  | blank => simp [lines, rows]
  | @block keyword body h hbody ih =>
    have hinside := toList_join_linesOfAll (depth + 1) fun s hs => ih s hs (depth + 1)
    simp [lines, rows, hindented, hinside]

theorem IsLined.notMem_rows {s : Stanza} (h : IsLined sources s)
    (hsources : ∀ t ∈ sources, '\n' ∉ t.toList) (hink : ∀ n, '\n' ∉ (ink n).toList) (depth : Nat) :
    ∀ r ∈ rows ink depth s, '\n' ∉ r := by
  have hrow (depth : Nat) {text : String} (htext : '\n' ∉ text.toList) : '\n' ∉ row depth text := by
    simp [row, htext]
  induction h generalizing depth with
  | line h =>
    intro r hr
    rw [List.mem_singleton.mp hr]
    refine hrow depth fun hbreak => ?_
    obtain ⟨t, ht, hbreak⟩ := h hbreak
    exact hsources t ht hbreak
  | @color keyword name h =>
    intro r hr
    rw [List.mem_singleton.mp hr]
    exact hrow depth (by simp [h, hink name])
  | blank =>
    intro r hr
    rw [List.mem_singleton.mp hr]
    exact List.not_mem_nil
  | @block keyword body h hbody ih =>
    rw [rows, rowsOfAll_eq]
    simp only [List.forall_mem_cons, List.forall_mem_append, List.mem_flatMap]
    refine ⟨hrow depth h, ?_, hrow depth (by decide), ?_⟩
    · rintro r ⟨s, hs, hr⟩
      exact ih s hs (depth + 1) r hr
    · exact fun r hr => absurd hr List.not_mem_nil

theorem foldlM_rowsOfAll {ss : List Stanza} (opened : List (String × List Item))
    (read : List Item)
    (h : ∀ s ∈ ss, ∀ read, (rows ink opened.length s).foldlM Reading.take ⟨opened, read⟩ =
      some ⟨opened, (items ink s).reverse ++ read⟩) :
    (rowsOfAll ink opened.length ss).foldlM Reading.take ⟨opened, read⟩ =
      some ⟨opened, (itemsOfAll ink ss).reverse ++ read⟩ := by
  induction ss generalizing read with
  | nil => rfl
  | cons s ss ih =>
    obtain ⟨hfirst, hothers⟩ := List.forall_mem_cons.mp h
    rw [rowsOfAll, List.foldlM_append, hfirst read]
    simpa [itemsOfAll] using ih _ hothers

theorem IsShaped.foldlM_rows {s : Stanza} (h : IsShaped sources s) (ink : String → String)
    (opened : List (String × List Item)) (read : List Item) :
    (rows ink opened.length s).foldlM Reading.take ⟨opened, read⟩ =
      some ⟨opened, (items ink s).reverse ++ read⟩ := by
  induction h generalizing opened read with
  | line h =>
    obtain ⟨word, value, hword, hspace, -, -, rfl⟩ := h
    simp [rows, items, Reading.take_entry value hword hspace]
  | @color keyword name h =>
    have hall : ∀ k ∈ colorKeywords, k ≠ "" ∧ ' ' ∉ k.toList := by decide
    obtain ⟨hword, hspace⟩ := hall keyword h
    simp [rows, items, Reading.take_entry (ink name) hword hspace]
  | blank => rfl
  | @block keyword body h hbody ih =>
    have hinside := foldlM_rowsOfAll ((keyword, read) :: opened) [] fun s hs inner =>
      ih s hs ((keyword, read) :: opened) inner
    rw [List.length_cons] at hinside
    have hend := Reading.take_end opened (itemsOfAll ink body).reverse keyword read
    rw [rows, List.foldlM_cons, Reading.take_opening h, Option.bind_eq_bind, Option.bind_some,
      List.foldlM_append, hinside]
    simp [items, hend]

end Stanza

theorem splitOn_flatMap {rows : List (List Char)} (h : ∀ r ∈ rows, '\n' ∉ r) :
    (rows.flatMap (· ++ ['\n'])).splitOn '\n' = rows ++ [[]] := by
  induction rows with
  | nil => rfl
  | cons r rows ih =>
    obtain ⟨hfirst, hothers⟩ := List.forall_mem_cons.mp h
    rw [List.flatMap_cons, List.append_assoc, List.singleton_append,
      List.splitOn_append_cons_self, List.splitOn_eq_singleton hfirst, ih hothers]
    rfl

theorem splitOn_write {ink : String → String} {sources : List String} {ss : List Stanza}
    (h : ∀ s ∈ ss, Stanza.IsLined sources s) (hsources : ∀ t ∈ sources, '\n' ∉ t.toList)
    (hink : ∀ n, '\n' ∉ (ink n).toList) :
    (Stanza.write ink 0 ss).toList.splitOn '\n' = Stanza.rowsOfAll ink 0 ss ++ [[]] := by
  have hrows : ∀ r ∈ Stanza.rowsOfAll ink 0 ss, '\n' ∉ r := by
    intro r hr
    rw [Stanza.rowsOfAll_eq] at hr
    obtain ⟨s, hs, hr⟩ := List.mem_flatMap.mp hr
    exact (h s hs).notMem_rows hsources hink 0 r hr
  rw [Stanza.write, Stanza.toList_join_linesOfAll 0 fun s hs => (h s hs).toList_join_lines 0]
  exact splitOn_flatMap hrows

theorem readBlocks_write (ink : String → String) {sources : List String} {ss : List Stanza}
    (h : ∀ s ∈ ss, IsShaped sources s) (hsources : ∀ t ∈ sources, '\n' ∉ t.toList)
    (hink : ∀ n, '\n' ∉ (ink n).toList) :
    readBlocks (Stanza.write ink 0 ss) = some (Stanza.itemsOfAll ink ss) ∧
      IsIndented 0 ((Stanza.write ink 0 ss).toList.splitOn '\n') := by
  have htext := splitOn_write (fun s hs => (h s hs).isLined) hsources hink
  have hread : (Stanza.rowsOfAll ink 0 ss ++ [[]]).foldlM Reading.take ⟨[], []⟩ =
      some ⟨[], (Stanza.itemsOfAll ink ss).reverse⟩ := by
    have hitems := Stanza.foldlM_rowsOfAll [] [] fun s hs => (h s hs).foldlM_rows ink []
    rw [List.length_nil, List.append_nil] at hitems
    rw [List.foldlM_append, hitems]
    rfl
  constructor
  · rw [readBlocks, htext, hread]
    simp
  · rw [htext]
    exact isIndented_of_foldlM hread

end Mapfile

end SeaChart
