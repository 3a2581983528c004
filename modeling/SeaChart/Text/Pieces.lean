import SeaChart.Text.Blank

namespace SeaChart.Text

def pieces (separator : Char) (s : String) : List String :=
  (s.toList.splitOn separator).map String.ofList

theorem notMem_of_mem_splitOn {α : Type} [BEq α] [LawfulBEq α] {a : α} {xs ys : List α}
    (h : ys ∈ xs.splitOn a) : a ∉ ys := by
  induction xs generalizing ys with
  | nil => simp_all
  | cons x xs ih =>
    rw [List.splitOn_cons_eq_if_modifyHead] at h
    obtain ⟨first, rest, hsplit⟩ := List.exists_cons_of_ne_nil (List.splitOn_ne_nil a xs)
    rw [hsplit] at h ih
    split at h
    · rcases List.mem_cons.mp h with rfl | h
      · exact List.not_mem_nil
      · exact ih h
    · next hx =>
      rcases List.mem_cons.mp h with rfl | h
      · have hne : a ≠ x := fun heq => hx (by simp [heq])
        simpa [hne] using ih List.mem_cons_self
      · exact ih (List.mem_cons_of_mem first h)

theorem exists_of_mem_intercalate {α : Type} {a : α} {word : List α} {words : List (List α)}
    (h : word ∈ words) :
    ∃ before after, [a].intercalate words = before ++ (word ++ after) ∧
      (before = [] ∨ before.getLast? = some a) ∧ (after = [] ∨ after.head? = some a) := by
  induction words with
  | nil => cases h
  | cons w ws ih =>
    cases ws with
    | nil =>
      cases List.mem_singleton.mp h
      exact ⟨[], [], by simp, .inl rfl, .inl rfl⟩
    | cons w' ws =>
      rw [List.intercalate_cons_cons]
      rcases List.mem_cons.mp h with rfl | h
      · exact ⟨[], _, by simp; rfl, .inl rfl, .inr (by simp)⟩
      · obtain ⟨before, after, heq, hbefore, hafter⟩ := ih h
        refine ⟨w ++ a :: before, after, by simp [heq], .inr ?_, hafter⟩
        rcases hbefore with rfl | hbefore
        · simp
        · simp [List.getLast?_cons, hbefore]

theorem mem_splitOn_iff {α : Type} [BEq α] [LawfulBEq α] {a : α} {word xs : List α} :
    word ∈ xs.splitOn a ↔ a ∉ word ∧ ∃ before after, xs = before ++ (word ++ after) ∧
      (before = [] ∨ before.getLast? = some a) ∧ (after = [] ∨ after.head? = some a) := by
  constructor
  · intro h
    refine ⟨notMem_of_mem_splitOn h, ?_⟩
    obtain ⟨before, after, heq, hedges⟩ := exists_of_mem_intercalate (a := a) h
    rw [List.intercalate_splitOn] at heq
    exact ⟨before, after, heq, hedges⟩
  · rintro ⟨hword, before, after, rfl, hbefore, hafter⟩
    have hend : word ∈ (word ++ after).splitOn a := by
      rcases hafter with rfl | hafter
      · rw [List.append_nil, List.splitOn_eq_singleton hword]
        exact List.mem_singleton_self word
      · obtain ⟨after, rfl⟩ := List.head?_eq_some_iff.mp hafter
        rw [List.splitOn_append_cons_self_of_not_mem hword]
        exact List.mem_cons_self
    rcases hbefore with rfl | hbefore
    · exact hend
    · obtain ⟨before, rfl⟩ := List.getLast?_eq_some_iff.mp hbefore
      rw [List.append_assoc, List.singleton_append, List.splitOn_append_cons_self]
      exact List.mem_append_right _ hend

theorem mem_pieces_iff {separator : Char} {word s : String} :
    word ∈ pieces separator s ↔ word.toList ∈ s.toList.splitOn separator := by
  rw [pieces, List.mem_map]
  constructor
  · rintro ⟨cs, hcs, rfl⟩
    rwa [String.toList_ofList]
  · intro h
    exact ⟨word.toList, h, String.ofList_toList⟩

theorem pieces_intercalate {separator : Char} {words : List String}
    (h : ∀ w ∈ words, separator ∉ w.toList) (hne : words ≠ []) :
    pieces separator (String.intercalate (String.singleton separator) words) = words := by
  have hsplit := @List.splitOn_intercalate _ (words.map String.toList) _ _ separator
    (by simpa using h) (by simpa using hne)
  rw [pieces, String.toList_intercalate, String.toList_singleton, hsplit, List.map_map]
  simp

theorem append_cons_inj {d : Char} {xs ys vs ws : List Char} (hx : d ∉ xs) (hy : d ∉ ys) :
    xs ++ d :: vs = ys ++ d :: ws ↔ xs = ys ∧ vs = ws := by
  induction xs generalizing ys with
  | nil =>
    cases ys with
    | nil => simp
    | cons y ys => simp [List.ne_of_not_mem_cons hy]
  | cons x xs ih =>
    cases ys with
    | nil => simp [(List.ne_of_not_mem_cons hx).symm]
    | cons y ys =>
      have htail := ih (List.not_mem_of_not_mem_cons hx) (List.not_mem_of_not_mem_cons hy)
      simp [htail, and_assoc]

def filledPieces (separator : Char) (s : String) : List String :=
  (pieces separator s).filter fun p => !isBlankText p.toList

def trimmedPieces (separator : Char) (s : String) : List String :=
  ((pieces separator s).map trimmed).filter (· != "")

/--
The lines of a text. A line ends before a line feed or before a carriage return and a line feed;
a last line that nothing ends is a line too, and nothing follows a final line feed.
-/
def lines : List Char → List (List Char)
  | [] => []
  | '\n' :: cs => [] :: lines cs
  | '\r' :: '\n' :: cs => [] :: lines cs
  | c :: cs =>
    match cs, lines cs with
    | [], _ => [[c]]
    | _ :: _, [] => [[c]]
    | _ :: _, l :: ls => (c :: l) :: ls

def byteCount : List Char → Nat
  | [] => 0
  | c :: cs => c.utf8Size + byteCount cs

def splitAtByte : Nat → List Char → Option (List Char × List Char)
  | 0, cs => some ([], cs)
  | _ + 1, [] => none
  | n + 1, c :: cs =>
    if c.utf8Size ≤ n + 1 then
      (splitAtByte (n + 1 - c.utf8Size) cs).map fun (taken, rest) => (c :: taken, rest)
    else none

theorem splitAtByte_eq_some_iff (n : Nat) (cs taken rest : List Char) :
    splitAtByte n cs = some (taken, rest) ↔
      cs = taken ++ rest ∧ byteCount taken = n := by
  have hpos (c : Char) : 0 < c.utf8Size := Char.utf8Size_pos c
  fun_induction splitAtByte n cs generalizing taken with
  | case1 cs =>
    cases taken with
    | nil => simp [byteCount]
    | cons t taken => simp [byteCount, Nat.ne_of_gt (hpos t)]
  | case2 n =>
    cases taken with
    | nil => simp [byteCount]
    | cons t taken => simp
  | case3 n c cs hle ih =>
    cases taken with
    | nil => simp [byteCount]
    | cons t taken =>
      have htail := ih taken
      simp only [Option.map_eq_some_iff, Prod.exists, Prod.mk.injEq, List.cons.injEq,
        List.cons_append, byteCount]
      grind
  | case4 n c cs hlt =>
    cases taken with
    | nil => simp [byteCount]
    | cons t taken =>
      simp only [reduceCtorEq, false_iff, List.cons_append, List.cons.injEq, byteCount]
      rintro ⟨⟨rfl, -⟩, hsum⟩
      omega

def mergePairs (d : Char) : List Char → List Char
  | [] => []
  | [c] => [c]
  | a :: b :: cs => if a = d ∧ b = d then d :: mergePairs d cs else a :: mergePairs d (b :: cs)

theorem mergePairs_append_cons {d c : Char} (h : c ≠ d) (xs ys : List Char) :
    mergePairs d (xs ++ c :: ys) = mergePairs d xs ++ c :: mergePairs d ys := by
  fun_induction mergePairs d xs with
  | case1 => cases ys <;> simp [mergePairs, h]
  | case2 a => cases ys <;> simp [mergePairs, h]
  | case3 a b cs hpair ih => simp [mergePairs, hpair, ih]
  | case4 a b cs hpair ih =>
    rw [List.cons_append] at ih
    simp [mergePairs, hpair, ih]

theorem mergePairs_eq_self {d : Char} {cs : List Char} (h : d ∉ cs) : mergePairs d cs = cs := by
  fun_induction mergePairs d cs <;> simp_all

theorem mem_mergePairs {d : Char} {cs : List Char} (h : d ∈ cs) : d ∈ mergePairs d cs := by
  fun_induction mergePairs d cs with
  | case1 => exact h
  | case2 c => exact h
  | case3 a b cs hpair ih => exact List.mem_cons_self
  | case4 a b cs hpair ih =>
    rcases List.mem_cons.mp h with rfl | h
    · exact List.mem_cons_self
    · exact List.mem_cons_of_mem a (ih h)

theorem mergePairs_subset (d : Char) (cs : List Char) : mergePairs d cs ⊆ cs := by
  intro c h
  fun_induction mergePairs d cs with
  | case1 => exact h
  | case2 x => exact h
  | case3 a b cs hpair ih =>
    rcases List.mem_cons.mp h with rfl | h
    · exact hpair.1 ▸ List.mem_cons_self
    · exact List.mem_cons_of_mem a (List.mem_cons_of_mem b (ih h))
  | case4 a b cs hpair ih =>
    rcases List.mem_cons.mp h with rfl | h
    · exact List.mem_cons_self
    · exact List.mem_cons_of_mem a (ih h)

end SeaChart.Text
