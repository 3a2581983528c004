/-!
Text between delimiters. Inside, a backslash before the delimiter stands for the delimiter and every
other character for itself.
-/

namespace SeaChart.Text

def escape (delimiter : Char) : List Char → List Char
  | [] => []
  | c :: cs =>
    if c = delimiter then '\\' :: c :: escape delimiter cs else c :: escape delimiter cs

theorem escape_append (d : Char) (xs ys : List Char) :
    escape d (xs ++ ys) = escape d xs ++ escape d ys := by
  induction xs with
  | nil => rfl
  | cons x xs ih => by_cases h : x = d <;> simp [escape, h, ih]

theorem escape_eq_self {d : Char} {cs : List Char} (h : d ∉ cs) : escape d cs = cs := by
  induction cs with
  | nil => rfl
  | cons c cs ih => simp_all [escape, Ne.symm]

theorem mem_of_mem_escape {c d : Char} {cs : List Char} (h : c ∈ escape d cs) :
    c = '\\' ∨ c ∈ cs := by
  induction cs with
  | nil => cases h
  | cons x cs ih =>
    by_cases hx : x = d
    · simp only [escape, if_pos hx, List.mem_cons] at h ⊢
      grind
    · simp only [escape, if_neg hx, List.mem_cons] at h ⊢
      grind

theorem head?_escape_ne {d : Char} (hd : d ≠ '\\') (cs : List Char) :
    (escape d cs).head? ≠ some d := by
  cases cs with
  | nil => simp [escape]
  | cons c cs =>
    by_cases hc : c = d
    · simpa [escape, hc] using hd.symm
    · simp [escape, hc]

theorem escape_inj {d : Char} (hd : d ≠ '\\') {xs ys : List Char} :
    escape d xs = escape d ys ↔ xs = ys := by
  refine ⟨fun h => ?_, congrArg (escape d)⟩
  -- What follows a bare backslash is no delimiter, so an escaped one cannot be taken for it.
  have hbare {c : Char} {xs ys : List Char} (hc : c ≠ d) :
      '\\' :: d :: escape d xs ≠ c :: escape d ys := by
    intro h
    have hhead := head?_escape_ne hd ys
    rw [← (List.cons.inj h).2] at hhead
    exact hhead rfl
  induction xs generalizing ys with
  | nil =>
    cases ys with
    | nil => rfl
    | cons y ys => by_cases hy : y = d <;> simp [escape, hy] at h
  | cons x xs ih =>
    cases ys with
    | nil => by_cases hx : x = d <;> simp [escape, hx] at h
    | cons y ys =>
      by_cases hx : x = d <;> by_cases hy : y = d
      · rw [escape, if_pos hx, escape, if_pos hy] at h
        rw [hx, hy, ih (List.cons.inj (List.cons.inj h).2).2]
      · rw [escape, if_pos hx, escape, if_neg hy, hx] at h
        exact absurd h (hbare hy)
      · rw [escape, if_neg hx, escape, if_pos hy, hy] at h
        exact absurd h.symm (hbare hx)
      · rw [escape, if_neg hx, escape, if_neg hy] at h
        rw [(List.cons.inj h).1, ih (List.cons.inj h).2]

def readQuoted (delimiter : Char) : List Char → Option (List Char × List Char)
  | [] => none
  | '\\' :: c :: cs =>
    if c = delimiter then (readQuoted delimiter cs).map fun (s, rest) => (c :: s, rest)
    else if '\\' = delimiter then some ([], c :: cs)
    else (readQuoted delimiter (c :: cs)).map fun (s, rest) => ('\\' :: s, rest)
  | c :: cs =>
    if c = delimiter then some ([], cs)
    else (readQuoted delimiter cs).map fun (s, rest) => (c :: s, rest)

theorem readQuoted_cons_self {d : Char} (hd : d ≠ '\\') (rest : List Char) :
    readQuoted d (d :: rest) = some ([], rest) := by
  unfold readQuoted
  split
  · next h => cases h
  · next h =>
    cases h
    exact absurd rfl hd
  · next h =>
    cases h
    rw [if_pos rfl]

theorem readQuoted_cons_of_ne {d c : Char} (hc : c ≠ d) (hne : c ≠ '\\') (cs : List Char) :
    readQuoted d (c :: cs) = (readQuoted d cs).map fun (s, rest) => (c :: s, rest) := by
  rw [readQuoted]
  · simp [hc]
  · intro x xs h
    exact absurd h hne

theorem readQuoted_backslash_self {d : Char} (cs : List Char) :
    readQuoted d ('\\' :: d :: cs) = (readQuoted d cs).map fun (s, rest) => (d :: s, rest) := by
  rw [readQuoted, if_pos rfl]

theorem readQuoted_backslash {d : Char} (hd : d ≠ '\\') {cs : List Char}
    (h : cs.head? ≠ some d) :
    readQuoted d ('\\' :: cs) = (readQuoted d cs).map fun (s, rest) => ('\\' :: s, rest) := by
  cases cs with
  | nil => simp [readQuoted, hd.symm]
  | cons c cs =>
    have hc : c ≠ d := by simpa using h
    rw [readQuoted, if_neg hc, if_neg hd.symm]

theorem readQuoted_escape_append {d : Char} (hd : d ≠ '\\') {s tail : List Char}
    (h : s.getLast? ≠ some '\\' ∨ tail.head? ≠ some d) :
    readQuoted d (escape d s ++ tail) =
      (readQuoted d tail).map fun (t, rest) => (s ++ t, rest) := by
  induction s with
  | nil => simp [escape]
  | cons c s ih =>
    have hinner : s.getLast? ≠ some '\\' ∨ tail.head? ≠ some d := by
      refine h.imp_left fun hlast => ?_
      cases s with
      | nil => simp
      | cons x s => simpa using hlast
    have ih := ih hinner
    by_cases hc : c = d
    · rw [hc, escape, if_pos rfl, List.cons_append, List.cons_append, readQuoted_backslash_self, ih,
        Option.map_map]
      rfl
    · have hread : readQuoted d (c :: (escape d s ++ tail)) =
          (readQuoted d (escape d s ++ tail)).map fun (t, rest) => (c :: t, rest) := by
        by_cases hslash : c = '\\'
        · subst hslash
          apply readQuoted_backslash hd
          cases s with
          | nil => simpa [escape] using h
          | cons x s => by_cases hx : x = d <;> simp [escape, hx, hd.symm]
        · exact readQuoted_cons_of_ne hc hslash _
      rw [escape, if_neg hc, List.cons_append, hread, ih, Option.map_map]
      rfl

theorem readQuoted_escape {d : Char} (hd : d ≠ '\\') {s : List Char} (hs : s.getLast? ≠ some '\\')
    (rest : List Char) : readQuoted d (escape d s ++ d :: rest) = some (s, rest) := by
  rw [readQuoted_escape_append hd (.inl hs), readQuoted_cons_self hd]
  simp

theorem readQuoted_escape_backslash {d : Char} (hd : d ≠ '\\') (s rest : List Char) :
    readQuoted d (escape d (s ++ ['\\']) ++ d :: rest) =
      (readQuoted d rest).map fun (t, rest) => (s ++ d :: t, rest) := by
  have hslash : escape d ['\\'] = ['\\'] := escape_eq_self (by simpa using hd)
  have htail : (['\\'] ++ d :: rest).head? ≠ some d := by simpa using hd.symm
  rw [escape_append, hslash, List.append_assoc, readQuoted_escape_append hd (.inr htail),
    List.singleton_append, readQuoted_backslash_self, Option.map_map]
  rfl

theorem readQuoted_escape_iff {d : Char} (hd : d ≠ '\\') (s rest : List Char) :
    readQuoted d (escape d s ++ d :: rest) = some (s, rest) ↔ s.getLast? ≠ some '\\' := by
  refine ⟨fun hread hlast => ?_, fun hs => readQuoted_escape hd hs rest⟩
  obtain ⟨t, rfl⟩ := List.getLast?_eq_some_iff.mp hlast
  rw [readQuoted_escape_backslash hd, Option.map_eq_some_iff] at hread
  obtain ⟨⟨u, rest'⟩, -, heq⟩ := hread
  have htext := List.append_cancel_left (congrArg Prod.fst heq)
  exact hd (List.cons.inj htext).1

def singleQuoted (s : String) : String :=
  "'" ++ String.ofList (escape '\'' s.toList) ++ "'"

theorem singleQuoted_inj {s t : String} : singleQuoted s = singleQuoted t ↔ s = t := by
  rw [singleQuoted, singleQuoted, String.append_left_inj, String.append_right_inj,
    String.ofList_inj, escape_inj (by decide), String.toList_inj]

def doubleQuoted (s : String) : String :=
  "\"" ++ String.ofList (escape '"' s.toList) ++ "\""

end SeaChart.Text
