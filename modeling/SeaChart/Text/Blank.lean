namespace SeaChart.Text

def isBlank (c : Char) : Bool :=
  let n := c.toNat
  n == 0x20 || (0x09 ≤ n && n ≤ 0x0D) || n == 0x85 || n == 0xA0 || n == 0x1680 ||
    (0x2000 ≤ n && n ≤ 0x200A) || n == 0x2028 || n == 0x2029 || n == 0x202F || n == 0x205F ||
    n == 0x3000

theorem not_isBlank_of_isUpper {c : Char} (h : c.isUpper = true) : isBlank c = false := by
  have hrange : 0x41 ≤ c.toNat ∧ c.toNat ≤ 0x5A := by
    obtain ⟨hlow, hhigh⟩ := of_decide_eq_true h
    exact ⟨UInt32.le_iff_toNat_le.mp hlow, UInt32.le_iff_toNat_le.mp hhigh⟩
  simp only [isBlank, Bool.or_eq_false_iff, Bool.and_eq_false_iff, beq_eq_false_iff_ne,
    decide_eq_false_iff_not]
  omega

theorem not_isBlank_of_isDigit {c : Char} (h : c.isDigit = true) : isBlank c = false := by
  have hrange : 0x30 ≤ c.toNat ∧ c.toNat ≤ 0x39 := by
    rw [Char.isDigit, Bool.and_eq_true] at h
    exact ⟨UInt32.le_iff_toNat_le.mp (of_decide_eq_true h.1),
      UInt32.le_iff_toNat_le.mp (of_decide_eq_true h.2)⟩
  simp only [isBlank, Bool.or_eq_false_iff, Bool.and_eq_false_iff, beq_eq_false_iff_ne,
    decide_eq_false_iff_not]
  omega

def trimStart (cs : List Char) : List Char :=
  cs.dropWhile isBlank

def trimEnd (cs : List Char) : List Char :=
  (cs.reverse.dropWhile isBlank).reverse

def trim (cs : List Char) : List Char :=
  trimEnd (trimStart cs)

def isBlankText (cs : List Char) : Bool :=
  cs.all isBlank

theorem isBlankText_append_singleton {blanks : List Char} {c : Char}
    (hblanks : isBlankText blanks = true) (hc : isBlank c = true) :
    isBlankText (blanks ++ [c]) = true := by
  rw [isBlankText] at *
  rw [List.all_append, hblanks, List.all_cons, hc]
  rfl

theorem trimStart_eq_nil_iff (cs : List Char) : trimStart cs = [] ↔ isBlankText cs = true := by
  induction cs with
  | nil => simp [trimStart, isBlankText]
  | cons c cs ih =>
    cases hc : isBlank c with
    | true =>
      simp only [trimStart, isBlankText, List.dropWhile_cons, List.all_cons, hc, if_true,
        Bool.true_and] at ih ⊢
      exact ih
    | false => simp [trimStart, isBlankText, hc]

theorem exists_trimStart (cs : List Char) :
    ∃ lead, isBlankText lead = true ∧ cs = lead ++ trimStart cs := by
  exact ⟨cs.takeWhile isBlank, List.all_takeWhile, List.takeWhile_append_dropWhile.symm⟩

theorem exists_trimEnd (cs : List Char) :
    ∃ trail, isBlankText trail = true ∧ cs = trimEnd cs ++ trail := by
  obtain ⟨lead, hlead, hcs⟩ := exists_trimStart cs.reverse
  refine ⟨lead.reverse, by simpa [isBlankText] using hlead, ?_⟩
  rw [← List.reverse_inj, hcs]
  simp [trimEnd, trimStart]

theorem trimStart_blanks_append {lead : List Char} (h : isBlankText lead = true)
    (cs : List Char) : trimStart (lead ++ cs) = trimStart cs :=
  List.dropWhile_append_of_pos (List.all_eq_true.mp h)

theorem trimStart_cons_of_not_isBlank {c : Char} (h : isBlank c = false) (cs : List Char) :
    trimStart (c :: cs) = c :: cs := by
  simp [trimStart, h]

theorem trimEnd_append_blanks {trail : List Char} (h : isBlankText trail = true)
    (cs : List Char) : trimEnd (cs ++ trail) = trimEnd cs := by
  have hreverse : isBlankText trail.reverse = true := by simpa [isBlankText] using h
  have htrim := trimStart_blanks_append hreverse cs.reverse
  simpa [trimEnd, trimStart] using htrim

theorem trimEnd_append_of_not_isBlank {c : Char} (h : isBlank c = false) (cs : List Char) :
    trimEnd (cs ++ [c]) = cs ++ [c] := by
  simp [trimEnd, h]

structure IsSolid (cs : List Char) : Prop where
  head : ∀ c ∈ cs.head?, isBlank c = false
  last : ∀ c ∈ cs.getLast?, isBlank c = false

instance (cs : List Char) : Decidable (IsSolid cs) :=
  decidable_of_iff
    (cs.head?.all (!isBlank ·) = true ∧ cs.getLast?.all (!isBlank ·) = true)
    ⟨fun h => ⟨by simpa [Option.all_eq_true] using h.1, by simpa [Option.all_eq_true] using h.2⟩,
      fun h => ⟨by simpa [Option.all_eq_true] using h.head,
        by simpa [Option.all_eq_true] using h.last⟩⟩

theorem IsSolid.trim_between {lead cs trail : List Char} (h : IsSolid cs)
    (hlead : isBlankText lead = true) (htrail : isBlankText trail = true) :
    trim (lead ++ cs ++ trail) = cs := by
  rw [trim, List.append_assoc, trimStart_blanks_append hlead]
  cases cs with
  | nil =>
    rw [List.nil_append, (trimStart_eq_nil_iff trail).mpr htrail]
    rfl
  | cons c cs =>
    rw [List.cons_append, trimStart_cons_of_not_isBlank (h.head c rfl), ← List.cons_append,
      trimEnd_append_blanks htrail]
    obtain ⟨front, last, hlast⟩ :=
      (List.eq_nil_or_concat (c :: cs)).resolve_left (List.cons_ne_nil c cs)
    rw [List.concat_eq_append] at hlast
    rw [hlast, trimEnd_append_of_not_isBlank]
    exact h.last last (by simp [hlast])

theorem IsSolid.append_singleton {word gap : List Char} {c : Char} (h : IsSolid word)
    (hgap : word = [] → gap = []) (hc : isBlank c = false) : IsSolid (word ++ gap ++ [c]) := by
  refine ⟨fun d hd => ?_, fun d hd => ?_⟩
  · cases word with
    | nil =>
      rw [hgap rfl] at hd
      obtain rfl : c = d := by simpa using hd
      exact hc
    | cons w ws => exact h.head d (by simpa using hd)
  · obtain rfl : c = d := by simpa using hd
    exact hc

def trimmed (s : String) : String :=
  String.ofList (trim s.toList)

end SeaChart.Text
