import SeaChart.Condition.Basic
import SeaChart.Condition.Pattern
import SeaChart.Text.Pieces

namespace SeaChart

open Text (natText pieces mem_pieces_iff mem_splitOn_iff isDigit isDigit_of_mem_toDigits)

namespace Pattern

variable {before middle after : List Char}

def followedBy (p : Pattern) (cs : List Char) : Pattern :=
  cs.foldl (fun p c => .sequence p (.plain c)) p

theorem fits_followedBy_iff (p : Pattern) (cs : List Char) :
    (p.followedBy cs).Fits before middle after ↔
      ∃ left, middle = left ++ cs ∧ p.Fits before left (cs ++ after) := by
  induction cs generalizing p with
  | nil => simp [followedBy]
  | cons c cs ih =>
    have hstep := ih (.sequence p (.plain c))
    rw [followedBy, List.foldl_cons, ← followedBy, hstep]
    constructor
    · rintro ⟨left, rfl, first, second, rfl, hfirst, rfl⟩
      exact ⟨first, by simp, hfirst⟩
    · rintro ⟨left, rfl, hleft⟩
      exact ⟨left ++ [c], by simp, left, [c], rfl, hleft, rfl⟩

theorem fits_word_iff (cs : List Char) :
    (empty.followedBy cs).Fits before middle after ↔ middle = cs := by
  rw [fits_followedBy_iff]
  simp [Fits]

theorem fits_empty_sequence_iff (p : Pattern) :
    (sequence empty p).Fits before middle after ↔ p.Fits before middle after := by
  constructor
  · rintro ⟨_, right, rfl, rfl, h⟩
    simpa using h
  · intro h
    exact ⟨[], middle, rfl, rfl, by simpa using h⟩

theorem OpenGroup.fits_pattern_iff (g : OpenGroup) :
    g.pattern.Fits before middle after ↔
      (∃ p ∈ g.earlier, p.Fits before middle after) ∨ g.current.Fits before middle after := by
  obtain ⟨earlier, current⟩ := g
  cases earlier <;> simp [OpenGroup.pattern, Fits]

theorem not_isOperator_of_isDigit {c : Char} (h : isDigit c = true) : isOperator c = false := by
  rw [isOperator, decide_eq_false_iff_not]
  intro hoperator
  simp only [List.mem_cons, List.not_mem_nil, or_false] at hoperator
  rcases hoperator with rfl | rfl | rfl | rfl | rfl | rfl | rfl | rfl | rfl <;>
    exact absurd h (by decide)

theorem take_digit {c : Char} (h : isDigit c = true) (g : OpenGroup) (groups : List OpenGroup) :
    take (g :: groups) c = some (g.append (.plain c) :: groups) := by
  rw [take.eq_def]
  split
  case h_7 heq _ _ _ _ _ _ =>
    cases heq
    simp [not_isOperator_of_isDigit h]
  case h_8 heq => cases heq
  all_goals exact absurd h (by decide)

theorem foldlM_take_digits {cs : List Char} (h : ∀ c ∈ cs, isDigit c = true) (g : OpenGroup)
    (groups : List OpenGroup) :
    cs.foldlM take (g :: groups) =
      some ({ g with current := g.current.followedBy cs } :: groups) := by
  induction cs generalizing g with
  | nil => rfl
  | cons c cs ih =>
    obtain ⟨hc, hcs⟩ := List.forall_mem_cons.mp h
    rw [List.foldlM_cons, take_digit hc, Option.bind_eq_bind, Option.bind_some, ih hcs]
    rfl

theorem foldlM_take_words {words : List (List Char)} (hne : words ≠ [])
    (h : ∀ w ∈ words, ∀ c ∈ w, isDigit c = true) (earlier : Option Pattern)
    (groups : List OpenGroup) :
    ∃ g, (['|'].intercalate words).foldlM take ({ earlier } :: groups) = some (g :: groups) ∧
      ∀ before middle after, g.pattern.Fits before middle after ↔
        (∃ p ∈ earlier, p.Fits before middle after) ∨ middle ∈ words := by
  induction words generalizing earlier with
  | nil => exact absurd rfl hne
  | cons w words ih =>
    obtain ⟨hw, hwords⟩ := List.forall_mem_cons.mp h
    let g : OpenGroup := { earlier, current := empty.followedBy w }
    have hread : w.foldlM take ({ earlier } :: groups) = some (g :: groups) :=
      foldlM_take_digits hw _ groups
    have hfits (before middle after : List Char) : g.pattern.Fits before middle after ↔
        (∃ p ∈ earlier, p.Fits before middle after) ∨ middle = w := by
      rw [OpenGroup.fits_pattern_iff, fits_word_iff]
    -- At a bar all that has been read becomes the earlier choice.
    by_cases hlast : words = []
    · subst hlast
      refine ⟨g, by rw [List.intercalate_singleton, hread], ?_⟩
      simpa using hfits
    · obtain ⟨t, ht, hpattern⟩ := ih hlast hwords (some g.pattern)
      refine ⟨t, ?_, ?_⟩
      · obtain ⟨w', words', rfl⟩ := List.exists_cons_of_ne_nil hlast
        rw [List.intercalate_cons_cons, List.foldlM_append, List.foldlM_append, hread]
        exact ht
      · intro before middle after
        rw [hpattern, List.mem_cons, ← or_assoc]
        simpa using or_congr_left (hfits before middle after)

def startOrComma : Pattern :=
  .choice (.sequence .empty .start) (.sequence .empty (.plain ','))

def commaOrFinish : Pattern :=
  .choice (.sequence .empty (.plain ',')) (.sequence .empty .finish)

theorem fits_startOrComma_iff :
    startOrComma.Fits before middle after ↔ before = [] ∧ middle = [] ∨ middle = [','] := by
  rw [startOrComma, Fits, fits_empty_sequence_iff, fits_empty_sequence_iff, Fits, Fits]

theorem fits_commaOrFinish_iff :
    commaOrFinish.Fits before middle after ↔ middle = [','] ∨ middle = [] ∧ after = [] := by
  rw [commaOrFinish, Fits, fits_empty_sequence_iff, fits_empty_sequence_iff, Fits, Fits]

def IsSeparatedWord (words : List (List Char)) (before middle after : List Char) : Prop :=
  ∃ left word right, middle = left ++ (word ++ right) ∧ word ∈ words ∧
    (before = [] ∧ left = [] ∨ left = [',']) ∧ (right = [','] ∨ right = [] ∧ after = [])

theorem exists_isSeparatedWord_iff {words : List (List Char)} (h : ∀ word ∈ words, ',' ∉ word)
    (cs : List Char) :
    (∃ before middle after, cs = before ++ (middle ++ after) ∧
      IsSeparatedWord words before middle after) ↔ ∃ word ∈ words, word ∈ cs.splitOn ',' := by
  constructor
  · rintro ⟨before, _, after, rfl, left, word, right, rfl, hword, hleft, hright⟩
    refine ⟨word, hword, mem_splitOn_iff.mpr
      ⟨h word hword, before ++ left, right ++ after, by simp, ?_, ?_⟩⟩
    · rcases hleft with ⟨rfl, rfl⟩ | rfl
      · exact .inl rfl
      · exact .inr (by simp)
    · rcases hright with rfl | ⟨rfl, rfl⟩
      · exact .inr rfl
      · exact .inl rfl
  · rintro ⟨word, hword, hpiece⟩
    obtain ⟨-, before, after, rfl, hbefore, hafter⟩ := mem_splitOn_iff.mp hpiece
    obtain ⟨b, left, rfl, hleft⟩ :
        ∃ b left, before = b ++ left ∧ (b = [] ∧ left = [] ∨ left = [',']) := by
      rcases hbefore with rfl | hbefore
      · exact ⟨[], [], rfl, .inl ⟨rfl, rfl⟩⟩
      · obtain ⟨b, rfl⟩ := List.getLast?_eq_some_iff.mp hbefore
        exact ⟨b, [','], rfl, .inr rfl⟩
    obtain ⟨right, a, rfl, hright⟩ :
        ∃ right a, after = right ++ a ∧ (right = [','] ∨ right = [] ∧ a = []) := by
      rcases hafter with rfl | hafter
      · exact ⟨[], [], rfl, .inr ⟨rfl, rfl⟩⟩
      · obtain ⟨a, rfl⟩ := List.head?_eq_some_iff.mp hafter
        exact ⟨[','], a, rfl, .inl rfl⟩
    exact ⟨b, left ++ (word ++ right), a, by simp, left, word, right, rfl, hword, hleft, hright⟩

theorem exists_read_words {words : List (List Char)} (hne : words ≠ [])
    (h : ∀ word ∈ words, ∀ c ∈ word, isDigit c = true) {text : String}
    (htext : text.toList = "(^|,)(".toList ++ (['|'].intercalate words ++ ")(,|$)".toList)) :
    ∃ p, read text = some p ∧ ∀ before middle after,
      p.Fits before middle after ↔ IsSeparatedWord words before middle after := by
  let outer : OpenGroup := { current := .sequence .empty startOrComma }
  obtain ⟨g, hwords, hfits⟩ := foldlM_take_words hne h none [outer]
  let p : Pattern := .sequence (.sequence outer.current g.pattern) commaOrFinish
  have hopening : "(^|,)(".toList.foldlM take [{}] = some [{}, outer] := rfl
  have hclosing : ")(,|$)".toList.foldlM take [g, outer] = some [{ current := p }] := rfl
  have htaken : text.toList.foldlM take [{}] = some [{ current := p }] := by
    simp only [htext, List.foldlM_append, hopening, hwords, hclosing, Option.bind_eq_bind,
      Option.bind_some]
  have hword (before middle after : List Char) :
      g.pattern.Fits before middle after ↔ middle ∈ words := by
    simpa using hfits before middle after
  refine ⟨p, by rw [read, htaken]; rfl, ?_⟩
  intro before middle after
  constructor
  · rintro ⟨_, right, rfl, ⟨left, w, rfl, hleft, hw⟩, hright⟩
    rw [fits_empty_sequence_iff, fits_startOrComma_iff] at hleft
    rw [hword] at hw
    rw [fits_commaOrFinish_iff] at hright
    exact ⟨left, w, right, by simp, hw, hleft, hright⟩
  · rintro ⟨left, w, right, rfl, hw, hleft, hright⟩
    refine ⟨left ++ w, right, by simp, ⟨left, w, rfl, ?_, ?_⟩, ?_⟩
    · rwa [fits_empty_sequence_iff, fits_startOrComma_iff]
    · rwa [hword]
    · rwa [fits_commaOrFinish_iff]

end Pattern

namespace Condition

theorem toList_listPattern (values : List Nat) :
    (listPattern values).toList =
      "(^|,)(".toList ++
        (['|'].intercalate (values.map fun v => (natText v).toList) ++ ")(,|$)".toList) := by
  simp [listPattern, Function.comp_def]

theorem isDigit_of_mem_words {values : List Nat} :
    ∀ w ∈ values.map fun v => (natText v).toList, ∀ c ∈ w, isDigit c = true := by
  intro w hw c hc
  obtain ⟨v, -, rfl⟩ := List.mem_map.mp hw
  rw [natText, String.toList_ofList] at hc
  exact isDigit_of_mem_toDigits hc

/--
The pattern of a list that is not empty is read, and it is found in a text just when a piece of the
text between commas is one of the values in decimal.
-/
theorem listContains_found_iff {values : List Nat} (hne : values ≠ []) (acronym : String) :
    ∃ text p, listContains acronym values = .fits acronym text ∧
      Pattern.read text = some p ∧
      ∀ s, p.FoundIn s ↔ ∃ v ∈ values, natText v ∈ pieces ',' s := by
  have hwords : values.map (fun v => (natText v).toList) ≠ [] := by simpa using hne
  obtain ⟨p, hread, hfits⟩ :=
    Pattern.exists_read_words hwords isDigit_of_mem_words (toList_listPattern values)
  refine ⟨listPattern values, p, rfl, hread, ?_⟩
  intro s
  have hcomma : ∀ word ∈ values.map (fun v => (natText v).toList), ',' ∉ word :=
    fun word hword h => absurd (isDigit_of_mem_words word hword ',' h) (by decide)
  simp only [Pattern.FoundIn, hfits]
  rw [Pattern.exists_isSeparatedWord_iff hcomma]
  constructor
  · rintro ⟨word, hword, hpiece⟩
    obtain ⟨v, hv, rfl⟩ := List.mem_map.mp hword
    exact ⟨v, hv, mem_pieces_iff.mpr hpiece⟩
  · rintro ⟨v, hv, hpiece⟩
    exact ⟨_, List.mem_map_of_mem hv, mem_pieces_iff.mp hpiece⟩

theorem listContains_found_neighbours :
    [1, 11, 14] ≠ [] ∧ ∃ text p, listContains "RESTRN" [1, 11, 14] = .fits "RESTRN" text ∧
      Pattern.read text = some p ∧
      p.FoundIn "6,14" ∧ p.FoundIn "1,,x" ∧ ¬ p.FoundIn "111,4, 1,114" := by
  have hne : [1, 11, 14] ≠ [] := by decide
  obtain ⟨text, p, htext, hread, hfound⟩ := listContains_found_iff hne "RESTRN"
  refine ⟨hne, text, p, htext, hread, ?_, ?_, ?_⟩
  all_goals
    rw [hfound]
    decide

end Condition

end SeaChart
