import Mathlib.Algebra.Order.Round
import SeaChart.Proofs.ShortestDecimal

namespace SeaChart.Plotter

open Text

def readUnsigned (cs : List Char) : Option ℚ :=
  match cs.dropWhile isDigit with
  | [] => (readNat cs).map Nat.cast
  | '.' :: places => do
    let whole ← readNat (cs.takeWhile isDigit)
    let part ← readNat places
    some (whole + part / 10 ^ places.length)
  | _ => none

def readDecimal (s : String) : Option ℚ :=
  match s.toList with
  | '-' :: cs => (readUnsigned cs).map Neg.neg
  | cs => readUnsigned cs

def readPairs : List String → Option (List (ℚ × ℚ))
  | [] => some []
  | [_] => none
  | x :: y :: words => do
    let a ← readDecimal x
    let b ← readDecimal y
    let pairs ← readPairs words
    some ((a, b) :: pairs)

def readPoints (text : String) : Option (List (ℚ × ℚ)) :=
  if text = "" then some [] else readPairs (pieces ' ' text)

def splitStrokes (points : List (ℚ × ℚ)) : List (List (ℚ × ℚ)) :=
  if points = [] then [] else points.splitOn (-99, -99)

def readStrokes (text : String) : Option (List (List (ℚ × ℚ))) :=
  (readPoints text).map splitStrokes

theorem readUnsigned_toDigits (n : Nat) : readUnsigned (Nat.toDigits 10 n) = some (n : ℚ) := by
  have hrest : (Nat.toDigits 10 n).dropWhile Text.isDigit = [] := by
    rw [← List.append_nil (Nat.toDigits 10 n),
      List.dropWhile_append_of_pos fun c => isDigit_of_mem_toDigits]
    rfl
  rw [readUnsigned, hrest, readNat_toDigits]
  rfl

theorem readUnsigned_point (n : Nat) {places : List Char} {m : Nat} (h : readNat places = some m) :
    readUnsigned (Nat.toDigits 10 n ++ '.' :: places) = some (n + m / 10 ^ places.length : ℚ) := by
  have hdigits : ∀ c ∈ Nat.toDigits 10 n, Text.isDigit c = true := fun c => isDigit_of_mem_toDigits
  rw [readUnsigned, List.dropWhile_append_of_pos hdigits, List.takeWhile_append_of_pos hdigits,
    List.dropWhile_cons_of_neg (by decide), List.takeWhile_cons_of_neg (by decide),
    List.append_nil, readNat_toDigits]
  simp only [h]
  rfl

theorem placesText_eq : ∀ r < 100, 0 < r →
    (placesText r).toList.head? = some '.' ∧
      (readNat (placesText r).toList.tail).map (100 * ·) =
        some (r * 10 ^ (placesText r).toList.tail.length) := by
  decide

theorem readUnsigned_hundredths (n r : Nat) (hr : r < 100) :
    readUnsigned (natText n ++ placesText r).toList = some (n + r / 100 : ℚ) := by
  rw [String.toList_append, natText, String.toList_ofList]
  rcases Nat.eq_zero_or_pos r with rfl | hpos
  · rw [show (placesText 0).toList = [] from rfl, List.append_nil, readUnsigned_toDigits]
    simp
  · obtain ⟨hpoint, hplaces⟩ := placesText_eq r hr hpos
    obtain ⟨m, hm, hvalue⟩ := Option.map_eq_some_iff.mp hplaces
    have hvalue' : (100 : ℚ) * m = r * 10 ^ (placesText r).toList.tail.length := by
      exact_mod_cast hvalue
    rw [← List.cons_head?_tail hpoint, readUnsigned_point n hm]
    congr 2
    rw [div_eq_div_iff (by positivity) (by norm_num)]
    linarith

theorem readDecimal_hundredthsText (n : Int) :
    readDecimal (hundredthsText n) = some (n / 100 : ℚ) := by
  have hmagnitude := readUnsigned_hundredths (n.natAbs / 100) (n.natAbs % 100)
    (Nat.mod_lt _ (by decide))
  have hvalue : ((n.natAbs / 100 : Nat) : ℚ) + (n.natAbs % 100 : Nat) / 100 = n.natAbs / 100 := by
    have h : ((100 * (n.natAbs / 100) + n.natAbs % 100 : Nat) : ℚ) = n.natAbs := by
      rw [Nat.div_add_mod]
    push_cast at h
    linarith
  rw [hvalue] at hmagnitude
  rw [hundredthsText_eq, String.append_assoc]
  by_cases hsign : n < 0
  · have habs : (n.natAbs : ℚ) = -n := by
      rw [Nat.cast_natAbs, abs_of_neg hsign]
      push_cast
      rfl
    rw [if_pos hsign, readDecimal, String.toList_append]
    change (readUnsigned (natText _ ++ placesText _).toList).map Neg.neg = _
    rw [hmagnitude, habs, Option.map_some, neg_div, neg_neg]
  · have habs : (n.natAbs : ℚ) = n := by
      rw [Nat.cast_natAbs, abs_of_nonneg (not_lt.mp hsign)]
    rw [if_neg hsign, String.empty_append, readDecimal]
    split
    · next cs hminus =>
      obtain ⟨d, ds, hdigits⟩ := List.exists_cons_of_length_pos
        (@Nat.length_toDigits_pos 10 (n.natAbs / 100))
      have hd := @isDigit_of_mem_toDigits (n.natAbs / 100) d (hdigits ▸ List.mem_cons_self)
      rw [String.toList_append, natText, String.toList_ofList, hdigits, List.cons_append] at hminus
      rw [(List.cons.inj hminus).1] at hd
      cases hd
    · rw [hmagnitude, habs]

theorem not_isBlank_of_mem_hundredthsText {n : Int} {c : Char}
    (h : c ∈ (hundredthsText n).toList) : isBlank c = false := by
  have hplaces : ∀ r < 100, (placesText r).toList.all (!isBlank ·) = true := by decide
  have hsign : (if n < 0 then "-" else "").toList.all (!isBlank ·) = true := by
    split <;> decide
  simp only [List.all_eq_true, Bool.not_eq_true'] at hplaces hsign
  rw [hundredthsText_eq, String.toList_append, String.toList_append, List.mem_append,
    List.mem_append] at h
  rcases h with (h | h) | h
  · exact hsign c h
  · exact not_isBlank_of_isDigit (isDigit_of_mem_natText h)
  · exact hplaces _ (Nat.mod_lt _ (by decide)) c h

theorem blank_notMem_hundredthsText (n : Int) : ' ' ∉ (hundredthsText n).toList := fun h =>
  absurd (not_isBlank_of_mem_hundredthsText h) (by decide)

theorem hundredthsText_ne_empty (n : Int) : (hundredthsText n).toList ≠ [] := by
  intro h
  have hread := readDecimal_hundredthsText n
  rw [String.toList_eq_nil_iff.mp h] at hread
  cases hread

def hundredthsPoint (pivot p : Position) : Int × Int :=
  (hundredths p.1 pivot.1, hundredths p.2 pivot.2)

def pairWords (n : Int × Int) : List String :=
  [hundredthsText n.1, hundredthsText n.2]

def hundredthsPairs (pivot : Position) (strokes : List Stroke) : List (Int × Int) :=
  [(-9900, -9900)].intercalate (strokes.map fun s => s.points.map (hundredthsPoint pivot))

theorem pairWords_ne_nil (n : Int × Int) : pairWords n ≠ [] :=
  List.cons_ne_nil _ _

theorem flatMap_pairWords_ne_nil {ns : List (Int × Int)} (h : ns ≠ []) :
    ns.flatMap pairWords ≠ [] := by
  obtain ⟨n, ns, rfl⟩ := List.exists_cons_of_ne_nil h
  exact List.cons_ne_nil _ _

theorem strokeText_eq (pivot : Position) (s : Stroke) : strokeText pivot s =
    String.intercalate " " ((s.points.map (hundredthsPoint pivot)).flatMap pairWords) := by
  rw [strokeText]
  induction s.points with
  | nil => rfl
  | cons p points ih =>
    have hpoint : pointText pivot p =
        String.intercalate " " (pairWords (hundredthsPoint pivot p)) := by
      simp [pointText, pairWords, hundredthsPoint]
    rw [List.map_cons, List.map_cons, List.flatMap_cons]
    by_cases hpoints : points = []
    · rw [hpoints, List.map_nil, List.map_nil, List.flatMap_nil, List.append_nil,
        String.intercalate_singleton, hpoint]
    · rw [String.intercalate_cons_of_ne_nil (by simpa using hpoints), ih, hpoint,
        String.intercalate_append_of_ne_nil (pairWords_ne_nil _)
          (flatMap_pairWords_ne_nil (by simpa using hpoints))]

theorem hundredthsPairs_ne_nil (pivot : Position) {strokes : List Stroke} (hne : strokes ≠ [])
    (h : ∀ s ∈ strokes, s.points ≠ []) : hundredthsPairs pivot strokes ≠ [] := by
  obtain ⟨s, strokes, rfl⟩ := List.exists_cons_of_ne_nil hne
  have hs := h s List.mem_cons_self
  rw [hundredthsPairs, List.map_cons]
  cases strokes with
  | nil => simpa using hs
  | cons t strokes => simp

theorem pointsText_eq (pivot : Position) {strokes : List Stroke}
    (h : ∀ s ∈ strokes, s.points ≠ []) : pointsText pivot strokes =
      String.intercalate " " ((hundredthsPairs pivot strokes).flatMap pairWords) := by
  induction strokes with
  | nil => rfl
  | cons s strokes ih =>
    obtain ⟨hs, hrest⟩ := List.forall_mem_cons.mp h
    cases strokes with
    | nil => simp [pointsText, hundredthsPairs, strokeText_eq]
    | cons t strokes =>
      have hpairs : hundredthsPairs pivot (s :: t :: strokes) =
          s.points.map (hundredthsPoint pivot) ++
            ((-9900, -9900) :: hundredthsPairs pivot (t :: strokes)) := by
        simp [hundredthsPairs]
      have hlift : penLift = String.intercalate " " (pairWords (-9900, -9900)) := by decide
      have htext : pointsText pivot (s :: t :: strokes) =
          strokeText pivot s ++ (" " ++ penLift ++ " ") ++ pointsText pivot (t :: strokes) := by
        simp [pointsText]
      have htail := flatMap_pairWords_ne_nil
        (hundredthsPairs_ne_nil pivot (List.cons_ne_nil t strokes) hrest)
      rw [htext, hpairs, List.flatMap_append, List.flatMap_cons,
        String.intercalate_append_of_ne_nil (flatMap_pairWords_ne_nil (by simpa using hs))
          (List.append_ne_nil_of_right_ne_nil _ htail),
        String.intercalate_append_of_ne_nil (pairWords_ne_nil _) htail, ← hlift,
        ← strokeText_eq, ← ih hrest]
      simp only [String.append_assoc]

def decimalPair (n : Int × Int) : ℚ × ℚ :=
  (n.1 / 100, n.2 / 100)

theorem readPairs_flatMap (ns : List (Int × Int)) :
    readPairs (ns.flatMap pairWords) = some (ns.map decimalPair) := by
  induction ns with
  | nil => rfl
  | cons n ns ih =>
    rw [List.flatMap_cons, pairWords, List.cons_append, List.singleton_append, readPairs,
      readDecimal_hundredthsText, readDecimal_hundredthsText, ih]
    rfl

theorem exists_of_mem_flatMap_pairWords {ns : List (Int × Int)} {w : String}
    (h : w ∈ ns.flatMap pairWords) : ∃ n, w = hundredthsText n := by
  obtain ⟨n, -, hword⟩ := List.mem_flatMap.mp h
  simp only [pairWords, List.mem_cons, List.not_mem_nil, or_false] at hword
  rcases hword with h | h
  · exact ⟨n.1, h⟩
  · exact ⟨n.2, h⟩

theorem pieces_pointsText (pivot : Position) {strokes : List Stroke} (hne : strokes ≠ [])
    (h : ∀ s ∈ strokes, s.points ≠ []) : pieces ' ' (pointsText pivot strokes) =
      (hundredthsPairs pivot strokes).flatMap pairWords := by
  rw [pointsText_eq pivot h]
  apply pieces_intercalate
  · intro w hw
    obtain ⟨n, rfl⟩ := exists_of_mem_flatMap_pairWords hw
    exact blank_notMem_hundredthsText n
  · exact flatMap_pairWords_ne_nil (hundredthsPairs_ne_nil pivot hne h)

theorem readPoints_pointsText (pivot : Position) {strokes : List Stroke}
    (h : ∀ s ∈ strokes, s.points ≠ []) : readPoints (pointsText pivot strokes) =
      some ((hundredthsPairs pivot strokes).map decimalPair) := by
  by_cases hne : strokes = []
  · rw [hne]
    rfl
  · have hpieces := pieces_pointsText pivot hne h
    have htext : pointsText pivot strokes ≠ "" := by
      intro hempty
      obtain ⟨n, ns, hpairs⟩ := List.exists_cons_of_ne_nil (hundredthsPairs_ne_nil pivot hne h)
      have hlength := congrArg List.length hpieces
      rw [hempty, show (pieces ' ' "").length = 1 from rfl, hpairs, List.flatMap_cons,
        List.length_append, show (pairWords n).length = 2 from rfl] at hlength
      omega
    rw [readPoints, if_neg htext, hpieces, readPairs_flatMap]

theorem map_intercalate {α β : Type} (f : α → β) (separator : List α) (parts : List (List α)) :
    (separator.intercalate parts).map f =
      (separator.map f).intercalate (parts.map (List.map f)) := by
  induction parts with
  | nil => rfl
  | cons x parts ih =>
    cases parts with
    | nil => simp
    | cons y parts => simpa using ih

theorem splitOn_intercalate_eq_iff {α : Type} [BEq α] [LawfulBEq α] (a : α) {parts : List (List α)}
    (hne : parts ≠ []) :
    ([a].intercalate parts).splitOn a = parts ↔ ∀ part ∈ parts, a ∉ part := by
  constructor
  · intro h part hpart
    rw [← h] at hpart
    exact notMem_of_mem_splitOn hpart
  · exact fun h => List.splitOn_intercalate a h hne

def roundAway (r : ℚ) : Int :=
  if r < 0 then -round (-r) else round r

def exactCoordinate (x pivot : Int) : ℚ :=
  roundAway (25 * (x - pivot) / 8) / 100

def exactPoint (pivot p : Position) : ℚ × ℚ :=
  (exactCoordinate p.1 pivot.1, exactCoordinate p.2 pivot.2)

theorem hundredths_eq (x pivot : Int) : hundredths x pivot = roundAway (25 * (x - pivot) / 8) := by
  have hmagnitude : (Binary64.roundHalfUp (25 * (x - pivot)).natAbs 8 : Int) =
      round (|25 * (x - pivot)| / 8 : ℚ) := by
    rw [Binary64.roundHalfUp_eq_floor _ (by decide), round_eq, Nat.cast_natAbs]
    push_cast
    rfl
  have hsign : (25 * (x - pivot) / 8 : ℚ) < 0 ↔ 25 * (x - pivot) < 0 := by
    rw [div_lt_iff₀ (by norm_num), zero_mul]
    exact_mod_cast Iff.rfl
  rw [hundredths, hmagnitude, roundAway]
  simp only [hsign]
  split
  · next h =>
    rw [abs_of_neg h]
    push_cast
    rw [neg_div]
  · next h =>
    rw [abs_of_nonneg (not_lt.mp h)]
    push_cast
    rfl

theorem decimalPair_hundredthsPoint (pivot p : Position) :
    decimalPair (hundredthsPoint pivot p) = exactPoint pivot p := by
  simp only [decimalPair, hundredthsPoint, exactPoint, exactCoordinate, hundredths_eq]

theorem map_decimalPair_hundredthsPairs (pivot : Position) (strokes : List Stroke) :
    (hundredthsPairs pivot strokes).map decimalPair =
      [(-99, -99)].intercalate (strokes.map fun s => s.points.map (exactPoint pivot)) := by
  have hlift : decimalPair (-9900, -9900) = (-99, -99) := by norm_num [decimalPair]
  rw [hundredthsPairs, map_intercalate, List.map_singleton, hlift, List.map_map]
  congr 2
  funext s
  rw [Function.comp_apply, List.map_map]
  congr 1
  funext p
  exact decimalPair_hundredthsPoint pivot p

theorem hundredths_eq_lift_iff (x pivot : Int) : hundredths x pivot = -9900 ↔ x = pivot - 3168 := by
  simp only [hundredths, Binary64.roundHalfUp]
  split <;> omega

theorem exactPoint_eq_lift_iff (pivot p : Position) :
    exactPoint pivot p = (-99, -99) ↔ p = (pivot.1 - 3168, pivot.2 - 3168) := by
  have hcoordinate (x pivot : Int) : exactCoordinate x pivot = -99 ↔ x = pivot - 3168 := by
    rw [← hundredths_eq_lift_iff, exactCoordinate, ← hundredths_eq, div_eq_iff (by norm_num)]
    norm_num
    exact_mod_cast Iff.rfl
  rw [exactPoint, Prod.mk.injEq, hcoordinate, hcoordinate, Prod.ext_iff]

theorem readStrokes_pointsText_iff (pivot : Position) {strokes : List Stroke}
    (h : ∀ s ∈ strokes, s.points ≠ []) :
    readStrokes (pointsText pivot strokes) =
        some (strokes.map fun s => s.points.map (exactPoint pivot)) ↔
      ∀ s ∈ strokes, (pivot.1 - 3168, pivot.2 - 3168) ∉ s.points := by
  have hcollision : (∀ s ∈ strokes, (pivot.1 - 3168, pivot.2 - 3168) ∉ s.points) ↔
      ∀ part ∈ strokes.map fun s => s.points.map (exactPoint pivot), (-99, -99) ∉ part := by
    simp only [List.mem_map, forall_exists_index, and_imp, forall_apply_eq_imp_iff₂,
      exactPoint_eq_lift_iff, exists_eq_right]
  rw [readStrokes, readPoints_pointsText pivot h, Option.map_some, Option.some.injEq, hcollision]
  by_cases hne : strokes = []
  · simp [hne, splitStrokes, hundredthsPairs]
  · have hpairs : (hundredthsPairs pivot strokes).map decimalPair ≠ [] := by
      simpa using hundredthsPairs_ne_nil pivot hne h
    rw [splitStrokes, if_neg hpairs, map_decimalPair_hundredthsPairs]
    exact splitOn_intercalate_eq_iff _ (by simpa using hne)

def pixelText (d : Int) : String :=
  let pixels := (Binary64.ofInt d).div (.ofNat 32)
  let rounded := (pixels.mul (.ofNat 100)).round.div (.ofNat 100)
  if rounded.isZero then "0" else rounded.text

def DiffersInInt32 (x pivot : Int) : Prop :=
  -2147483648 ≤ x - pivot ∧ x - pivot ≤ 2147483647

instance (x pivot : Int) : Decidable (DiffersInInt32 x pivot) :=
  inferInstanceAs (Decidable (_ ∧ _))

open Binary64 in
theorem exists_rounded_eq {d : Int} {n : Nat} (h : d.natAbs ≤ 2147483648)
    (hn : n = roundHalfUp (25 * d.natAbs) 8) :
    ∃ p q : Nat, 0 < q ∧ (p : ℚ) / q = (n : ℚ) / 100 ∧
      (((ofInt d).div (ofNat 32)).mul (ofNat 100)).round.div (ofNat 100) =
        ofFraction (d < 0) p q := by
  have hbound : mantissaBound = 9007199254740992 := rfl
  have h32 : (ofNat 32).HasValue false (32 : Nat) := ofNat_hasValue (by decide)
  have h100 : (ofNat 100).HasValue false (100 : Nat) := ofNat_hasValue (by decide)
  -- A power of two and a small factor keep the value exact, so only the last division rounds.
  have hpixels : ((ofInt d).div (ofNat 32)).HasValue (d < 0) (d.natAbs / (32 : Nat)) := by
    have hvalue : (d.natAbs / (32 : Nat) : ℚ) = d.natAbs * 2 ^ (-5 : Int) := by
      push_cast
      ring
    simpa only [Bool.bne_false] using (ofInt_hasValue (by omega)).div h32 (by norm_num) _ hvalue
      (by omega) (by decide) (by decide)
  have hscaled : (((ofInt d).div (ofNat 32)).mul (ofNat 100)).HasValue (d < 0)
      (d.natAbs / (32 : Nat) * (100 : Nat)) := by
    have hvalue : (d.natAbs / (32 : Nat) * (100 : Nat) : ℚ) =
        (25 * d.natAbs : Nat) * 2 ^ (-3 : Int) := by
      push_cast
      ring
    simpa only [Bool.bne_false] using hpixels.mul h100 _ hvalue (by omega) (by decide) (by decide)
  have hfloor : (n : Int) = ⌊(d.natAbs / (32 : Nat) * (100 : Nat) + 1 / 2 : ℚ)⌋ := by
    rw [hn, roundHalfUp_eq_floor _ (by decide)]
    congr 2
    push_cast
    ring
  have hsmall : n < mantissaBound := by
    rw [hn, roundHalfUp]
    omega
  obtain ⟨p, q, hq, heq, hvalue⟩ := (hscaled.round hfloor hsmall).exists_div h100 (by norm_num)
  exact ⟨p, q, hq, hvalue.trans (by norm_num), by simpa only [Bool.bne_false] using heq⟩

theorem hundredthsText_eq_pixelText {x pivot : Int} (h : DiffersInInt32 x pivot) :
    hundredthsText (hundredths x pivot) = pixelText (x - pivot) := by
  obtain ⟨d, hd⟩ : ∃ d, d = x - pivot := ⟨_, rfl⟩
  obtain ⟨n, hn⟩ : ∃ n, n = Binary64.roundHalfUp (25 * d.natAbs) 8 := ⟨_, rfl⟩
  have habs : d.natAbs ≤ 2147483648 := by
    have := h.1
    have := h.2
    omega
  have hhundredths : hundredths x pivot = if d < 0 then -(n : Int) else n := by
    have hsign : 25 * d < 0 ↔ d < 0 := by omega
    simp only [hundredths, ← hd, hsign, Int.natAbs_mul, hn]
    rfl
  obtain ⟨p, q, hq, hvalue, hrounded⟩ := exists_rounded_eq habs hn
  rw [← hd, hhundredths, pixelText]
  simp only [hrounded]
  rcases Nat.eq_zero_or_pos n with hzero | hpos
  · have hp : p = 0 := by
      rw [hzero, Nat.cast_zero, zero_div, div_eq_zero_iff, Nat.cast_eq_zero,
        Nat.cast_eq_zero] at hvalue
      omega
    have hisZero : (Binary64.ofFraction (d < 0) p q).isZero = true := by
      rw [hp]
      rfl
    rw [if_pos hisZero, hzero]
    split <;> rfl
  · have hsmall : n < 2 ^ 48 := by
      rw [hn, Binary64.roundHalfUp]
      omega
    obtain ⟨hisZero, htext⟩ := Binary64.text_ofFraction (d < 0) hq hvalue hpos hsmall
    rw [hisZero, htext, if_neg Bool.false_ne_true]
    by_cases hsign : d < 0
    · rw [if_pos hsign, if_pos (decide_eq_true hsign), hundredthsText_neg hpos]
    · simp [hsign]

def appendedStroke (pivot : Position) (s : Stroke) : String :=
  String.join (s.points.map fun p =>
    pixelText (p.1 - pivot.1) ++ " " ++ pixelText (p.2 - pivot.2) ++ " ")

def appendedText (pivot : Position) (strokes : List Stroke) : String :=
  String.ofList (trimEnd
    (String.intercalate (penLift ++ " ") (strokes.map (appendedStroke pivot))).toList)

theorem join_eq_intercalate (parts : List String) :
    String.join parts = String.intercalate "" parts := by
  induction parts with
  | nil => rfl
  | cons x parts ih =>
    cases parts with
    | nil => simp
    | cons y parts => rw [String.join_cons, ih, String.intercalate_cons_cons, String.append_empty]

theorem intercalate_map_append (separator behind : String) {parts : List String} (h : parts ≠ []) :
    String.intercalate separator (parts.map (· ++ behind)) =
      String.intercalate (behind ++ separator) parts ++ behind := by
  induction parts with
  | nil => exact absurd rfl h
  | cons x parts ih =>
    cases parts with
    | nil => simp
    | cons y parts =>
      have htail := ih (List.cons_ne_nil y parts)
      rw [List.map_cons] at htail
      rw [List.map_cons, List.map_cons, String.intercalate_cons_cons, String.intercalate_cons_cons,
        htail]
      simp only [String.append_assoc]

theorem exists_intercalate_concat (separator : String) (parts : List String) (w : String) :
    ∃ lead, String.intercalate separator (parts ++ [w]) = lead ++ w := by
  by_cases h : parts = []
  · exact ⟨"", by simp [h]⟩
  · exact ⟨_, String.intercalate_append_of_ne_nil h (List.cons_ne_nil w [])⟩

def InReach (pivot : Position) (s : Stroke) : Prop :=
  ∀ p ∈ s.points, DiffersInInt32 p.1 pivot.1 ∧ DiffersInInt32 p.2 pivot.2

instance (pivot : Position) (s : Stroke) : Decidable (InReach pivot s) :=
  inferInstanceAs (Decidable (∀ p ∈ s.points, _ ∧ _))

theorem appendedStroke_eq {pivot : Position} {s : Stroke} (hs : s.points ≠ [])
    (h : InReach pivot s) : appendedStroke pivot s = strokeText pivot s ++ " " := by
  have hpoints : (s.points.map fun p =>
      pixelText (p.1 - pivot.1) ++ " " ++ pixelText (p.2 - pivot.2) ++ " ") =
        (s.points.map (pointText pivot)).map (· ++ " ") := by
    rw [List.map_map]
    apply List.map_congr_left
    intro p hp
    rw [Function.comp_apply, pointText, hundredthsText_eq_pixelText (h p hp).1,
      hundredthsText_eq_pixelText (h p hp).2]
  rw [appendedStroke, hpoints, join_eq_intercalate,
    intercalate_map_append "" " " (by simpa using hs)]
  rfl

theorem appendedText_eq {pivot : Position} {strokes : List Stroke}
    (hpoints : ∀ s ∈ strokes, s.points ≠ []) (h : ∀ s ∈ strokes, InReach pivot s) :
    appendedText pivot strokes = pointsText pivot strokes := by
  by_cases hne : strokes = []
  · rw [hne]
    rfl
  have hstrokes : strokes.map (appendedStroke pivot) =
      (strokes.map (strokeText pivot)).map (· ++ " ") := by
    rw [List.map_map]
    exact List.map_congr_left fun s hs => appendedStroke_eq (hpoints s hs) (h s hs)
  have hwords := flatMap_pairWords_ne_nil (hundredthsPairs_ne_nil pivot hne hpoints)
  obtain ⟨words, w, hconcat⟩ := (List.eq_nil_or_concat _).resolve_left hwords
  rw [List.concat_eq_append] at hconcat
  obtain ⟨n, rfl⟩ : ∃ n, w = hundredthsText n := by
    apply exists_of_mem_flatMap_pairWords
    rw [hconcat]
    exact List.mem_append_right words List.mem_cons_self
  obtain ⟨lead, hlead⟩ := exists_intercalate_concat " " words (hundredthsText n)
  obtain ⟨cs, c, hlast⟩ := (List.eq_nil_or_concat _).resolve_left (hundredthsText_ne_empty n)
  rw [List.concat_eq_append] at hlast
  have hc : isBlank c = false := by
    apply @not_isBlank_of_mem_hundredthsText n
    rw [hlast]
    exact List.mem_append_right cs List.mem_cons_self
  have htext : (pointsText pivot strokes).toList = lead.toList ++ cs ++ [c] := by
    rw [pointsText_eq pivot hpoints, hconcat, hlead, String.toList_append, hlast]
    simp
  have hbuilt : String.intercalate (penLift ++ " ") (strokes.map (appendedStroke pivot)) =
      pointsText pivot strokes ++ " " := by
    rw [hstrokes, intercalate_map_append _ _ (by simpa using hne), ← String.append_assoc]
    rfl
  rw [appendedText, hbuilt, String.toList_append, trimEnd_append_blanks (by decide), htext,
    trimEnd_append_of_not_isBlank hc, ← htext, String.ofList_toList]

/--
Reading the coordinates of strokes gives them back, rounded to hundredths of a pixel, just when no
point of a stroke has the coordinates that lift the pen. Zero has no sign, and the text is what
floating-point arithmetic puts together.
-/
theorem pointsText_reads (pivot : Position) (strokes : List Stroke)
    (hlong : ∀ s ∈ strokes, 2 ≤ s.points.length) (hreach : ∀ s ∈ strokes, InReach pivot s) :
    (readStrokes (pointsText pivot strokes) =
        some (strokes.map fun s => s.points.map (exactPoint pivot)) ↔
      ∀ s ∈ strokes, (pivot.1 - 3168, pivot.2 - 3168) ∉ s.points) ∧
    (∀ w ∈ pieces ' ' (pointsText pivot strokes), readDecimal w = some 0 → w = "0") ∧
    pointsText pivot strokes = appendedText pivot strokes := by
  have hpoints : ∀ s ∈ strokes, s.points ≠ [] := by
    intro s hs
    have := hlong s hs
    exact List.ne_nil_of_length_pos (by omega)
  refine ⟨readStrokes_pointsText_iff pivot hpoints, fun w hw hzero => ?_,
    (appendedText_eq hpoints hreach).symm⟩
  by_cases hne : strokes = []
  · rw [hne] at hw
    obtain rfl : w = "" := List.mem_singleton.mp hw
    cases hzero
  · rw [pieces_pointsText pivot hne hpoints] at hw
    obtain ⟨n, rfl⟩ := exists_of_mem_flatMap_pairWords hw
    rw [readDecimal_hundredthsText, Option.some.injEq, div_eq_zero_iff, Int.cast_eq_zero] at hzero
    rw [hzero.resolve_right (by norm_num)]
    decide

def twoStrokes : List Stroke :=
  [⟨'A', 1, [(64, 32), (32, 32), (28, 36)]⟩, ⟨'A', 2, [(-3136, 0), (0, -3136)]⟩]

theorem pointsText_reads_twoStrokes :
    (∀ s ∈ twoStrokes, 2 ≤ s.points.length) ∧ (∀ s ∈ twoStrokes, InReach (32, 32) s) ∧
      pointsText (32, 32) twoStrokes = "1 0 0 0 -0.13 0.13 -99 -99 -99 -1 -1 -99" ∧
      readStrokes "1 0 0 0 -0.13 0.13 -99 -99 -99 -1 -1 -99" =
        some [[(1, 0), (0, 0), (-13 / 100, 13 / 100)], [(-99, -1), (-1, -99)]] := by
  have hlong : ∀ s ∈ twoStrokes, 2 ≤ s.points.length := by decide
  have hreach : ∀ s ∈ twoStrokes, InReach (32, 32) s := by decide
  have htext : pointsText (32, 32) twoStrokes = "1 0 0 0 -0.13 0.13 -99 -99 -99 -1 -1 -99" := by
    decide
  have hread := (pointsText_reads (32, 32) twoStrokes hlong hreach).1.mpr (by decide)
  rw [htext] at hread
  refine ⟨hlong, hreach, htext, hread.trans ?_⟩
  decide +kernel

end SeaChart.Plotter
