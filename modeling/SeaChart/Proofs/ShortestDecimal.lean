import Mathlib.Tactic.NormNum
import SeaChart.Plotter.Points
import SeaChart.Proofs.NearestNumber

namespace SeaChart

namespace Plotter

open Text

def placesText (r : Nat) : String :=
  if r = 0 then ""
  else if r % 10 = 0 then "." ++ natText (r / 10)
  else if r < 10 then ".0" ++ natText r
  else "." ++ natText r

theorem hundredthsText_eq (n : Int) : hundredthsText n =
    (if n < 0 then "-" else "") ++ natText (n.natAbs / 100) ++ placesText (n.natAbs % 100) := by
  rw [placesText, Nat.mod_mod_of_dvd _ (by decide : 10 ∣ 100)]
  rfl

theorem hundredthsText_neg {n : Nat} (h : 0 < n) :
    hundredthsText (-n) = "-" ++ hundredthsText n := by
  have hneg : -(n : Int) < 0 := by omega
  have hnonneg : ¬(n : Int) < 0 := by omega
  rw [hundredthsText_eq, hundredthsText_eq, if_pos hneg, if_neg hnonneg, Int.natAbs_neg,
    String.empty_append, String.append_assoc]

end Plotter

namespace Binary64

open Text Plotter

theorem ofPowerOfTen_snd_pos (n : Nat) (k : Int) : 0 < (ofPowerOfTen n k).2 := by
  cases k with
  | ofNat k => exact Nat.one_pos
  | negSucc k => exact Nat.pow_pos (by decide)

theorem ofPowerOfTen_value (n : Nat) (k : Int) :
    Fraction.value (ofPowerOfTen n k) = n * 10 ^ k := by
  cases k with
  | ofNat k => simp [ofPowerOfTen, Fraction.value]
  | negSucc k => simp [ofPowerOfTen, Fraction.value, zpow_negSucc, div_eq_mul_inv]

theorem digits_bounds {n : Nat} (h : 0 < n) :
    (10 : ℚ) ^ (((Nat.toDigits 10 n).length : Int) - 1) ≤ n ∧
      (n : ℚ) < 10 ^ ((Nat.toDigits 10 n).length : Int) := by
  have hlength := @Nat.length_toDigits_pos 10 n
  obtain ⟨k, hk⟩ : ∃ k, (Nat.toDigits 10 n).length = k + 1 :=
    ⟨_, (Nat.succ_pred_eq_of_pos hlength).symm⟩
  constructor
  · rw [hk, Nat.cast_add_one, add_sub_cancel_right, zpow_natCast]
    have hlow : 10 ^ k ≤ n := by
      rcases Nat.eq_zero_or_pos k with rfl | hpos
      · exact h
      · have hiff := @Nat.length_toDigits_le_iff 10 n k (by decide) hpos
        omega
    exact_mod_cast hlow
  · rw [zpow_natCast]
    exact_mod_cast (Nat.length_toDigits_le_iff (by decide : 1 < 10) hlength).mp le_rfl

theorem leadingPlace_bounds {x : Fraction} (hx : 0 < x.1) (hx' : 0 < x.2) :
    (10 : ℚ) ^ (leadingPlace x - 1) ≤ x.value ∧ x.value < 10 ^ leadingPlace x := by
  obtain ⟨a, ha⟩ : ∃ a : Int, a = (Nat.toDigits 10 x.1).length := ⟨_, rfl⟩
  obtain ⟨b, hb⟩ : ∃ b : Int, b = (Nat.toDigits 10 x.2).length := ⟨_, rfl⟩
  have hten : (10 : ℚ) ≠ 0 := by norm_num
  have hden : (0 : ℚ) < x.2 := Nat.cast_pos.mpr hx'
  obtain ⟨hlow, hhigh⟩ := digits_bounds hx
  obtain ⟨hlow', hhigh'⟩ := digits_bounds hx'
  rw [← ha] at hlow hhigh
  rw [← hb] at hlow' hhigh'
  have hbelow : (10 : ℚ) ^ (a - b - 1) ≤ x.value := by
    rw [Fraction.value, le_div_iff₀ hden]
    calc (10 : ℚ) ^ (a - b - 1) * x.2 ≤ 10 ^ (a - b - 1) * 10 ^ b := by gcongr
      _ = 10 ^ (a - 1) := by rw [← zpow_add₀ hten]; congr 1; ring
      _ ≤ x.1 := hlow
  have habove : x.value < 10 ^ (a - b + 1) := by
    rw [Fraction.value, div_lt_iff₀ hden]
    calc (x.1 : ℚ) < 10 ^ a := hhigh
      _ = 10 ^ (a - b + 1) * 10 ^ (b - 1) := by rw [← zpow_add₀ hten]; congr 1; ring
      _ ≤ 10 ^ (a - b + 1) * x.2 := by gcongr
  have htest : x.lt (ofPowerOfTen 1 (a - b)) = true ↔ x.value < 10 ^ (a - b) := by
    rw [Fraction.lt_iff hx' (ofPowerOfTen_snd_pos 1 _), ofPowerOfTen_value, Nat.cast_one, one_mul]
  simp only [leadingPlace, ← ha, ← hb, htest]
  split
  · next h => exact ⟨hbelow, h⟩
  · next h => exact ⟨by simpa using not_lt.mp h, habove⟩

def inPowersOfTen (x : Fraction) : Int → Fraction
  | .ofNat k => (x.1, x.2 * Nat.pow 10 k)
  | .negSucc k => (x.1 * Nat.pow 10 (k + 1), x.2)

theorem inPowersOfTen_snd_pos {x : Fraction} (hx : 0 < x.2) (k : Int) :
    0 < (inPowersOfTen x k).2 := by
  cases k with
  | ofNat k => exact Nat.mul_pos hx (Nat.pow_pos (by decide))
  | negSucc k => exact hx

theorem inPowersOfTen_value (x : Fraction) (k : Int) :
    Fraction.value (inPowersOfTen x k) = x.value / 10 ^ k := by
  cases k with
  | ofNat k => simp [inPowersOfTen, Fraction.value, div_div]
  | negSucc k => simp [inPowersOfTen, Fraction.value, zpow_negSucc, div_mul_eq_mul_div]

section Search

variable {i : Neighbourhood}

theorem onGrid_eq (k : Int) {p q : Nat} (h : inPowersOfTen i.value k = (p, q)) :
    i.onGrid k =
      match i.contains (ofPowerOfTen (p / q) k), i.contains (ofPowerOfTen (p / q + 1) k) with
      | true, true => some (if q ≤ 2 * (p % q) then p / q + 1 else p / q)
      | true, false => some (p / q)
      | false, true => some (p / q + 1)
      | false, false => none := by
  cases k <;> cases h <;> rfl

theorem onGrid_contains {k : Int} {n : Nat} (h : i.onGrid k = some n) :
    i.contains (ofPowerOfTen n k) = true := by
  obtain ⟨p, q, hx⟩ : ∃ p q, inPowersOfTen i.value k = (p, q) := ⟨_, _, rfl⟩
  rw [onGrid_eq k hx] at h
  split at h
  · next hbelow habove =>
    split at h
    · exact Option.some.inj h ▸ habove
    · exact Option.some.inj h ▸ hbelow
  · next hbelow _ => exact Option.some.inj h ▸ hbelow
  · next _ habove => exact Option.some.inj h ▸ habove
  · cases h

theorem onGrid_ne_none (hi : 0 < i.value.2) {k : Int} {n : Nat}
    (hnear : |i.value.value / 10 ^ k - n| < 1)
    (h : i.contains (ofPowerOfTen n k) = true) : i.onGrid k ≠ none := by
  obtain ⟨p, q, hx⟩ : ∃ p q, inPowersOfTen i.value k = (p, q) := ⟨_, _, rfl⟩
  have hq : 0 < q := by simpa [hx] using inPowersOfTen_snd_pos hi k
  have hq' : (0 : ℚ) < q := Nat.cast_pos.mpr hq
  rw [← inPowersOfTen_value, hx, Fraction.value, abs_lt, lt_sub_iff_add_lt, sub_lt_iff_lt_add,
    lt_div_iff₀ hq', div_lt_iff₀ hq'] at hnear
  have hn : n = p / q ∨ n = p / q + 1 := by
    have hlt₁ : n * q < p + q := by
      have : (n * q : ℚ) < p + q := by linarith
      exact_mod_cast this
    have hlt₂ : p < (n + 1) * q := by
      have : (p : ℚ) < (n + 1) * q := by linarith
      exact_mod_cast this
    have hle : n ≤ (p + q) / q := (Nat.le_div_iff_mul_le hq).mpr hlt₁.le
    have hlt : p / q < n + 1 := (Nat.div_lt_iff_lt_mul hq).mpr hlt₂
    rw [Nat.add_div_right p hq] at hle
    omega
  rw [onGrid_eq k hx]
  rcases hn with rfl | rfl
  · rw [h]
    split <;> simp_all
  · rw [h]
    split <;> simp_all

/--
If the finest grid meets the interval in one point, next to the value, then the search stops at
this point.
-/
theorem search_eq (hi : 0 < i.value.2) {finest : Int} {u : Nat}
    (hnear : |i.value.value / 10 ^ finest - u| < 1)
    (hmem : i.contains (ofPowerOfTen u finest) = true)
    (hunique : ∀ (n : Nat) (k : Int), finest ≤ k → i.contains (ofPowerOfTen n k) = true →
      (n : ℚ) * 10 ^ k = u * 10 ^ finest)
    {fuel : Nat} {k : Int} (hk : finest ≤ k) (hfuel : k - finest < fuel) :
    ∃ (n : Nat) (l : Int), i.search fuel k = (n, l) ∧ finest ≤ l ∧
      (n : ℚ) * 10 ^ l = u * 10 ^ finest := by
  induction fuel generalizing k with
  | zero => omega
  | succ fuel ih =>
    cases hgrid : i.onGrid k with
    | some n =>
      refine ⟨n, k, by simp only [Neighbourhood.search, hgrid], hk, ?_⟩
      exact hunique n k hk (onGrid_contains hgrid)
    | none =>
      have hne : k ≠ finest := by
        rintro rfl
        exact onGrid_ne_none hi hnear hmem hgrid
      obtain ⟨n, l, hsearch, h⟩ := ih (k := k - 1) (by omega) (by omega)
      exact ⟨n, l, by simpa only [Neighbourhood.search, hgrid] using hsearch, h⟩

end Search

section Hundredths

variable {m : Nat} {e : Int} {x : Fraction} {n : Nat}

theorem near_of_contains_narrow (hm : 0 < m) (he : e ≤ -10) (hx : 0 < x.2)
    (h : (neighbourhood m e).contains x = true) : |x.value - m * 2 ^ e| ≤ 1 / 2048 := by
  have hunit : (2 : ℚ) ^ e ≤ 1 / 1024 :=
    (zpow_le_zpow_right₀ one_le_two he).trans (by norm_num)
  have hnear := near_of_contains hm hx h
  linarith

theorem leadingPlace_range {r : ℚ} (hm : 0 < m) (hnear : |r - m * 2 ^ e| ≤ 1 / 2048)
    (hlow : 1 / 100 ≤ r) (hhigh : r < 2 ^ 48 / 100) :
    -3 < leadingPlace (neighbourhood m e).value ∧
      leadingPlace (neighbourhood m e).value - 1 < 13 := by
  have hvalue : (neighbourhood m e).value.value = m * 2 ^ e := fraction_value m e
  have hpos : 0 < (neighbourhood m e).value.1 := by
    have : (0 : ℚ) < m * 2 ^ e := by positivity
    rw [← hvalue, Fraction.value] at this
    exact Nat.pos_of_ne_zero fun h0 => by simp [h0] at this
  obtain ⟨hplace₁, hplace₂⟩ := leadingPlace_bounds hpos (fraction_pos m e)
  obtain ⟨hnear₁, hnear₂⟩ := abs_le.mp hnear
  rw [hvalue] at hplace₁ hplace₂
  constructor
  · have hlt : (10 : ℚ) ^ (-3 : Int) < 10 ^ leadingPlace (neighbourhood m e).value := by
      refine lt_trans ?_ hplace₂
      norm_num
      linarith
    rwa [zpow_lt_zpow_iff_right₀ (by norm_num)] at hlt
  · have hlt : (10 : ℚ) ^ (leadingPlace (neighbourhood m e).value - 1) < 10 ^ (13 : Int) := by
      refine lt_of_le_of_lt hplace₁ ?_
      norm_num
      linarith
    rwa [zpow_lt_zpow_iff_right₀ (by norm_num)] at hlt

theorem eq_of_contains_narrow (hm : 0 < m) (he : e ≤ -10)
    (hnear : |(n : ℚ) / 100 - m * 2 ^ e| ≤ 1 / 2048) {u : Nat} {k : Int} (hk : -3 ≤ k)
    (hu : (neighbourhood m e).contains (ofPowerOfTen u k) = true) :
    (u : ℚ) * 10 ^ k = n / 100 := by
  have hnear' := near_of_contains_narrow hm he (ofPowerOfTen_snd_pos u k) hu
  obtain ⟨j, hj⟩ := Int.eq_ofNat_of_zero_le (show 0 ≤ k + 3 by omega)
  have hthousandths : (u : ℚ) * 10 ^ k = ((u * 10 ^ j : Nat) : ℚ) / 1000 := by
    rw [show k = j + -3 by omega, zpow_add₀ (by norm_num), zpow_natCast]
    push_cast
    ring
  rw [ofPowerOfTen_value, hthousandths] at hnear'
  obtain ⟨hnear₁, hnear₂⟩ := abs_le.mp hnear
  obtain ⟨hnear₃, hnear₄⟩ := abs_le.mp hnear'
  have hlt₁ : ((u * 10 ^ j : Nat) : ℚ) < (10 * n : Nat) + 1 := by
    push_cast at *
    linarith
  have hlt₂ : ((10 * n : Nat) : ℚ) < (u * 10 ^ j : Nat) + 1 := by
    push_cast at *
    linarith
  norm_cast at hlt₁ hlt₂
  rw [hthousandths, show u * 10 ^ j = 10 * n by omega]
  push_cast
  ring

theorem exists_shortest_eq (hm : 0 < m) (he : e ≤ -10) (hx : 0 < x.2)
    (hvalue : x.value = (n : ℚ) / 100) (hn : 0 < n) (hbound : n < 2 ^ 48)
    (h : (neighbourhood m e).contains x = true) :
    ∃ (u : Nat) (l : Int), shortest m e = (u, l) ∧ -3 ≤ l ∧ (u : ℚ) * 10 ^ l = n / 100 := by
  have hn₁ : (1 : ℚ) ≤ n := Nat.one_le_cast.mpr hn
  have hn₂ : (n : ℚ) < 2 ^ 48 := by exact_mod_cast hbound
  have hnear := near_of_contains_narrow hm he hx h
  rw [hvalue] at hnear
  obtain ⟨hlow, hhigh⟩ := leadingPlace_range hm hnear (by linarith) (by linarith)
  -- Hundredths lie on the grid of thousandths, where the search ends at the latest.
  have hthousandths : ((10 * n : Nat) : ℚ) * 10 ^ (-3 : Int) = n / 100 := by
    push_cast
    ring
  rw [← hthousandths, shortest]
  apply search_eq (fraction_pos m e)
  · obtain ⟨hnear₁, hnear₂⟩ := abs_le.mp hnear
    have hm' : (neighbourhood m e).value.value = m * 2 ^ e := fraction_value m e
    rw [hm', abs_lt]
    push_cast
    norm_num
    constructor <;> linarith
  · rw [← h]
    apply contains_congr (ofPowerOfTen_snd_pos _ _) hx
    rw [ofPowerOfTen_value, hvalue, hthousandths]
  · intro u k hk hu
    rw [hthousandths]
    exact eq_of_contains_narrow hm he hnear hk hu
  · omega
  · rw [Nat.cast_ofNat]
    omega

end Hundredths

theorem trimZeros_append_zero (cs : List Char) : trimZeros (cs ++ ['0']) = trimZeros cs := by
  simp [trimZeros]

theorem toDigits_mul_ten {n : Nat} (h : 0 < n) :
    Nat.toDigits 10 (10 * n) = Nat.toDigits 10 n ++ ['0'] :=
  (Nat.toDigits_append_toDigits (by decide) h (by decide : 0 < 10)).symm

theorem positional_mul_ten (n : Nat) (k : Int) : positional (10 * n) (k - 1) = positional n k := by
  cases k with
  | ofNat k =>
    cases k with
    | zero =>
      rw [show Int.ofNat 0 - 1 = Int.negSucc 0 from rfl]
      simp [positional, trimZeros]
    | succ k =>
      rw [show Int.ofNat (k + 1) - 1 = Int.ofNat k from Int.add_sub_cancel k 1]
      simp only [positional]
      congr 1
      change 10 * n * 10 ^ k = n * 10 ^ (k + 1)
      ring
  | negSucc k =>
    rw [show Int.negSucc k - 1 = Int.negSucc (k + 1) from rfl]
    have hunit : Nat.pow 10 (k + 1 + 1) = 10 * Nat.pow 10 (k + 1) := Nat.pow_succ'
    simp only [positional, hunit, Nat.mul_mod_mul_left,
      Nat.mul_div_mul_left _ _ (by decide : 0 < 10)]
    generalize n % Nat.pow 10 (k + 1) = r
    have hplaces : trimZeros (List.replicate (k + 1 + 1 - (Nat.toDigits 10 (10 * r)).length) '0' ++
        Nat.toDigits 10 (10 * r)) =
      trimZeros (List.replicate (k + 1 - (Nat.toDigits 10 r).length) '0' ++ Nat.toDigits 10 r) := by
      rcases Nat.eq_zero_or_pos r with rfl | hr
      · have hzeros : List.replicate (k + 1) '0' = List.replicate k '0' ++ ['0'] :=
          List.replicate_succ'
        exact (trimZeros_append_zero (List.replicate (k + 1) '0')).trans (congrArg trimZeros hzeros)
      · rw [toDigits_mul_ten hr, List.length_append, List.length_singleton,
          Nat.add_sub_add_right, ← List.append_assoc, trimZeros_append_zero]
    rw [hplaces]

theorem positional_mul_pow (n j : Nat) (k : Int) :
    positional (n * 10 ^ j) (k - j) = positional n k := by
  induction j with
  | zero => simp
  | succ j ih =>
    rw [← ih, ← positional_mul_ten (n * 10 ^ j)]
    congr 1
    · ring
    · omega

theorem positional_eq_hundredths {u n : Nat} {l : Int} (hl : -3 ≤ l)
    (h : (u : ℚ) * 10 ^ l = n / 100) : positional u l = positional n (-2) := by
  have hten : (10 : ℚ) ≠ 0 := by norm_num
  obtain ⟨j, hj⟩ := Int.eq_ofNat_of_zero_le (show 0 ≤ l + 3 by omega)
  have hl : l = j - 3 := by omega
  have hwhole : u * 10 ^ j = 10 * n := by
    rw [hl, zpow_sub₀ hten, zpow_natCast] at h
    have : ((u * 10 ^ j : Nat) : ℚ) = (10 * n : Nat) := by
      push_cast
      norm_num at h
      linarith
    exact_mod_cast this
  calc positional u l = positional (u * 10 ^ j) (l - j) := (positional_mul_pow u j l).symm
    _ = positional (10 * n) (-2 - 1) := by rw [hwhole, show l - j = -2 - 1 by omega]
    _ = positional n (-2) := positional_mul_ten n (-2)

theorem places_eq : ∀ r < 100,
    (let places := trimZeros
        (List.replicate (2 - (Nat.toDigits 10 r).length) '0' ++ Nat.toDigits 10 r)
      if places = [] then [] else '.' :: places) = (placesText r).toList := by
  decide

theorem ofList_positional (n : Nat) : String.ofList (positional n (-2)) = hundredthsText n := by
  have hplaces := places_eq (n % 100) (Nat.mod_lt n (by decide))
  have hpositional : positional n (-2) = Nat.toDigits 10 (n / 100) ++
      let places := trimZeros (List.replicate (2 - (Nat.toDigits 10 (n % 100)).length) '0' ++
        Nat.toDigits 10 (n % 100))
      if places = [] then [] else '.' :: places := rfl
  rw [hpositional, hplaces, String.ofList_append, String.ofList_toList, hundredthsText_eq,
    if_neg (by omega), String.empty_append, natText, Int.natAbs_natCast]

theorem text_ofFraction (s : Bool) {p q n : Nat} (hq : 0 < q) (h : (p : ℚ) / q = (n : ℚ) / 100)
    (hn : 0 < n) (hbound : n < 2 ^ 48) :
    (ofFraction s p q).isZero = false ∧
      (ofFraction s p q).text = (if s then "-" else "") ++ hundredthsText n := by
  have hn₁ : (1 : ℚ) ≤ n := Nat.one_le_cast.mpr hn
  have hn₂ : (n : ℚ) < 2 ^ 48 := by exact_mod_cast hbound
  have hp : 0 < p := by
    refine Nat.pos_of_ne_zero fun h0 => ?_
    rw [h0, Nat.cast_zero, zero_div] at h
    linarith
  have hlow : -7 ≤ floorLog2 p q := le_floorLog2 hp hq (by rw [h]; norm_num; linarith)
  have hhigh : floorLog2 p q < 42 := floorLog2_lt hp hq (by rw [h]; norm_num; linarith)
  obtain ⟨m, e, hfinite, hm, he, hmem, -⟩ := exists_nearest s hp hq (by omega) (by omega)
  obtain ⟨u, l, hshortest, hl, hvalue⟩ :=
    @exists_shortest_eq m e (p, q) n hm (by omega) hq h hn hbound hmem
  rw [hfinite]
  constructor
  · exact beq_false_of_ne hm.ne'
  · rw [text, if_neg hm.ne', hshortest]
    simp only
    rw [positional_eq_hundredths hl hvalue, ofList_positional]

end Binary64

end SeaChart
