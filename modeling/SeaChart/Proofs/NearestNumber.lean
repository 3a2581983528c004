import Mathlib.Algebra.Order.Field.Power
import Mathlib.Data.Rat.Floor
import Mathlib.Tactic.Linarith
import Mathlib.Tactic.Positivity
import Mathlib.Tactic.Ring
import SeaChart.Number.Shortest
import SeaChart.Proofs.NumberOrder

/-!
Rounding to the nearest number. A fraction that a number can stand for is kept, and every other one
lies in the neighbourhood of the number that it is rounded to.
-/

namespace SeaChart.Binary64

namespace Fraction

def value (x : Fraction) : ℚ :=
  x.1 / x.2

theorem le_iff {x y : Fraction} (hx : 0 < x.2) (hy : 0 < y.2) :
    x.le y = true ↔ x.value ≤ y.value := by
  have hx' : (0 : ℚ) < x.2 := Nat.cast_pos.mpr hx
  have hy' : (0 : ℚ) < y.2 := Nat.cast_pos.mpr hy
  rw [value, value, div_le_div_iff₀ hx' hy', le, decide_eq_true_eq]
  exact_mod_cast Iff.rfl

theorem lt_iff {x y : Fraction} (hx : 0 < x.2) (hy : 0 < y.2) :
    x.lt y = true ↔ x.value < y.value := by
  have hx' : (0 : ℚ) < x.2 := Nat.cast_pos.mpr hx
  have hy' : (0 : ℚ) < y.2 := Nat.cast_pos.mpr hy
  rw [value, value, div_lt_div_iff₀ hx' hy', lt, decide_eq_true_eq]
  exact_mod_cast Iff.rfl

end Fraction

theorem scale_snd_pos (p : Nat) {q : Nat} (hq : 0 < q) (e : Int) : 0 < (scale p q e).2 := by
  cases e with
  | ofNat k => exact Nat.mul_pos hq (Nat.pow_pos (by decide))
  | negSucc k => exact hq

theorem scale_value (p q : Nat) (e : Int) :
    Fraction.value (scale p q e) = (p : ℚ) / q / 2 ^ e := by
  cases e with
  | ofNat k => simp [scale, Fraction.value, div_div]
  | negSucc k => simp [scale, Fraction.value, zpow_negSucc, div_mul_eq_mul_div]

theorem cast_log2_bounds {n : Nat} (h : 0 < n) :
    (2 : ℚ) ^ (n.log2 : Int) ≤ n ∧ (n : ℚ) < 2 ^ ((n.log2 : Int) + 1) := by
  have hlow := Nat.log2_self_le h.ne'
  have hhigh := @Nat.lt_log2_self n
  constructor
  · rw [zpow_natCast]
    exact_mod_cast hlow
  · rw [← Nat.cast_add_one, zpow_natCast]
    exact_mod_cast hhigh

theorem floorLog2_bounds {p q : Nat} (hp : 0 < p) (hq : 0 < q) :
    (2 : ℚ) ^ floorLog2 p q ≤ (p : ℚ) / q ∧ (p : ℚ) / q < 2 ^ (floorLog2 p q + 1) := by
  have hq' : (0 : ℚ) < q := Nat.cast_pos.mpr hq
  obtain ⟨hlowp, hhighp⟩ := cast_log2_bounds hp
  obtain ⟨hlowq, hhighq⟩ := cast_log2_bounds hq
  have hbelow : (2 : ℚ) ^ ((p.log2 : Int) - q.log2 - 1) ≤ p / q := by
    rw [le_div_iff₀ hq']
    calc (2 : ℚ) ^ ((p.log2 : Int) - q.log2 - 1) * q
        ≤ 2 ^ ((p.log2 : Int) - q.log2 - 1) * 2 ^ ((q.log2 : Int) + 1) := by gcongr
      _ = 2 ^ (p.log2 : Int) := by rw [← zpow_add₀ two_ne_zero]; congr 1; ring
      _ ≤ p := hlowp
  have habove : (p : ℚ) / q < 2 ^ ((p.log2 : Int) - q.log2 + 1) := by
    rw [div_lt_iff₀ hq']
    calc (p : ℚ) < 2 ^ ((p.log2 : Int) + 1) := hhighp
      _ = 2 ^ ((p.log2 : Int) - q.log2 + 1) * 2 ^ (q.log2 : Int) := by
        rw [← zpow_add₀ two_ne_zero]; congr 1; ring
      _ ≤ 2 ^ ((p.log2 : Int) - q.log2 + 1) * q := by gcongr
  have htest : (scale p q (p.log2 - q.log2)).2 ≤ (scale p q (p.log2 - q.log2)).1 ↔
      (2 : ℚ) ^ ((p.log2 : Int) - q.log2) ≤ p / q := by
    have hpos : (0 : ℚ) < (scale p q (p.log2 - q.log2)).2 := Nat.cast_pos.mpr (scale_snd_pos p hq _)
    rw [← one_le_div₀ (zpow_pos two_pos _), ← scale_value, Fraction.value, one_le_div₀ hpos,
      Nat.cast_le]
  simp only [floorLog2, htest]
  split
  · next h => exact ⟨h, habove⟩
  · next h => exact ⟨hbelow, by simpa using not_le.mp h⟩

theorem le_floorLog2 {p q : Nat} (hp : 0 < p) (hq : 0 < q) {a : Int}
    (h : (2 : ℚ) ^ a ≤ (p : ℚ) / q) : a ≤ floorLog2 p q := by
  have hlt := h.trans_lt (floorLog2_bounds hp hq).2
  rw [zpow_lt_zpow_iff_right₀ one_lt_two] at hlt
  omega

theorem floorLog2_lt {p q : Nat} (hp : 0 < p) (hq : 0 < q) {a : Int}
    (h : (p : ℚ) / q < 2 ^ a) : floorLog2 p q < a := by
  have hlt := (floorLog2_bounds hp hq).1.trans_lt h
  rwa [zpow_lt_zpow_iff_right₀ one_lt_two] at hlt

theorem roundToEven_near (n : Nat) {d : Nat} (hd : 0 < d) :
    |(n : ℚ) / d - roundToEven n d| ≤ 1 / 2 ∧
      (|(n : ℚ) / d - roundToEven n d| = 1 / 2 → roundToEven n d % 2 = 0) := by
  have hd' : (0 : ℚ) < d := Nat.cast_pos.mpr hd
  have hn : (n : ℚ) = d * (n / d : Nat) + (n % d : Nat) := by
    exact_mod_cast (Nat.div_add_mod n d).symm
  have hmod : ((n % d : Nat) : ℚ) < d := by exact_mod_cast Nat.mod_lt n hd
  have hnonneg : (0 : ℚ) ≤ (n % d : Nat) := Nat.cast_nonneg _
  have hquotient : (n : ℚ) / d = (n / d : Nat) + (n % d : Nat) / d := by
    rw [hn]
    field_simp
  rw [hquotient, roundToEven]
  split
  · next h =>
    have hhalf : ((n % d : Nat) : ℚ) / d ≤ 1 / 2 := by
      rw [div_le_div_iff₀ hd' two_pos]
      have : 2 * (n % d) ≤ d := by omega
      exact_mod_cast (by omega : n % d * 2 ≤ 1 * d)
    rw [add_sub_cancel_left, abs_of_nonneg (by positivity)]
    refine ⟨hhalf, fun htie => ?_⟩
    rw [div_eq_div_iff hd'.ne' two_ne_zero] at htie
    have : n % d * 2 = 1 * d := by exact_mod_cast htie
    omega
  · next h =>
    have hhalf : 1 / 2 ≤ ((n % d : Nat) : ℚ) / d := by
      rw [div_le_div_iff₀ two_pos hd']
      exact_mod_cast (by omega : 1 * d ≤ n % d * 2)
    have hone : ((n % d : Nat) : ℚ) / d < 1 := (div_lt_one₀ hd').mpr hmod
    rw [Nat.cast_add_one, add_sub_add_left_eq_sub, abs_of_neg (by linarith)]
    refine ⟨by linarith, fun htie => ?_⟩
    have hmid : ((n % d : Nat) : ℚ) / d = 1 / 2 := by linarith
    rw [div_eq_div_iff hd'.ne' two_ne_zero] at hmid
    have : n % d * 2 = 1 * d := by exact_mod_cast hmid
    omega

theorem roundHalfUp_eq_floor (n : Nat) {d : Nat} (hd : 0 < d) :
    (roundHalfUp n d : Int) = ⌊(n : ℚ) / d + 1 / 2⌋ := by
  have hd' : (d : ℚ) ≠ 0 := Nat.cast_ne_zero.mpr hd.ne'
  have hhalf : (n : ℚ) / d + 1 / 2 = ((2 * n + d : Nat) : ℚ) / (2 * d : Nat) := by
    push_cast
    field_simp
  rw [hhalf, Rat.floor_natCast_div_natCast, roundHalfUp, Int.natCast_ediv]

theorem fraction_value (m : Nat) (e : Int) : Fraction.value (fraction m e) = m * 2 ^ e :=
  fraction_div m e

section Neighbourhood

variable {m : Nat} {e : Int} {x : Fraction}

theorem value_high : (neighbourhood m e).high.value = (m + 1 / 2) * 2 ^ e := by
  rw [neighbourhood, fraction_value, zpow_sub_one₀ two_ne_zero]
  push_cast
  ring

theorem value_low (hm : 0 < m) : (neighbourhood m e).low.value =
    (m - if m = mantissaBound / 2 ∧ minExponent < e then 1 / 4 else 1 / 2) * 2 ^ e := by
  simp only [neighbourhood]
  split
  · rw [fraction_value, Nat.cast_sub (by omega), zpow_sub₀ two_ne_zero]
    push_cast
    ring
  · rw [fraction_value, Nat.cast_sub (by omega), zpow_sub_one₀ two_ne_zero]
    push_cast
    ring

theorem low_pos : 0 < (neighbourhood m e).low.2 := by
  simp only [neighbourhood]
  split <;> exact fraction_pos _ _

theorem high_pos : 0 < (neighbourhood m e).high.2 :=
  fraction_pos _ _

theorem contains_iff (hx : 0 < x.2) : (neighbourhood m e).contains x = true ↔
    if m % 2 = 0 then
      (neighbourhood m e).low.value ≤ x.value ∧ x.value ≤ (neighbourhood m e).high.value
    else (neighbourhood m e).low.value < x.value ∧ x.value < (neighbourhood m e).high.value := by
  have hclosed : (neighbourhood m e).closed = (m % 2 == 0) := rfl
  rw [Neighbourhood.contains, hclosed]
  by_cases hm : m % 2 = 0
  · simp [hm, Fraction.le_iff low_pos hx, Fraction.le_iff hx high_pos]
  · simp [hm, Fraction.lt_iff low_pos hx, Fraction.lt_iff hx high_pos]

theorem contains_congr {y : Fraction} (hx : 0 < x.2) (hy : 0 < y.2) (h : x.value = y.value) :
    (neighbourhood m e).contains x = (neighbourhood m e).contains y := by
  rw [Bool.eq_iff_iff, contains_iff hx, contains_iff hy, h]

theorem near_of_contains (hm : 0 < m) (hx : 0 < x.2)
    (h : (neighbourhood m e).contains x = true) : |x.value - m * 2 ^ e| ≤ 2 ^ e / 2 := by
  have hpos : (0 : ℚ) < 2 ^ e := zpow_pos two_pos e
  have hbounds : (neighbourhood m e).low.value ≤ x.value ∧
      x.value ≤ (neighbourhood m e).high.value := by
    rw [contains_iff hx] at h
    split at h
    · exact h
    · exact ⟨h.1.le, h.2.le⟩
  have hlow : ((m : ℚ) - 1 / 2) * 2 ^ e ≤ (neighbourhood m e).low.value := by
    rw [value_low hm]
    gcongr
    split <;> norm_num
  rw [value_high] at hbounds
  rw [abs_le]
  constructor <;> linarith

theorem contains_of_near {r : ℚ} (hm : 0 < m) (hx : 0 < x.2) (hr : x.value = r * 2 ^ e)
    (hnear : |r - m| ≤ 1 / 2) (htie : |r - m| = 1 / 2 → m % 2 = 0)
    (hpower : m = mantissaBound / 2 → (m : ℚ) - 1 / 4 ≤ r) :
    (neighbourhood m e).contains x = true := by
  have hpos : (0 : ℚ) < 2 ^ e := zpow_pos two_pos e
  rw [contains_iff hx, value_low hm, value_high, hr]
  simp only [mul_le_mul_iff_left₀ hpos, mul_lt_mul_iff_left₀ hpos]
  have heven : m = mantissaBound / 2 → m % 2 = 0 := fun h => by rw [h]; decide
  obtain ⟨hlow, hhigh⟩ := abs_le.mp hnear
  by_cases hclosed : m % 2 = 0
  · rw [if_pos hclosed]
    refine ⟨?_, by linarith⟩
    split
    · next h => exact hpower h.1
    · linarith
  · have hne := mt htie hclosed
    have hlow' : m - 1 / 2 < r := lt_of_le_of_ne (by linarith) fun h => hne (by
      rw [← h, abs_of_neg] <;> norm_num)
    have hhigh' : r < m + 1 / 2 := lt_of_le_of_ne (by linarith) fun h => hne (by
      rw [h, abs_of_pos] <;> norm_num)
    rw [if_neg hclosed, if_neg fun h => hclosed (heven h.1)]
    exact ⟨hlow', hhigh'⟩

theorem half_mantissaBound : ((mantissaBound / 2 : Nat) : ℚ) = (mantissaBound : ℚ) / 2 := by
  norm_num [mantissaBound]

theorem contains_of_carry {r : ℚ} (hx : 0 < x.2) (hr : x.value = r * 2 ^ e)
    (hnear : |r - mantissaBound| ≤ 1 / 2) :
    (neighbourhood (mantissaBound / 2) (e + 1)).contains x = true := by
  have hdistance : |r / 2 - (mantissaBound / 2 : Nat)| ≤ 1 / 4 := by
    rw [half_mantissaBound, ← sub_div, abs_div, abs_two]
    linarith
  have hvalue : x.value = r / 2 * 2 ^ (e + 1) := by
    rw [hr, zpow_add_one₀ two_ne_zero]
    ring
  apply contains_of_near (by decide) hx hvalue (hdistance.trans (by norm_num))
  · intro h
    rw [h] at hdistance
    norm_num at hdistance
  · intro _
    linarith [(abs_le.mp hdistance).1]

end Neighbourhood

theorem exists_scaled_eq {p q n : Nat} {f k : Int} (h : (p : ℚ) / q = n * 2 ^ f)
    (hn : n < mantissaBound) (hk : (2 : ℚ) ^ k ≤ p / q) :
    ∃ u : Nat, (p : ℚ) / q / 2 ^ (k - 52) = u := by
  have hbound : (n : ℚ) < 2 ^ (53 : Int) := by
    rw [mantissaBound] at hn
    exact_mod_cast hn
  have hlt : (2 : ℚ) ^ k < 2 ^ (53 + f) := by
    rw [zpow_add₀ two_ne_zero]
    exact (hk.trans_eq h).trans_lt (mul_lt_mul_of_pos_right hbound (zpow_pos two_pos f))
  rw [zpow_lt_zpow_iff_right₀ one_lt_two] at hlt
  obtain ⟨j, hj⟩ := Int.eq_ofNat_of_zero_le (show 0 ≤ f - (k - 52) by omega)
  refine ⟨n * 2 ^ j, ?_⟩
  rw [h, mul_div_assoc, ← zpow_sub₀ two_ne_zero, hj]
  push_cast
  rfl

def inUnits (p q : Nat) : ℚ :=
  (p : ℚ) / q / 2 ^ (floorLog2 p q - 52)

theorem value_eq_inUnits (p q : Nat) :
    (p : ℚ) / q = inUnits p q * 2 ^ (floorLog2 p q - 52) := by
  rw [inUnits, div_mul_cancel₀ _ (zpow_pos two_pos _).ne']

def nearestUnits (p q : Nat) : Nat :=
  roundToEven (scale p q (floorLog2 p q - 52)).1 (scale p q (floorLog2 p q - 52)).2

theorem nearestUnits_near (p : Nat) {q : Nat} (hq : 0 < q) :
    |inUnits p q - nearestUnits p q| ≤ 1 / 2 ∧
      (|inUnits p q - nearestUnits p q| = 1 / 2 → nearestUnits p q % 2 = 0) := by
  have h := roundToEven_near (scale p q (floorLog2 p q - 52)).1
    (scale_snd_pos p hq (floorLog2 p q - 52))
  have hscale := scale_value p q (floorLog2 p q - 52)
  rw [Fraction.value] at hscale
  rwa [hscale] at h

theorem inUnits_bounds {p q : Nat} (hp : 0 < p) (hq : 0 < q) :
    2 ^ 52 ≤ inUnits p q ∧ inUnits p q < 2 ^ 53 := by
  obtain ⟨hbelow, habove⟩ := floorLog2_bounds hp hq
  have hpos : (0 : ℚ) < 2 ^ (floorLog2 p q - 52) := zpow_pos two_pos _
  rw [inUnits, le_div_iff₀ hpos, div_lt_iff₀ hpos, ← zpow_natCast, ← zpow_natCast,
    ← zpow_add₀ two_ne_zero, ← zpow_add₀ two_ne_zero, Nat.cast_ofNat, Nat.cast_ofNat,
    show 52 + (floorLog2 p q - 52) = floorLog2 p q by omega,
    show 53 + (floorLog2 p q - 52) = floorLog2 p q + 1 by omega]
  exact ⟨hbelow, habove⟩

theorem ofFraction_eq (s : Bool) {p : Nat} (q : Nat) (hp : 0 < p)
    (hlow : -1022 ≤ floorLog2 p q) (hhigh : floorLog2 p q ≤ 1022) :
    ofFraction s p q =
      if nearestUnits p q = mantissaBound then
        finite s (nearestUnits p q / 2) (floorLog2 p q - 52 + 1)
      else finite s (nearestUnits p q) (floorLog2 p q - 52) := by
  have hmax : max minExponent (floorLog2 p q - 52) = floorLog2 p q - 52 :=
    max_eq_right (by rw [minExponent]; omega)
  have hlarge : ¬maxExponent < floorLog2 p q - 52 + 1 := by rw [maxExponent]; omega
  have hlarge' : ¬maxExponent < floorLog2 p q - 52 := by rw [maxExponent]; omega
  have hunits : roundToEven (scale p q (floorLog2 p q - 52)).1 (scale p q (floorLog2 p q - 52)).2 =
      nearestUnits p q := rfl
  simp only [ofFraction, hp.ne', if_false, hmax, hunits]
  by_cases hcarry : nearestUnits p q = mantissaBound
  · simp only [hcarry, if_true, hlarge, if_false]
  · simp only [hcarry, if_false, hlarge']

theorem nearestUnits_exact {p q n : Nat} {f : Int} (hp : 0 < p) (hq : 0 < q)
    (h : (p : ℚ) / q = n * 2 ^ f) (hn : n < mantissaBound) :
    (nearestUnits p q : ℚ) * 2 ^ (floorLog2 p q - 52) = p / q := by
  obtain ⟨hnear₁, hnear₂⟩ := abs_le.mp (nearestUnits_near p hq).1
  obtain ⟨u, hu⟩ := exists_scaled_eq h hn (floorLog2_bounds hp hq).1
  rw [← inUnits] at hu
  have hlt₁ : (u : ℚ) < nearestUnits p q + 1 := by linarith
  have hlt₂ : (nearestUnits p q : ℚ) < u + 1 := by linarith
  norm_cast at hlt₁ hlt₂
  rw [value_eq_inUnits, hu, show u = nearestUnits p q by omega]

theorem exists_nearest (s : Bool) {p q : Nat} (hp : 0 < p) (hq : 0 < q)
    (hlow : -1022 ≤ floorLog2 p q) (hhigh : floorLog2 p q ≤ 1022) :
    ∃ m e, ofFraction s p q = finite s m e ∧ 0 < m ∧ e ≤ floorLog2 p q - 51 ∧
      (neighbourhood m e).contains (p, q) = true ∧
      ∀ (n : Nat) (f : Int), (p : ℚ) / q = n * 2 ^ f → n < mantissaBound →
        (m : ℚ) * 2 ^ e = p / q := by
  obtain ⟨hnear, htie⟩ := nearestUnits_near p hq
  have hvalue : Fraction.value (p, q) = inUnits p q * 2 ^ (floorLog2 p q - 52) :=
    value_eq_inUnits p q
  have hexact : ∀ (n : Nat) (f : Int), (p : ℚ) / q = n * 2 ^ f → n < mantissaBound →
      (nearestUnits p q : ℚ) * 2 ^ (floorLog2 p q - 52) = p / q :=
    fun n f h hn => nearestUnits_exact hp hq h hn
  rw [ofFraction_eq s q hp hlow hhigh]
  split
  · next hcarry =>
    rw [hcarry] at hnear hexact ⊢
    refine ⟨mantissaBound / 2, floorLog2 p q - 52 + 1, rfl, by decide, by omega,
      contains_of_carry hq hvalue hnear, ?_⟩
    intro n f h hn
    rw [← hexact n f h hn, half_mantissaBound, zpow_add_one₀ two_ne_zero]
    ring
  · obtain ⟨hrlow, -⟩ := inUnits_bounds hp hq
    have hpos : 0 < nearestUnits p q := by
      have : (0 : ℚ) < nearestUnits p q := by linarith [(abs_le.mp hnear).2]
      exact_mod_cast this
    refine ⟨nearestUnits p q, floorLog2 p q - 52, rfl, hpos, by omega, ?_, hexact⟩
    apply contains_of_near hpos hq hvalue hnear htie
    intro h
    rw [h, half_mantissaBound, mantissaBound]
    push_cast
    linarith

def HasValue (x : Binary64) (s : Bool) (r : ℚ) : Prop :=
  ∃ m e, x = finite s m e ∧ (m : ℚ) * 2 ^ e = r

theorem ofFraction_hasValue (s : Bool) {p q n : Nat} {f : Int} (hq : 0 < q)
    (h : (p : ℚ) / q = n * 2 ^ f) (hn : n < mantissaBound) (hlow : -1022 ≤ f) (hhigh : f ≤ 970) :
    (ofFraction s p q).HasValue s (p / q) := by
  rcases Nat.eq_zero_or_pos p with rfl | hp
  · exact ⟨0, minExponent, by simp [ofFraction, zero], by simp⟩
  have hpos : (0 : ℚ) < 2 ^ f := zpow_pos two_pos f
  have hn0 : n ≠ 0 := by
    rintro rfl
    rw [Nat.cast_zero, zero_mul, div_eq_zero_iff, Nat.cast_eq_zero, Nat.cast_eq_zero] at h
    omega
  have hbelow : (2 : ℚ) ^ f ≤ p / q := by
    rw [h]
    exact le_mul_of_one_le_left hpos.le (Nat.one_le_cast.mpr (Nat.one_le_iff_ne_zero.mpr hn0))
  have habove : (p : ℚ) / q < 2 ^ (53 + f) := by
    rw [h, zpow_add₀ two_ne_zero]
    gcongr
    rw [mantissaBound] at hn
    exact_mod_cast hn
  have hlow' := le_floorLog2 hp hq hbelow
  have hhigh' := floorLog2_lt hp hq habove
  obtain ⟨m, e, hfinite, -, -, -, hexact⟩ := exists_nearest s hp hq (by omega) (by omega)
  exact ⟨m, e, hfinite, hexact n f h hn⟩

theorem whole_hasValue (s : Bool) {n : Nat} (h : n < mantissaBound) :
    (ofFraction s n 1).HasValue s n := by
  have hvalue : (n : ℚ) / (1 : Nat) = n * 2 ^ (0 : Int) := by simp
  have hexact := ofFraction_hasValue s Nat.one_pos hvalue h (by decide) (by decide)
  rwa [Nat.cast_one, div_one] at hexact

theorem ofNat_hasValue {n : Nat} (h : n < mantissaBound) : (ofNat n).HasValue false n :=
  whole_hasValue false h

theorem ofInt_hasValue {d : Int} (h : d.natAbs < mantissaBound) :
    (ofInt d).HasValue (d < 0) d.natAbs := by
  cases d with
  | ofNat n => exact whole_hasValue false h
  | negSucc n =>
    rw [decide_eq_true (Int.negSucc_lt_zero n)]
    exact whole_hasValue true h

def div : Binary64 → Binary64 → Binary64
  | .finite s m e, .finite t n f =>
    let (a, b) := fraction m e
    let (c, d) := fraction n f
    if n ≠ 0 then ofFraction (s != t) (a * d) (b * c)
    else if m = 0 then .nan else .infinite (s != t)
  | .nan, _ => .nan
  | _, .nan => .nan
  | .infinite _, .infinite _ => .nan
  | .infinite s, .finite t _ _ => .infinite (s != t)
  | .finite s _ _, .infinite t => zero (s != t)

section Values

variable {x y : Binary64} {s t : Bool} {r u : ℚ}

theorem HasValue.exists_mul (hx : x.HasValue s r) (hy : y.HasValue t u) :
    ∃ p q, 0 < q ∧ x.mul y = ofFraction (s != t) p q ∧ (p : ℚ) / q = r * u := by
  obtain ⟨m, e, rfl, rfl⟩ := hx
  obtain ⟨n, f, rfl, rfl⟩ := hy
  refine ⟨(fraction (m * n) (e + f)).1, _, fraction_pos (m * n) (e + f), rfl, ?_⟩
  rw [fraction_div, zpow_add₀ two_ne_zero]
  push_cast
  ring

theorem HasValue.exists_div (hx : x.HasValue s r) (hy : y.HasValue t u) (hu : u ≠ 0) :
    ∃ p q, 0 < q ∧ x.div y = ofFraction (s != t) p q ∧ (p : ℚ) / q = r / u := by
  obtain ⟨m, e, rfl, rfl⟩ := hx
  obtain ⟨n, f, rfl, rfl⟩ := hy
  have hn : n ≠ 0 := by
    rintro rfl
    simp at hu
  have hnumerator : 0 < (fraction n f).1 := by
    cases f with
    | ofNat k => exact Nat.mul_pos (Nat.pos_of_ne_zero hn) (Nat.pow_pos (by decide))
    | negSucc k => exact Nat.pos_of_ne_zero hn
  refine ⟨_, _, Nat.mul_pos (fraction_pos m e) hnumerator, if_pos hn, ?_⟩
  rw [← fraction_div m e, ← fraction_div n f, div_div_div_eq]
  push_cast
  rfl

theorem HasValue.mul (hx : x.HasValue s r) (hy : y.HasValue t u) {n : Nat} (f : Int)
    (h : r * u = n * 2 ^ f) (hn : n < mantissaBound) (hlow : -1022 ≤ f) (hhigh : f ≤ 970) :
    (x.mul y).HasValue (s != t) (r * u) := by
  obtain ⟨p, q, hq, heq, hvalue⟩ := hx.exists_mul hy
  rw [heq, ← hvalue]
  exact ofFraction_hasValue _ hq (hvalue.trans h) hn hlow hhigh

theorem HasValue.div (hx : x.HasValue s r) (hy : y.HasValue t u) (hu : u ≠ 0) {n : Nat} (f : Int)
    (h : r / u = n * 2 ^ f) (hn : n < mantissaBound) (hlow : -1022 ≤ f) (hhigh : f ≤ 970) :
    (x.div y).HasValue (s != t) (r / u) := by
  obtain ⟨p, q, hq, heq, hvalue⟩ := hx.exists_div hy hu
  rw [heq, ← hvalue]
  exact ofFraction_hasValue _ hq (hvalue.trans h) hn hlow hhigh

theorem HasValue.round {n : Nat} (hx : x.HasValue s r) (hn : (n : Int) = ⌊r + 1 / 2⌋)
    (hbound : n < mantissaBound) : x.round.HasValue s n := by
  obtain ⟨m, e, rfl, rfl⟩ := hx
  have hround : roundHalfUp (fraction m e).1 (fraction m e).2 = n := by
    rw [← Int.natCast_inj, roundHalfUp_eq_floor _ (fraction_pos m e), fraction_div, hn]
  have hwhole : (ofFraction s (roundHalfUp (fraction m e).1 (fraction m e).2) 1).HasValue s n :=
    hround.symm ▸ whole_hasValue s hbound
  exact hwhole

end Values

end SeaChart.Binary64
