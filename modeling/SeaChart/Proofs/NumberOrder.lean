import Mathlib.Algebra.Order.Field.Rat
import Mathlib.Order.WithBot
import Mathlib.Tactic.FieldSimp
import SeaChart.Condition.Meaning

namespace SeaChart

namespace Binary64

def exact (negative : Bool) (mantissa : Nat) (exponent : Int) : ℚ :=
  (if negative then -(mantissa : ℚ) else mantissa) * 2 ^ exponent

def place : Binary64 → Option (WithBot (WithTop ℚ))
  | .finite s m e => some (exact s m e : WithTop ℚ)
  | .infinite s => some (if s then ⊥ else (⊤ : WithTop ℚ))
  | .nan => none

theorem place_eq_none_iff (x : Binary64) : x.place = none ↔ x = .nan := by
  cases x <;> simp [place]

theorem exists_place {x : Binary64} (h : x ≠ .nan) : ∃ a, x.place = some a :=
  Option.ne_none_iff_exists'.mp fun hn => h ((place_eq_none_iff x).mp hn)

theorem fraction_pos (m : Nat) (e : Int) : 0 < (fraction m e).2 := by
  cases e <;> simp [fraction]

theorem fraction_div (m : Nat) (e : Int) :
    ((fraction m e).1 : ℚ) / (fraction m e).2 = m * 2 ^ e := by
  cases e with
  | ofNat k => simp [fraction]
  | negSucc k => simp [fraction, zpow_negSucc, div_eq_mul_inv]

theorem exact_eq_div (s : Bool) (m : Nat) (e : Int) :
    exact s m e = (if s then -((fraction m e).1 : ℚ) else (fraction m e).1) / (fraction m e).2 := by
  cases s with
  | false => simp [exact, fraction_div]
  | true => simp [exact, neg_div, fraction_div]

theorem finite_lt_finite (s t : Bool) (m n : Nat) (e f : Int) :
    (finite s m e).lt (finite t n f) = true ↔ exact s m e < exact t n f := by
  have hb : (0 : ℚ) < (fraction m e).2 := by exact_mod_cast fraction_pos m e
  have hd : (0 : ℚ) < (fraction n f).2 := by exact_mod_cast fraction_pos n f
  rw [exact_eq_div, exact_eq_div, div_lt_div_iff₀ hb hd]
  simp only [lt, decide_eq_true_eq]
  rw [← Int.cast_lt (R := ℚ)]
  push_cast
  cases s <;> cases t <;> simp

theorem lt_iff (x y : Binary64) :
    x.lt y = true ↔ ∃ a b, x.place = some a ∧ y.place = some b ∧ a < b := by
  cases x with
  | finite s m e =>
    cases y with
    | finite t n f => simp [place, finite_lt_finite]
    | infinite t =>
      cases t with
      | false =>
        have h : ((exact s m e : WithTop ℚ) : WithBot (WithTop ℚ)) < (⊤ : WithTop ℚ) :=
          WithBot.coe_lt_coe.mpr (WithTop.coe_lt_top _)
        simpa [place, lt] using h
      | true => simp [place, lt]
    | nan => simp [place, lt]
  | infinite s =>
    cases y with
    | finite t n f => cases s <;> simp [place, lt]
    | infinite t => cases s <;> cases t <;> simp [place, lt]
    | nan => simp [place, lt]
  | nan => cases y <;> simp [place, lt]

theorem lt_eq_false_iff {x y : Binary64} {a b : WithBot (WithTop ℚ)} (ha : x.place = some a)
    (hb : y.place = some b) : x.lt y = false ↔ b ≤ a := by
  rw [← Bool.not_eq_true, lt_iff]
  simp [ha, hb]

theorem sameNumber_iff (x y : Binary64) :
    x.sameNumber y = true ↔ ∃ a, x.place = some a ∧ y.place = some a := by
  by_cases hx : x = .nan
  · simp [hx, sameNumber, place]
  by_cases hy : y = .nan
  · simp [hy, sameNumber, place]
  obtain ⟨a, ha⟩ := exists_place hx
  obtain ⟨b, hb⟩ := exists_place hy
  simp only [sameNumber, ne_eq, hx, hy, not_false_eq_true, decide_true, Bool.true_and,
    Bool.and_eq_true, Bool.not_eq_true', lt_eq_false_iff ha hb, lt_eq_false_iff hb ha]
  constructor
  · rintro ⟨hba, hab⟩
    exact ⟨a, ha, by rw [hb, le_antisymm hab hba]⟩
  · rintro ⟨c, hac, hbc⟩
    rw [ha] at hac
    rw [hb] at hbc
    cases hac
    cases hbc
    exact ⟨le_refl _, le_refl _⟩

end Binary64

namespace Comparison

open Binary64

theorem atLeast_iff (x y : Binary64) :
    atLeast.holds x y = true ↔ ∃ a b, x.place = some a ∧ y.place = some b ∧ b ≤ a := by
  simp only [holds, Bool.or_eq_true, lt_iff, sameNumber_iff]
  constructor
  · rintro (⟨b, a, hb, ha, h⟩ | ⟨a, hx, hy⟩)
    · exact ⟨a, b, ha, hb, h.le⟩
    · exact ⟨a, a, hx, hy, le_refl a⟩
  · rintro ⟨a, b, ha, hb, h⟩
    rcases h.lt_or_eq with h | h
    · exact Or.inl ⟨b, a, hb, ha, h⟩
    · exact Or.inr ⟨a, ha, h ▸ hb⟩

theorem atLeast_refl {x : Binary64} (h : x ≠ .nan) : atLeast.holds x x = true := by
  obtain ⟨a, ha⟩ := exists_place h
  exact (atLeast_iff x x).mpr ⟨a, a, ha, ha, le_refl a⟩

theorem atLeast_trans {x y z : Binary64} (hxy : atLeast.holds x y = true)
    (hyz : atLeast.holds y z = true) : atLeast.holds x z = true := by
  obtain ⟨a, b, ha, hb, hba⟩ := (atLeast_iff x y).mp hxy
  obtain ⟨b', c, hb', hc, hcb⟩ := (atLeast_iff y z).mp hyz
  rw [hb] at hb'
  cases hb'
  exact (atLeast_iff x z).mpr ⟨a, c, ha, hc, hcb.trans hba⟩

theorem not_less_of_atLeast {x y : Binary64} (h : atLeast.holds x y = true) :
    less.holds x y = false := by
  obtain ⟨a, b, ha, hb, hba⟩ := (atLeast_iff x y).mp h
  exact (lt_eq_false_iff ha hb).mpr hba

theorem atLeast_of_not_less {x y : Binary64} (hx : x ≠ .nan) (hy : y ≠ .nan)
    (h : less.holds x y = false) : atLeast.holds x y = true := by
  obtain ⟨a, ha⟩ := exists_place hx
  obtain ⟨b, hb⟩ := exists_place hy
  exact (atLeast_iff x y).mpr ⟨a, b, ha, hb, (lt_eq_false_iff ha hb).mp h⟩

end Comparison

end SeaChart
