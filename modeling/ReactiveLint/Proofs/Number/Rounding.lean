import Mathlib.Algebra.Order.Field.Power
import Mathlib.Data.Nat.Log
import Mathlib.Data.Rat.Cast.Order
import Mathlib.Tactic.FieldSimp
import Mathlib.Tactic.Linarith
import Mathlib.Tactic.NormNum
import Mathlib.Tactic.Positivity
import Mathlib.Tactic.Push
import Mathlib.Tactic.Ring
import ReactiveLint.Number.Decimal

/-!
# Rounding to the nearest number

A quotient has one exponent at which its significand has 53 bits, or the least one.  All
quotients of the rounding interval of a number round to that number.
-/

namespace ReactiveLint.Number

variable {num den significand : Nat} {exponent : Int}

/-! ## Quotients -/

theorem unscale_spec (num : Nat) (hden : 0 < den) (exponent : Int) :
    0 < (unscale num den exponent).2 ∧
      ((unscale num den exponent).1 : ℚ) / (unscale num den exponent).2 =
        (num / den : ℚ) / 2 ^ exponent := by
  have hden' : (den : ℚ) ≠ 0 := by positivity
  cases exponent with
  | ofNat exponent =>
      refine ⟨by simp [unscale]; positivity, ?_⟩
      simp only [unscale, Nat.pow_eq, Nat.cast_mul, Nat.cast_pow, Nat.cast_ofNat, Int.ofNat_eq_natCast,
        zpow_natCast]
      field_simp
  | negSucc exponent =>
      refine ⟨by simpa [unscale] using hden, ?_⟩
      simp only [unscale, Nat.pow_eq, Nat.cast_mul, Nat.cast_pow, Nat.cast_ofNat, zpow_negSucc]
      field_simp

theorem magnitude_spec (significand : Nat) (exponent : Int) :
    0 < (magnitude significand exponent).2 ∧
      ((magnitude significand exponent).1 : ℚ) / (magnitude significand exponent).2 =
        significand * 2 ^ exponent := by
  cases exponent with
  | ofNat exponent => simp [magnitude]
  | negSucc exponent =>
      refine ⟨by simp [magnitude], ?_⟩
      simp only [magnitude, Nat.pow_eq, Nat.cast_pow, Nat.cast_ofNat, zpow_negSucc]
      rfl

theorem scaleTen_spec (n : Nat) (exponent : Int) :
    0 < (scaleTen n exponent).2 ∧
      ((scaleTen n exponent).1 : ℚ) / (scaleTen n exponent).2 = n * 10 ^ exponent := by
  cases exponent with
  | ofNat exponent => simp [scaleTen]
  | negSucc exponent =>
      refine ⟨by simp [scaleTen], ?_⟩
      simp only [scaleTen, Nat.pow_eq, Nat.cast_pow, Nat.cast_ofNat, zpow_negSucc]
      rfl

/-- A quotient within half a unit of a natural number rounds to it, and at half a unit to
an even one. -/
theorem roundHalfEven_eq {n : Nat} (hden : 0 < den) (hlow : 2 * n * den ≤ 2 * num + den)
    (hhigh : 2 * num ≤ (2 * n + 1) * den)
    (hodd : n % 2 = 1 → 2 * n * den < 2 * num + den ∧ 2 * num < (2 * n + 1) * den) :
    roundHalfEven num den = n := by
  have hsplit := Nat.div_add_mod num den
  have hrest := Nat.mod_lt num hden
  simp only [roundHalfEven]
  generalize num / den = quotient at *
  generalize num % den = rest at *
  subst hsplit
  have hle : quotient ≤ n := by
    by_contra hlt
    have hmul := Nat.mul_le_mul_left den (Nat.lt_of_not_le hlt)
    rw [Nat.mul_succ] at hmul
    linarith
  have hge : n ≤ quotient + 1 := by
    by_contra hlt
    have hmul := Nat.mul_le_mul_left den (Nat.lt_of_not_le hlt)
    rw [Nat.mul_succ, Nat.mul_succ] at hmul
    linarith
  rcases Nat.lt_or_eq_of_le hle with hlt | rfl
  · obtain rfl : n = quotient + 1 := by omega
    have hhalf : den ≤ 2 * rest := by linarith
    split_ifs with hbelow habove heven
    · omega
    · rfl
    · have hstrict := (hodd (by omega)).1
      linarith
    · rfl
  · have hhalf : 2 * rest ≤ den := by linarith
    split_ifs with hbelow habove heven
    · rfl
    · omega
    · rfl
    · have hstrict := (hodd (by omega)).2
      linarith

/-! ## The exponent of a quotient -/

/-- The significand of a quotient at an exponent has 53 bits, or fewer at the least
exponent. -/
structure IsExponent (q : ℚ) (exponent : Int) : Prop where
  least_le : leastExponent ≤ exponent
  lt_limit : q < 2 ^ 53 * 2 ^ exponent
  limit_le : leastExponent < exponent → 2 ^ 52 * 2 ^ exponent ≤ q

theorem IsExponent.unique {q : ℚ} {left right : Int} (hleft : IsExponent q left)
    (hright : IsExponent q right) : left = right := by
  have hnot : ∀ {low high : Int}, IsExponent q low → IsExponent q high → ¬ low < high := by
    intro low high hlow hhigh hlt
    have hstep : (2 : ℚ) ^ (low + 1) ≤ 2 ^ high := zpow_le_zpow_right₀ (by norm_num) (by omega)
    rw [zpow_add_one₀ (by norm_num)] at hstep
    have hle := hhigh.limit_le (lt_of_le_of_lt hlow.least_le hlt)
    have hlt' := hlow.lt_limit
    linarith
  exact le_antisymm (not_lt.mp (hnot hright hleft)) (not_lt.mp (hnot hleft hright))

theorem log2_bounds (hnum : 0 < num) (hden : 0 < den) :
    (2 : ℚ) ^ ((Nat.log2 num : Int) - Nat.log2 den - 1) < num / den ∧
      (num / den : ℚ) < 2 ^ ((Nat.log2 num : Int) - Nat.log2 den + 1) := by
  have hnum_low : (2 : ℚ) ^ (Nat.log2 num : Int) ≤ num := by
    exact_mod_cast Nat.log2_self_le hnum.ne'
  have hnum_high : (num : ℚ) < 2 ^ ((Nat.log2 num : Int) + 1) := by
    exact_mod_cast Nat.lt_log2_self
  have hden_low : (2 : ℚ) ^ (Nat.log2 den : Int) ≤ den := by
    exact_mod_cast Nat.log2_self_le hden.ne'
  have hden_high : (den : ℚ) < 2 ^ ((Nat.log2 den : Int) + 1) := by
    exact_mod_cast Nat.lt_log2_self
  have hden' : (0 : ℚ) < den := by exact_mod_cast hden
  have hpow : ∀ e : Int, (0 : ℚ) < 2 ^ e := fun e => by positivity
  constructor
  · rw [lt_div_iff₀ hden']
    calc (2 : ℚ) ^ ((Nat.log2 num : Int) - Nat.log2 den - 1) * den
        < 2 ^ ((Nat.log2 num : Int) - Nat.log2 den - 1) * 2 ^ ((Nat.log2 den : Int) + 1) :=
          mul_lt_mul_of_pos_left hden_high (hpow _)
      _ = 2 ^ (Nat.log2 num : Int) := by rw [← zpow_add₀ (by norm_num)]; congr 1; omega
      _ ≤ num := hnum_low
  · rw [div_lt_iff₀ hden']
    calc (num : ℚ) < 2 ^ ((Nat.log2 num : Int) + 1) := hnum_high
      _ = 2 ^ ((Nat.log2 num : Int) - Nat.log2 den + 1) * 2 ^ (Nat.log2 den : Int) := by
          rw [← zpow_add₀ (by norm_num)]; congr 1; omega
      _ ≤ 2 ^ ((Nat.log2 num : Int) - Nat.log2 den + 1) * den :=
          mul_le_mul_of_nonneg_left hden_low (hpow _).le

theorem isExponent_exponentFor (hnum : 0 < num) (hden : 0 < den) :
    IsExponent (num / den) (exponentFor num den) := by
  obtain ⟨hlow, hhigh⟩ := log2_bounds hnum hden
  simp only [exponentFor]
  generalize hguess : max ((Nat.log2 num : Int) - Nat.log2 den - 53) leastExponent = guess
  have hleast : leastExponent ≤ guess := by omega
  have hupper : (num / den : ℚ) < 2 ^ 54 * 2 ^ guess := by
    calc (num / den : ℚ) < 2 ^ ((Nat.log2 num : Int) - Nat.log2 den + 1) := hhigh
      _ ≤ 2 ^ ((54 : Int) + guess) := zpow_le_zpow_right₀ (by norm_num) (by omega)
      _ = 2 ^ 54 * 2 ^ guess := by rw [zpow_add₀ (by norm_num)]; norm_num
  obtain ⟨hden', hquotient⟩ := unscale_spec num hden guess
  have hpos : (0 : ℚ) < (unscale num den guess).2 := by exact_mod_cast hden'
  have hpow : (0 : ℚ) < 2 ^ guess := by positivity
  have hbelow : (unscale num den guess).1 / (unscale num den guess).2 < significandLimit ↔
      (num / den : ℚ) < 2 ^ 53 * 2 ^ guess := by
    rw [← div_lt_iff₀ hpow, ← hquotient, div_lt_iff₀ hpos, Nat.div_lt_iff_lt_mul hden']
    rw [significandLimit, Nat.pow_eq]
    exact_mod_cast Iff.rfl
  split_ifs with hif
  · refine ⟨hleast, hbelow.mp hif, fun hlt => ?_⟩
    calc (2 : ℚ) ^ 52 * 2 ^ guess = 2 ^ ((52 : Int) + guess) := by
          rw [zpow_add₀ (by norm_num)]; norm_num
      _ = 2 ^ ((Nat.log2 num : Int) - Nat.log2 den - 1) := by congr 1; omega
      _ ≤ num / den := hlow.le
  · have hge := not_lt.mp (mt hbelow.mpr hif)
    refine ⟨by omega, ?_, fun _ => ?_⟩
    · rw [zpow_add_one₀ (by norm_num)]
      linarith
    · rw [zpow_add_one₀ (by norm_num)]
      linarith

/-! ## Rounding intervals -/

/-- The significands and exponents that numbers have. -/
structure IsCanonical (significand : Nat) (exponent : Int) : Prop where
  lt_limit : significand < 2 ^ 53
  least_le : leastExponent ≤ exponent
  le_greatest : exponent ≤ greatestExponent
  limit_le : leastExponent < exponent → 2 ^ 52 ≤ significand

/-- The quotients to which no number is nearer than the one of a significand and an
exponent; those halfway to another belong to the even one. -/
structure InInterval (significand : Nat) (exponent : Int) (q : ℚ) : Prop where
  low_le : (significand - 1 / 2) * 2 ^ exponent ≤ q
  le_high : q ≤ (significand + 1 / 2) * 2 ^ exponent
  strict_of_odd : significand % 2 = 1 →
    (significand - 1 / 2) * 2 ^ exponent < q ∧ q < (significand + 1 / 2) * 2 ^ exponent
  /-- Below a power of two the numbers are twice as close. -/
  narrow : significand = 2 ^ 52 → leastExponent < exponent →
    (significand - 1 / 4) * 2 ^ exponent ≤ q

theorem roundHalfEven_of_ratio {n : Nat} (hden : 0 < den) (hlow : (n - 1 / 2 : ℚ) ≤ num / den)
    (hhigh : (num / den : ℚ) ≤ n + 1 / 2)
    (hodd : n % 2 = 1 → (n - 1 / 2 : ℚ) < num / den ∧ (num / den : ℚ) < n + 1 / 2) :
    roundHalfEven num den = n := by
  have hden' : (0 : ℚ) < den := by exact_mod_cast hden
  rw [le_div_iff₀ hden'] at hlow
  rw [div_le_iff₀ hden'] at hhigh
  rw [lt_div_iff₀ hden', div_lt_iff₀ hden'] at hodd
  refine roundHalfEven_eq hden ?_ ?_ fun heven => ?_
  · have hcast : (2 * n * den : ℚ) ≤ 2 * num + den := by linarith
    exact_mod_cast hcast
  · have hcast : (2 * num : ℚ) ≤ (2 * n + 1) * den := by linarith
    exact_mod_cast hcast
  · obtain ⟨hleft, hright⟩ := hodd heven
    have hcast : (2 * n * den : ℚ) < 2 * num + den := by linarith
    have hcast' : (2 * num : ℚ) < (2 * n + 1) * den := by linarith
    exact ⟨by exact_mod_cast hcast, by exact_mod_cast hcast'⟩

/-- Every quotient of an interval rounds to its number. -/
theorem ofRatio_of_inInterval (hcanonical : IsCanonical significand exponent) (hnum : 0 < num)
    (hden : 0 < den) (hin : InInterval significand exponent (num / den)) (negative : Bool) :
    ofRatio negative num den = .finite negative significand exponent := by
  have hpow : (0 : ℚ) < 2 ^ exponent := by positivity
  have hlimit : (significand : ℚ) ≤ 2 ^ 53 - 1 := by
    have hlt := hcanonical.lt_limit
    have hcast : ((significand + 1 : Nat) : ℚ) ≤ (2 ^ 53 : Nat) := by exact_mod_cast hlt
    push_cast at hcast
    linarith
  have hexponent := isExponent_exponentFor hnum hden
  by_cases hnarrow : leastExponent < exponent ∧ (num / den : ℚ) < 2 ^ 52 * 2 ^ exponent
  · -- below a power of two the quotient has the exponent before and rounds up to the power
    obtain ⟨hleast, hbelow⟩ := hnarrow
    have hsignificand : significand = 2 ^ 52 := by
      have hle : (significand : ℚ) < 2 ^ 52 + 1 := by
        have hlow := lt_of_mul_lt_mul_right (lt_of_le_of_lt hin.low_le hbelow) hpow.le
        linarith
      have hle' : significand < 2 ^ 52 + 1 := by exact_mod_cast hle
      have hge := hcanonical.limit_le hleast
      omega
    have hdouble : (2 : ℚ) ^ exponent = 2 * 2 ^ (exponent - 1) := by
      rw [← zpow_one_add₀ (by norm_num)]
      congr 1
      omega
    have hlow := hin.narrow hsignificand hleast
    have hpow' : (0 : ℚ) < 2 ^ (exponent - 1) := by positivity
    have hsame : exponentFor num den = exponent - 1 := by
      apply hexponent.unique
      refine ⟨by omega, ?_, fun _ => ?_⟩
      · rw [hdouble] at hbelow
        linarith
      · rw [hsignificand, hdouble] at hlow
        push_cast at hlow
        linarith
    obtain ⟨hden', hquotient⟩ := unscale_spec num hden (exponent - 1)
    have hround : roundHalfEven (unscale num den (exponent - 1)).1
        (unscale num den (exponent - 1)).2 = 2 ^ 53 := by
      rw [hsignificand, hdouble] at hlow
      rw [hdouble] at hbelow
      push_cast at hlow
      apply roundHalfEven_of_ratio hden'
      · rw [hquotient, le_div_iff₀ hpow']
        push_cast
        linarith
      · rw [hquotient, div_le_iff₀ hpow']
        push_cast
        linarith
      · intro hodd
        norm_num at hodd
    have hgreatest := hcanonical.le_greatest
    simp only [ofRatio, if_neg hnum.ne', hsame, hround, significandLimit, Nat.pow_eq, lt_irrefl,
      if_false, sub_add_cancel, if_neg (not_lt.mpr hgreatest), hsignificand]
    rfl
  · have hsame : exponentFor num den = exponent := by
      apply hexponent.unique
      refine ⟨hcanonical.least_le, ?_, fun hlt => not_lt.mp fun hbelow => hnarrow ⟨hlt, hbelow⟩⟩
      have hhigh := hin.le_high
      nlinarith
    obtain ⟨hden', hquotient⟩ := unscale_spec num hden exponent
    have hround : roundHalfEven (unscale num den exponent).1 (unscale num den exponent).2 =
        significand := by
      apply roundHalfEven_of_ratio hden'
      · rw [hquotient, le_div_iff₀ hpow]
        exact hin.low_le
      · rw [hquotient, div_le_iff₀ hpow]
        exact hin.le_high
      · rw [hquotient, lt_div_iff₀ hpow, div_lt_iff₀ hpow]
        exact hin.strict_of_odd
    have hlt : significand < significandLimit := hcanonical.lt_limit
    simp only [ofRatio, if_neg hnum.ne', hsame, hround, if_pos hlt,
      if_neg (not_lt.mpr hcanonical.le_greatest)]

theorem roundHalfEven_bounds (num den : Nat) :
    num / den ≤ roundHalfEven num den ∧ roundHalfEven num den ≤ num / den + 1 := by
  simp only [roundHalfEven]
  split_ifs <;> omega

/-- A quotient rounds to an infinity or to one of the numbers. -/
theorem ofRatio_cases (hnum : 0 < num) (hden : 0 < den) (negative : Bool) :
    ofRatio negative num den = .infinite negative ∨
      ∃ significand exponent, IsCanonical significand exponent ∧
        ofRatio negative num den = .finite negative significand exponent := by
  have hexponent := isExponent_exponentFor hnum hden
  obtain ⟨hden', hquotient⟩ := unscale_spec num hden (exponentFor num den)
  simp only [ofRatio, if_neg hnum.ne']
  generalize exponentFor num den = exponent at *
  generalize hnumerator : (unscale num den exponent).1 = numerator at *
  generalize hdenominator : (unscale num den exponent).2 = denominator at *
  have hpow : (0 : ℚ) < 2 ^ exponent := by positivity
  have hpos : (0 : ℚ) < denominator := by exact_mod_cast hden'
  obtain ⟨hfloor, hceil⟩ := roundHalfEven_bounds numerator denominator
  generalize roundHalfEven numerator denominator = rounded at *
  have hupper : numerator / denominator < 2 ^ 53 := by
    rw [Nat.div_lt_iff_lt_mul hden']
    have hlt := hexponent.lt_limit
    rw [← div_lt_iff₀ hpow, ← hquotient, div_lt_iff₀ hpos] at hlt
    exact_mod_cast hlt
  have hlower : leastExponent < exponent → 2 ^ 52 ≤ numerator / denominator := by
    intro hleast
    rw [Nat.le_div_iff_mul_le hden']
    have hle := hexponent.limit_le hleast
    rw [← le_div_iff₀ hpow, ← hquotient, le_div_iff₀ hpos] at hle
    exact_mod_cast hle
  have hlimit : significandLimit = 2 ^ 53 := rfl
  split_ifs with hsmall hgreat hgreat
  · exact .inl rfl
  · refine .inr ⟨_, _, ⟨by omega, hexponent.least_le, not_lt.mp hgreat, fun hleast => ?_⟩, rfl⟩
    have hge := hlower hleast
    omega
  · exact .inl rfl
  · have hleast := hexponent.least_le
    exact .inr ⟨_, _, ⟨by omega, by omega, not_lt.mp hgreat, fun _ => by omega⟩, rfl⟩

end ReactiveLint.Number
