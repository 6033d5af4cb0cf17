import ReactiveLint.Proofs.Number.Rounding

/-!
# Shortest digits

What the search for the shortest digits finds lies in the rounding interval of the
number, so that it rounds to the number.  The search finds something, since the points of
a grid of seventeen digits are closer to one another than the ends of the interval are to
the number.
-/

namespace ReactiveLint.Number

variable {num den significand : Nat} {exponent : Int}

theorem magnitude_eq (significand : Nat) (exponent : Int) :
    magnitude significand exponent =
      (significand * (magnitude 1 exponent).1, (magnitude 1 exponent).2) := by
  cases exponent <;> simp [magnitude]

/-- The test of an interval is exact. -/
theorem holds_iff (hsignificand : 0 < significand) (hden : 0 < den) :
    (roundingInterval significand exponent).holds num den = true ↔
      InInterval significand exponent (num / den) := by
  obtain ⟨hunit, hratio⟩ := magnitude_spec 1 exponent
  simp only [roundingInterval, magnitude_eq significand exponent]
  generalize (magnitude 1 exponent).1 = unit at *
  generalize (magnitude 1 exponent).2 = base at *
  have hden' : (0 : ℚ) < den := by exact_mod_cast hden
  have hbase : (0 : ℚ) < base := by exact_mod_cast hunit
  have hunit : (unit : ℚ) = 2 ^ exponent * base := by
    rw [Nat.cast_one, one_mul] at hratio
    rw [← hratio]
    field_simp
  -- an end of the interval over the common denominator against a quotient
  have hends : ∀ (bound : Nat) (x : ℚ), (bound : ℚ) = x * (4 * base) →
      ((bound * den ≤ num * (4 * base) ↔ x ≤ num / den) ∧
        (num * (4 * base) ≤ bound * den ↔ (num / den : ℚ) ≤ x)) := by
    intro bound x hbound
    have hscale : ((bound * den : Nat) : ℚ) = x * den * (4 * base) := by
      push_cast
      rw [hbound]
      ring
    have hscale' : ((num * (4 * base) : Nat) : ℚ) = num * (4 * base) := by push_cast; rfl
    rw [le_div_iff₀ hden', div_le_iff₀ hden', ← Nat.cast_le (α := ℚ), ← Nat.cast_le (α := ℚ),
      hscale, hscale']
    exact ⟨mul_le_mul_iff_of_pos_right (by positivity), mul_le_mul_iff_of_pos_right (by positivity)⟩
  have hhigh : ((4 * (significand * unit) + 2 * unit : Nat) : ℚ) =
      (significand + 1 / 2) * 2 ^ exponent * (4 * base) := by
    push_cast
    rw [hunit]
    ring
  obtain ⟨hhigh_le, hle_high⟩ := hends _ _ hhigh
  have hunits : unit ≤ significand * unit := Nat.le_mul_of_pos_left unit hsignificand
  have hhalf : significandLimit / 2 = 2 ^ 52 := rfl
  rw [hhalf]
  by_cases hnarrow : significand = 2 ^ 52 ∧ leastExponent < exponent
  · have hlow : ((4 * (significand * unit) - unit : Nat) : ℚ) =
        (significand - 1 / 4) * 2 ^ exponent * (4 * base) := by
      rw [Nat.cast_sub (by omega)]
      push_cast
      rw [hunit]
      ring
    obtain ⟨hlow_le, -⟩ := hends _ _ hlow
    have heven : significand % 2 = 0 := by rw [hnarrow.1]; rfl
    simp only [RoundingInterval.holds, if_pos hnarrow, heven, decide_true, if_true,
      decide_eq_true_eq, hlow_le, hle_high]
    have hpow : (0 : ℚ) < 2 ^ exponent := by positivity
    constructor
    · rintro ⟨hlow, hhigh⟩
      exact ⟨by linarith, hhigh, fun hodd => by omega, fun _ _ => hlow⟩
    · intro hin
      exact ⟨hin.narrow hnarrow.1 hnarrow.2, hin.le_high⟩
  · have hlow : ((4 * (significand * unit) - 2 * unit : Nat) : ℚ) =
        (significand - 1 / 2) * 2 ^ exponent * (4 * base) := by
      rw [Nat.cast_sub (by omega)]
      push_cast
      rw [hunit]
      ring
    obtain ⟨hlow_le, hle_low⟩ := hends _ _ hlow
    have hwide : significand = 2 ^ 52 → leastExponent < exponent →
        (significand - 1 / 4 : ℚ) * 2 ^ exponent ≤ num / den :=
      fun hpower hleast => absurd ⟨hpower, hleast⟩ hnarrow
    simp only [RoundingInterval.holds, if_neg hnarrow]
    by_cases heven : significand % 2 = 0
    · simp only [heven, decide_true, if_true, decide_eq_true_eq, hlow_le, hle_high]
      exact ⟨fun ⟨hlow, hhigh⟩ => ⟨hlow, hhigh, fun hodd => by omega, hwide⟩,
        fun hin => ⟨hin.low_le, hin.le_high⟩⟩
    · simp only [heven, decide_false, Bool.false_eq_true, if_false, decide_eq_true_eq,
        ← not_le, hle_low, hhigh_le]
      simp only [not_le]
      exact ⟨fun ⟨hlow, hhigh⟩ => ⟨hlow.le, hhigh.le, fun _ => ⟨hlow, hhigh⟩, hwide⟩,
        fun hin => hin.strict_of_odd (by omega)⟩

/-! ## The search -/

theorem digitCount_pos (n : Nat) : 0 < digitCount n := Nat.length_toDigits_pos

theorem lt_pow_digitCount (n : Nat) : n < 10 ^ digitCount n :=
  (Nat.length_toDigits_le_iff (by norm_num) (digitCount_pos n)).mp le_rfl

theorem pow_digitCount_le (hnum : 0 < num) : 10 ^ (digitCount num - 1) ≤ num := by
  by_contra hlt
  rcases Nat.eq_zero_or_pos (digitCount num - 1) with hone | hmore
  · rw [hone] at hlt
    omega
  · have hle : digitCount num ≤ digitCount num - 1 :=
      (Nat.length_toDigits_le_iff (by norm_num) hmore).mpr (not_le.mp hlt)
    omega

/-- The grid at which the search starts is at most a hundred times as coarse as the number
is great. -/
theorem leadingExponent_lt (hnum : 0 < num) (hden : 0 < den) :
    (10 : ℚ) ^ (leadingExponent num den - 2) < num / den := by
  have hnum_low : (10 : ℚ) ^ ((digitCount num : Int) - 1) ≤ num := by
    have hcast : ((10 ^ (digitCount num - 1) : Nat) : ℚ) ≤ num := by
      exact_mod_cast pow_digitCount_le hnum
    have hcount := digitCount_pos num
    rw [show (digitCount num : Int) - 1 = ((digitCount num - 1 : Nat) : Int) by omega, zpow_natCast]
    exact_mod_cast hcast
  have hden_high : (den : ℚ) < 10 ^ (digitCount den : Int) := by
    exact_mod_cast lt_pow_digitCount den
  have hden' : (0 : ℚ) < den := by exact_mod_cast hden
  rw [lt_div_iff₀ hden']
  calc (10 : ℚ) ^ (leadingExponent num den - 2) * den
      < 10 ^ (leadingExponent num den - 2) * 10 ^ (digitCount den : Int) :=
        mul_lt_mul_of_pos_left hden_high (by positivity)
    _ = 10 ^ ((digitCount num : Int) - 1) := by
        rw [← zpow_add₀ (by norm_num), leadingExponent]
        congr 1
        omega
    _ ≤ num := hnum_low

namespace RoundingInterval

variable {interval : RoundingInterval} {digits : Nat}

theorem find?_pair {A : Type*} (test : A → Bool) (first second : A) :
    [first, second].find? test =
      if test first then some first else if test second then some second else none := by
  rw [List.find?_cons, List.find?_singleton]
  cases test first <;> rfl

/-- The grid point taken from the two next to a number, the nearer one first. -/
private theorem onGrid?_eq (interval : RoundingInterval) (exponent : Int) :
    ∃ near far, (near + 1 = far ∨ far + 1 = near) ∧
      max near far = interval.value * (scaleTen 1 exponent).2 /
        (interval.den * (scaleTen 1 exponent).1) + 1 ∧
      interval.onGrid? exponent = [near, far].find? fun n =>
        interval.holds (scaleTen n exponent).1 (scaleTen n exponent).2 && n != 0 := by
  simp only [onGrid?]
  generalize interval.value * (scaleTen 1 exponent).2 /
    (interval.den * (scaleTen 1 exponent).1) = below
  by_cases hnear : 2 * interval.value * (scaleTen 1 exponent).2 <
      (2 * below + 1) * interval.den * (scaleTen 1 exponent).1
  · refine ⟨below, below + 1, .inl rfl, by omega, ?_⟩
    simp only [if_pos hnear, find?_pair]
  · refine ⟨below + 1, below, .inr rfl, by omega, ?_⟩
    simp only [if_neg hnear, find?_pair]

theorem holds_of_onGrid? (hgrid : interval.onGrid? exponent = some digits) :
    digits ≠ 0 ∧
      interval.holds (scaleTen digits exponent).1 (scaleTen digits exponent).2 = true := by
  obtain ⟨near, far, -, -, hfind⟩ := onGrid?_eq interval exponent
  rw [hfind] at hgrid
  have hfits := List.find?_some hgrid
  rw [Bool.and_eq_true, bne_iff_ne] at hfits
  exact ⟨hfits.2, hfits.1⟩

/-- A grid has a point when the one just above the number is in the interval. -/
theorem isSome_onGrid? {above : Nat}
    (habove : above = interval.value * (scaleTen 1 exponent).2 /
      (interval.den * (scaleTen 1 exponent).1) + 1)
    (hholds : interval.holds (scaleTen above exponent).1 (scaleTen above exponent).2 = true) :
    (interval.onGrid? exponent).isSome := by
  obtain ⟨near, far, hnext, hmax, hfind⟩ := onGrid?_eq interval exponent
  rw [hfind, List.find?_isSome]
  refine ⟨above, ?_, ?_⟩
  · rw [List.mem_pair]
    omega
  · rw [Bool.and_eq_true, bne_iff_ne]
    exact ⟨hholds, by omega⟩

/-- The search ends at a grid with a point when there is one among those it looks at. -/
theorem search_spec {steps offset : Nat} (hoffset : offset < steps)
    (hgrid : (interval.onGrid? (exponent - offset)).isSome) :
    interval.onGrid? (interval.search steps exponent).exponent =
      some (interval.search steps exponent).digits := by
  induction steps generalizing exponent offset with
  | zero => omega
  | succ steps ih =>
      rw [search]
      cases hfirst : interval.onGrid? exponent with
      | some digits => exact hfirst
      | none =>
          cases offset with
          | zero => simp [hfirst] at hgrid
          | succ offset =>
              apply ih (Nat.lt_of_succ_lt_succ hoffset)
              rwa [show exponent - 1 - (offset : Int) = exponent - (offset + 1 : Nat) by omega]

end RoundingInterval

/-- The grid point just above a quotient is at most one step away from it. -/
theorem above_bounds (hden : 0 < den) (exponent : Int) :
    let above := num * (scaleTen 1 exponent).2 / (den * (scaleTen 1 exponent).1) + 1
    (num / den : ℚ) < above * 10 ^ exponent ∧
      (above * 10 ^ exponent : ℚ) ≤ num / den + 10 ^ exponent := by
  intro above
  obtain ⟨hunit, hratio⟩ := scaleTen_spec 1 exponent
  have hpow : (0 : ℚ) < 10 ^ exponent := by positivity
  rw [Nat.cast_one, one_mul] at hratio
  have hbase : (0 : ℚ) < (scaleTen 1 exponent).2 := by exact_mod_cast hunit
  have hden' : (0 : ℚ) < den := by exact_mod_cast hden
  have hstep : ((scaleTen 1 exponent).1 : ℚ) = 10 ^ exponent * (scaleTen 1 exponent).2 := by
    rw [← hratio]
    field_simp
  have hstep' : 0 < (scaleTen 1 exponent).1 := by
    have hcast : (0 : ℚ) < (scaleTen 1 exponent).1 := by rw [hstep]; positivity
    exact_mod_cast hcast
  have hlow := Nat.div_mul_le_self (num * (scaleTen 1 exponent).2) (den * (scaleTen 1 exponent).1)
  have hhigh := Nat.lt_div_mul_add (Nat.mul_pos hden hstep') (a := num * (scaleTen 1 exponent).2)
  simp only [above, Nat.cast_add, Nat.cast_one]
  generalize num * (scaleTen 1 exponent).2 / (den * (scaleTen 1 exponent).1) = below at *
  have hlow' : (below * (den * (scaleTen 1 exponent).1) : ℚ) ≤ num * (scaleTen 1 exponent).2 := by
    exact_mod_cast hlow
  have hhigh' : (num * (scaleTen 1 exponent).2 : ℚ) <
      below * (den * (scaleTen 1 exponent).1) + den * (scaleTen 1 exponent).1 := by
    exact_mod_cast hhigh
  rw [hstep] at hlow' hhigh'
  have hlow'' : (below * 10 ^ exponent : ℚ) ≤ num / den := by
    rw [le_div_iff₀ hden']
    apply le_of_mul_le_mul_right _ hbase
    linarith
  have hhigh'' : (num / den : ℚ) < below * 10 ^ exponent + 10 ^ exponent := by
    rw [div_lt_iff₀ hden']
    apply lt_of_mul_lt_mul_right _ hbase.le
    linarith
  constructor <;> linarith

/-- The digits of a number lie in its interval. -/
theorem shortest_spec (hcanonical : IsCanonical significand exponent) (hpos : 0 < significand) :
    0 < (shortest significand exponent).digits ∧
      InInterval significand exponent
        ((shortest significand exponent).digits * 10 ^ (shortest significand exponent).exponent) := by
  obtain ⟨hden, hratio⟩ := magnitude_spec significand exponent
  have hinterval : (roundingInterval significand exponent).value =
      4 * (magnitude significand exponent).1 ∧
      (roundingInterval significand exponent).den = 4 * (magnitude significand exponent).2 :=
    ⟨rfl, rfl⟩
  simp only [shortest]
  generalize hnum : (magnitude significand exponent).1 = num at *
  generalize (magnitude significand exponent).2 = den at *
  have hpow : (0 : ℚ) < 2 ^ exponent := by positivity
  have hden' : (0 : ℚ) < den := by exact_mod_cast hden
  have hnum' : 0 < num := by
    have hvalue : (0 : ℚ) < num / den := by
      rw [hratio]
      positivity
    exact_mod_cast (div_pos_iff_of_pos_right hden').mp hvalue
  set finest := leadingExponent num den - (19 : Nat) with hfinest
  have hspacing : (10 : ℚ) ^ finest * 2 < 2 ^ exponent := by
    have hlimit : (significand : ℚ) ≤ 2 ^ 53 := by exact_mod_cast hcanonical.lt_limit.le
    have hleading := leadingExponent_lt hnum' hden
    calc (10 : ℚ) ^ finest * 2
        = 10 ^ (leadingExponent num den - 2) * (2 / 10 ^ 17) := by
          rw [hfinest, show leadingExponent num den - (19 : Nat) =
            leadingExponent num den - 2 + (-17 : Int) by omega, zpow_add₀ (by norm_num)]
          norm_num
          ring
      _ ≤ num / den * (2 / 10 ^ 17) := mul_le_mul_of_nonneg_right hleading.le (by norm_num)
      _ = significand * (2 / 10 ^ 17) * 2 ^ exponent := by rw [hratio]; ring
      _ ≤ 2 ^ 53 * (2 / 10 ^ 17) * 2 ^ exponent := by
          apply mul_le_mul_of_nonneg_right _ hpow.le
          exact mul_le_mul_of_nonneg_right hlimit (by norm_num)
      _ < 2 ^ exponent := by linarith
  have hgrid : ((roundingInterval significand exponent).onGrid? finest).isSome := by
    apply RoundingInterval.isSome_onGrid? rfl
    rw [hinterval.1, hinterval.2]
    obtain ⟨hlow, hhigh⟩ := @above_bounds (4 * num) (4 * den) (by omega) finest
    generalize 4 * num * (scaleTen 1 finest).2 / (4 * den * (scaleTen 1 finest).1) + 1 =
      above at *
    obtain ⟨hscale, hvalue⟩ := scaleTen_spec above finest
    have hcancel : ((4 * num : Nat) / (4 * den : Nat) : ℚ) = significand * 2 ^ exponent := by
      rw [← hratio]
      push_cast
      exact mul_div_mul_left _ _ (by norm_num)
    rw [hcancel] at hlow hhigh
    rw [holds_iff hpos hscale, hvalue]
    exact ⟨by linarith, by linarith, fun _ => ⟨by linarith, by linarith⟩, fun _ _ => by linarith⟩
  have hfound := RoundingInterval.search_spec (show 19 < 20 by norm_num) hgrid
  obtain ⟨hdigits, hholds⟩ := RoundingInterval.holds_of_onGrid? hfound
  obtain ⟨hscale, hvalue⟩ := scaleTen_spec
    ((roundingInterval significand exponent).search 20 (leadingExponent num den)).digits
    ((roundingInterval significand exponent).search 20 (leadingExponent num den)).exponent
  rw [holds_iff hpos hscale, hvalue] at hholds
  exact ⟨Nat.pos_of_ne_zero hdigits, hholds⟩

end ReactiveLint.Number
