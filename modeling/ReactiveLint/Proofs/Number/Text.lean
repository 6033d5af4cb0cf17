import ReactiveLint.Proofs.Number.Shortest
import ReactiveLint.Proofs.Text.Characters

/-!
# Numbers and their text

A number that has been read is written so that reading gives the same number again.  The
positional text of the shortest digits has their value, and this value rounds to the
number.
-/

namespace ReactiveLint

namespace Number

variable {num den significand : Nat} {exponent : Int}

/-! ## Runs of digits -/

theorem digitsValue_append (left right : List Char) :
    digitsValue (left ++ right) = digitsValue left * 10 ^ right.length + digitsValue right := by
  have hfold : digitsValue (left ++ right) = Nat.ofDigitChars 10 right (digitsValue left) :=
    List.foldl_append
  rw [hfold, Nat.ofDigitChars_eq_ofDigitChars_zero, Nat.mul_comm]
  rfl

@[simp]
theorem digitsValue_toDigits (n : Nat) : digitsValue (Nat.toDigits 10 n) = n :=
  Nat.ofDigitChars_ten_toDigits

@[simp]
theorem digitsValue_replicate_zero (count : Nat) :
    digitsValue (List.replicate count '0') = 0 := by
  induction count with
  | zero => rfl
  | succ count ih =>
      rw [List.replicate_succ, ← List.singleton_append, digitsValue_append, ih]
      simp [digitsValue]

theorem isDigit_of_mem_toDigits {n : Nat} {c : Char} (hc : c ∈ Nat.toDigits 10 n) :
    c.isDigit = true :=
  Nat.isDigit_of_mem_toDigits (by norm_num) (by norm_num) hc

theorem isDigit_of_mem_replicate {count : Nat} {c : Char} (hc : c ∈ List.replicate count '0') :
    c.isDigit = true := by
  rw [List.eq_of_mem_replicate hc]
  rfl

/-- A run of digits is read up to the first other character. -/
theorem spanDigits_append {digits rest : List Char} (hdigits : ∀ c ∈ digits, c.isDigit = true)
    (hrest : ∀ c ∈ rest.head?, c.isDigit = false) : spanDigits (digits ++ rest) = (digits, rest) := by
  rw [spanDigits, Text.takeWhile_run hdigits hrest, Text.dropWhile_run hdigits hrest]

theorem spanDigits_of_digits {digits : List Char} (hdigits : ∀ c ∈ digits, c.isDigit = true) :
    spanDigits digits = (digits, []) := by
  have hspan := @spanDigits_append digits [] hdigits (by simp)
  rwa [List.append_nil] at hspan

theorem exists_trailing_zeros (digits : List Char) :
    ∃ count, digits =
      (digits.reverse.dropWhile (· == '0')).reverse ++ List.replicate count '0' := by
  refine ⟨(digits.reverse.takeWhile (· == '0')).length, ?_⟩
  have hzeros : (digits.reverse.takeWhile (· == '0')).reverse =
      List.replicate (digits.reverse.takeWhile (· == '0')).length '0' := by
    refine List.eq_replicate_iff.mpr ⟨List.length_reverse, fun c hc => ?_⟩
    have hzero := List.mem_takeWhile_imp (List.mem_reverse.mp hc)
    exact eq_of_beq hzero
  rw [← hzeros, ← List.reverse_append, List.takeWhile_append_dropWhile, List.reverse_reverse]

/-! ## Positional text -/

/-- Text of digits with at most one point, and what it amounts to. -/
structure IsDecimal (cs : List Char) (value : ℚ) : Prop where
  reads : ∃ digits places, readMantissa? cs = some (digits, places, []) ∧
    (digits : ℚ) * 10 ^ (-(places : Int)) = value
  head : ∃ c rest, cs = c :: rest ∧ c.isDigit = true
  chars : ∀ c ∈ cs, c.isDigit = true ∨ c = '.'

theorem isDecimal_of_digits {digits : List Char} (hne : digits ≠ [])
    (hdigits : ∀ c ∈ digits, c.isDigit = true) : IsDecimal digits (digitsValue digits) := by
  have hspan := spanDigits_of_digits hdigits
  refine ⟨⟨digitsValue digits, 0, ?_, by simp⟩, ?_, fun c hc => .inl (hdigits c hc)⟩
  · simp [readMantissa?, hspan, hne]
  · obtain ⟨c, rest, rfl⟩ := List.exists_cons_of_ne_nil hne
    exact ⟨c, rest, rfl, hdigits c List.mem_cons_self⟩

theorem isDecimal_of_point {whole fraction : List Char} (hne : whole ≠ [])
    (hwhole : ∀ c ∈ whole, c.isDigit = true) (hfraction : ∀ c ∈ fraction, c.isDigit = true) :
    IsDecimal (whole ++ '.' :: fraction)
      (digitsValue (whole ++ fraction) * 10 ^ (-(fraction.length : Int))) := by
  have hspan : spanDigits (whole ++ '.' :: fraction) = (whole, '.' :: fraction) :=
    spanDigits_append hwhole (by simp)
  have hspan' := spanDigits_of_digits hfraction
  refine ⟨⟨digitsValue (whole ++ fraction), fraction.length, ?_, rfl⟩, ?_, fun c hc => ?_⟩
  · simp [readMantissa?, hspan, hspan', hne]
  · obtain ⟨c, rest, rfl⟩ := List.exists_cons_of_ne_nil hne
    exact ⟨c, rest ++ '.' :: fraction, rfl, hwhole c List.mem_cons_self⟩
  · rcases List.mem_append.mp hc with hc | hc
    · exact .inl (hwhole c hc)
    · rcases List.mem_cons.mp hc with rfl | hc
      · exact .inr rfl
      · exact .inl (hfraction c hc)

/-- Positional text has the value of the digits it was made from. -/
theorem isDecimal_positional (d : Digits) :
    IsDecimal d.positional.toList (d.digits * 10 ^ d.exponent) := by
  obtain ⟨n, exponent⟩ := d
  cases exponent with
  | ofNat exponent =>
      have htext : (Digits.positional ⟨n, .ofNat exponent⟩).toList =
          Nat.toDigits 10 n ++ List.replicate exponent '0' := by
        simp [Digits.positional]
      have hdigits : ∀ c ∈ Nat.toDigits 10 n ++ List.replicate exponent '0', c.isDigit = true :=
        fun c hc => (List.mem_append.mp hc).elim isDigit_of_mem_toDigits isDigit_of_mem_replicate
      have hdecimal := isDecimal_of_digits (by simp [Nat.toDigits_ne_nil]) hdigits
      rw [htext]
      rw [digitsValue_append] at hdecimal
      simpa using hdecimal
  | negSucc exponent =>
      simp only [Digits.positional]
      set padded := List.replicate (exponent + 1 + 1 - (Nat.toDigits 10 n).length) '0' ++
        Nat.toDigits 10 n with hpadded
      have hdigits : ∀ c ∈ padded, c.isDigit = true :=
        fun c hc => (List.mem_append.mp hc).elim isDigit_of_mem_replicate isDigit_of_mem_toDigits
      have hvalue : digitsValue padded = n := by simp [hpadded, digitsValue_append]
      have hlength : exponent + 1 < padded.length := by
        rw [hpadded, List.length_append, List.length_replicate]
        omega
      set whole := padded.take (padded.length - (exponent + 1)) with hwhole
      set fraction := padded.drop (padded.length - (exponent + 1)) with hfraction
      have hsplit : whole ++ fraction = padded := List.take_append_drop _ _
      have hplaces : fraction.length = exponent + 1 := by
        rw [hfraction, List.length_drop]
        omega
      have hne : whole ≠ [] := by
        rw [← List.length_pos_iff, hwhole, List.length_take]
        omega
      rw [← hsplit] at hdigits hvalue
      obtain ⟨hwhole', hfraction'⟩ := List.forall_mem_append.mp hdigits
      obtain ⟨zeros, hzeros⟩ := exists_trailing_zeros fraction
      generalize (fraction.reverse.dropWhile (· == '0')).reverse = kept at hzeros ⊢
      rw [hzeros] at hfraction' hplaces hvalue
      rw [List.length_append, List.length_replicate] at hplaces
      rw [← List.append_assoc, digitsValue_append, List.length_replicate,
        digitsValue_replicate_zero, Nat.add_zero] at hvalue
      have hkept : ∀ c ∈ kept, c.isDigit = true := (List.forall_mem_append.mp hfraction').1
      have hvalue' : (n : ℚ) * 10 ^ (Int.negSucc exponent) =
          digitsValue (whole ++ kept) * 10 ^ (-(kept.length : Int)) := by
        rw [← hvalue, Nat.cast_mul, Nat.cast_pow, Nat.cast_ofNat, mul_assoc, ← zpow_natCast,
          ← zpow_add₀ (by norm_num)]
        congr 2
        omega
      rw [hvalue']
      cases kept with
      | nil => simpa using isDecimal_of_digits hne hwhole'
      | cons c kept => simpa using isDecimal_of_point hne hwhole' hkept

/-! ## Reading numbers -/

/-- The numbers that text can denote. -/
def IsReadable : Number → Prop
  | finite _ significand exponent => IsCanonical significand exponent
  | _ => True

theorem isReadable_signedZero (negative : Bool) : (signedZero negative).IsReadable where
  lt_limit := by norm_num
  least_le := le_rfl
  le_greatest := by decide
  limit_le hlt := absurd hlt (lt_irrefl _)

theorem isReadable_ofDecimal (negative : Bool) (digits : Nat) (exponent : Int) :
    (ofDecimal negative digits exponent).IsReadable := by
  simp only [ofDecimal]
  split_ifs with hzero
  · exact isReadable_signedZero negative
  · trivial
  · exact isReadable_signedZero negative
  · obtain ⟨hden, hvalue⟩ := scaleTen_spec digits exponent
    have hnum : 0 < (scaleTen digits exponent).1 := by
      cases exponent <;> simp [scaleTen, Nat.pos_of_ne_zero hzero]
    rcases ofRatio_cases hnum hden negative with heq | ⟨significand, found, hcanonical, heq⟩
    · rw [heq]
      trivial
    · rw [heq]
      exact hcanonical

theorem isReadable_of_ofText? {text : String} {x : Number} (hread : ofText? text = some x) :
    x.IsReadable := by
  simp only [ofText?] at hread
  split_ifs at hread
  · obtain rfl := Option.some.inj hread
    trivial
  · obtain rfl := Option.some.inj hread
    trivial
  · split at hread
    next => cases hread
    next digits places rest _ =>
      obtain ⟨exponent, -, rfl⟩ := Option.map_eq_some_iff.mp hread
      exact isReadable_ofDecimal _ _ _

theorem ne_of_isDigit {c other : Char} (hc : c.isDigit = true) (hother : other.isDigit = false) :
    c ≠ other := by
  rintro rfl
  rw [hc] at hother
  cases hother

theorem toLower_of_isDigit {c : Char} (hc : c.isDigit = true) : c.toLower = c := by
  simp only [Char.isDigit, Bool.and_eq_true, decide_eq_true_eq] at hc
  apply dif_neg
  rintro ⟨hupper, -⟩
  exact absurd (UInt32.le_trans hupper hc.2) (by decide)

theorem zpow_ten_le (n : Nat) : (10 : ℚ) ^ (-(n : Int)) ≤ 2 ^ (-(3 * n : Int)) := by
  rw [zpow_neg, zpow_neg, zpow_mul, zpow_natCast, zpow_natCast]
  apply inv_anti₀ (by positivity)
  exact pow_le_pow_left₀ (by norm_num) (by norm_num) n

theorem pow_ten_lt : (10 : ℚ) ^ (-401 : Int) < 2 ^ (-1075 : Int) :=
  (zpow_ten_le 401).trans_lt (zpow_lt_zpow_right₀ (by norm_num) (by norm_num))

/-- The powers of ten that no number reaches. -/
theorem pow_lt_of_inInterval {value : ℚ} (hcanonical : IsCanonical significand exponent)
    (hpos : 0 < significand) (hin : InInterval significand exponent value) :
    (10 : ℚ) ^ (-401 : Int) < value := by
  have hone : (1 : ℚ) ≤ significand := by exact_mod_cast hpos
  have hleast : (2 : ℚ) ^ (-1074 : Int) ≤ 2 ^ exponent :=
    zpow_le_zpow_right₀ (by norm_num) hcanonical.least_le
  calc (10 : ℚ) ^ (-401 : Int) < 2 ^ (-1075 : Int) := pow_ten_lt
    _ = 1 / 2 * 2 ^ (-1074 : Int) := by
        rw [show (-1075 : Int) = -1 + -1074 by norm_num, zpow_add₀ (by norm_num)]
        norm_num
    _ ≤ (significand - 1 / 2) * 2 ^ exponent :=
        mul_le_mul (by linarith) hleast (by positivity) (by linarith)
    _ ≤ value := hin.low_le

theorem ofDecimal_of_inInterval {digits places : Nat} (hcanonical : IsCanonical significand exponent)
    (hpos : 0 < significand)
    (hin : InInterval significand exponent (digits * 10 ^ (-(places : Int)))) (negative : Bool) :
    ofDecimal negative digits (-(places : Int)) = .finite negative significand exponent := by
  have hsmall := pow_lt_of_inInterval hcanonical hpos hin
  have hpow : (0 : ℚ) < 10 ^ (-(places : Int)) := by positivity
  have hdigits : digits ≠ 0 := by
    rintro rfl
    rw [Nat.cast_zero, zero_mul] at hsmall
    exact absurd hsmall (not_lt.mpr (by positivity))
  have hcount : ¬ -(places : Int) + digitCount digits < -400 := by
    intro hlt
    have hupper : (digits : ℚ) < 10 ^ (digitCount digits : Int) := by
      exact_mod_cast lt_pow_digitCount digits
    have hbound : (digits : ℚ) * 10 ^ (-(places : Int)) < 10 ^ (-401 : Int) := by
      calc (digits : ℚ) * 10 ^ (-(places : Int))
          < 10 ^ (digitCount digits : Int) * 10 ^ (-(places : Int)) :=
            mul_lt_mul_of_pos_right hupper hpow
        _ = 10 ^ (-(places : Int) + digitCount digits) := by
            rw [← zpow_add₀ (by norm_num), add_comm]
        _ ≤ 10 ^ (-401 : Int) := zpow_le_zpow_right₀ (by norm_num) (by omega)
    exact lt_asymm hsmall hbound
  obtain ⟨hden, hvalue⟩ := scaleTen_spec digits (-(places : Int))
  rw [← hvalue] at hin hsmall
  have hnum : 0 < (scaleTen digits (-(places : Int))).1 := by
    have hden' : (0 : ℚ) < (scaleTen digits (-(places : Int))).2 := by exact_mod_cast hden
    have hratio := lt_trans (by positivity) hsmall
    exact_mod_cast (div_pos_iff_of_pos_right hden').mp hratio
  simp only [ofDecimal, if_neg hdigits, if_neg hcount, if_neg (show ¬ (400 : Int) < -places by omega)]
  exact ofRatio_of_inInterval hcanonical hnum hden hin negative

/-- A text of digits denotes the number into whose interval its value falls. -/
theorem ofText?_of_isDecimal {cs : List Char} {value : ℚ} (hdecimal : IsDecimal cs value)
    (hcanonical : IsCanonical significand exponent) (hpos : 0 < significand)
    (hin : InInterval significand exponent value) (negative : Bool) :
    ofText? (String.ofList (if negative then '-' :: cs else cs)) =
      some (.finite negative significand exponent) := by
  obtain ⟨⟨digits, places, hmantissa, rfl⟩, ⟨c, rest, rfl, hc⟩, -⟩ := hdecimal
  have hsign : splitSign (if negative then '-' :: c :: rest else c :: rest) =
      (negative, c :: rest) := by
    have hminus := ne_of_isDigit hc (show '-'.isDigit = false from rfl)
    have hplus := ne_of_isDigit hc (show '+'.isDigit = false from rfl)
    cases negative
    · simp [splitSign, hminus, hplus]
    · rfl
  have hword : ∀ first word, first.isDigit = false →
      lowerAscii (c :: rest) ≠ first :: word := by
    intro first word hfirst hword
    rw [lowerAscii, List.map_cons, toLower_of_isDigit hc] at hword
    exact ne_of_isDigit hc hfirst (List.cons.inj hword).1
  have hinf : lowerAscii (c :: rest) ≠ "inf".toList := hword _ _ rfl
  have hinfinity : lowerAscii (c :: rest) ≠ "infinity".toList := hword _ _ rfl
  have hnan : lowerAscii (c :: rest) ≠ "nan".toList := hword _ _ rfl
  simp only [ofText?, String.toList_ofList, hsign, hinf, hinfinity, hnan, or_self, if_false,
    hmantissa, readExponent?, Option.map_some, zero_sub]
  rw [ofDecimal_of_inInterval hcanonical hpos hin]

/-- The text of a readable number denotes the number. -/
theorem ofText?_toText {x : Number} (hreadable : x.IsReadable) : ofText? x.toText = some x := by
  cases x with
  | nan => rfl
  | infinite negative => cases negative <;> rfl
  | finite negative significand exponent =>
      rcases Nat.eq_zero_or_pos significand with rfl | hpos
      · obtain rfl : exponent = leastExponent := by
          by_contra hne
          have hlimit := hreadable.limit_le (lt_of_le_of_ne hreadable.least_le (Ne.symm hne))
          omega
        cases negative <;> rfl
      · have hdecimal := isDecimal_positional (shortest significand exponent)
        have hread := ofText?_of_isDecimal hdecimal hreadable hpos
          (shortest_spec hreadable hpos).2 negative
        rw [toText, if_neg hpos.ne', ← hread]
        cases negative <;> simp

/-- The characters of the text of a number. -/
def IsNumberChar (c : Char) : Prop := c.isDigit = true ∨ c ∈ ".-infNa".toList

theorem isNumberChar_of_mem_toText {x : Number} {c : Char} (hc : c ∈ x.toText.toList) :
    IsNumberChar c := by
  cases x with
  | nan => exact .inr (Text.forall_mem_of_all (by decide) c hc)
  | infinite negative =>
      right
      cases negative with
      | false => exact Text.forall_mem_of_all (by decide) c hc
      | true => exact Text.forall_mem_of_all (by decide) c hc
  | finite negative significand exponent =>
      have hsign : ∀ c ∈ (if negative then "-" else "").toList, c = '-' := by
        cases negative <;> exact Text.forall_mem_of_all (by decide)
      have hdecimal := (isDecimal_positional (shortest significand exponent)).chars
      simp only [toText] at hc
      split at hc
      all_goals
        rw [String.toList_append] at hc
        rcases List.mem_append.mp hc with hc | hc
      · rw [hsign c hc]
        exact .inr (by decide)
      · obtain rfl : c = '0' := List.mem_singleton.mp hc
        exact .inl rfl
      · rw [hsign c hc]
        exact .inr (by decide)
      · rcases hdecimal c hc with hc | rfl
        · exact .inl hc
        · exact .inr (by decide)

theorem toText_ne_nil (x : Number) : x.toText.toList ≠ [] := by
  cases x with
  | nan => decide
  | infinite negative => cases negative <;> decide
  | finite negative significand exponent =>
      obtain ⟨c, rest, hpositional, -⟩ :=
        (isDecimal_positional (shortest significand exponent)).head
      rw [toText]
      split <;> simp only [String.toList_append] <;> simp [hpositional]

end Number

end ReactiveLint
