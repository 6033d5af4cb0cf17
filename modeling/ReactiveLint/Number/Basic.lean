/-!
# Binary floating-point numbers

A number is an exact dyadic value, an infinity or not a number.  Every finite
one is written `±significand * 2 ^ exponent` with 53 bits of significand and a
least exponent of -1074, so equality of representations is equality of values
(the two zeros apart).  All arithmetic is exact integer arithmetic followed by
one rounding to the nearest value, halves to the even neighbour.
-/

namespace ReactiveLint

inductive Number
  | finite (negative : Bool) (significand : Nat) (exponent : Int)
  | infinite (negative : Bool)
  | nan
deriving DecidableEq, Repr

namespace Number

/-- The exponent of the smallest positive value. -/
def leastExponent : Int := -1074

/-- The exponent of the values just below overflow. -/
def greatestExponent : Int := 971

/-- One more than the greatest significand. -/
def significandLimit : Nat := Nat.pow 2 53

def signedZero (negative : Bool) : Number := .finite negative 0 leastExponent

def zero : Number := signedZero false

instance : Inhabited Number := ⟨zero⟩

/-- A quotient rounded to the nearest natural number, halves to the even one. -/
def roundHalfEven (num den : Nat) : Nat :=
  let quotient := num / den
  let remainder := num % den
  if 2 * remainder < den then quotient
  else if den < 2 * remainder then quotient + 1
  else if quotient % 2 = 0 then quotient
  else quotient + 1

/-- `num / den` divided by `2 ^ exponent`, as a numerator and a denominator. -/
def unscale (num den : Nat) : Int → Nat × Nat
  | .ofNat exponent => (num, den * Nat.pow 2 exponent)
  | .negSucc exponent => (num * Nat.pow 2 (exponent + 1), den)

/-- The exponent whose significands of 53 bits reach `num / den`. -/
def exponentFor (num den : Nat) : Int :=
  let guess := max ((Nat.log2 num : Int) - Nat.log2 den - 53) leastExponent
  let (num', den') := unscale num den guess
  if num' / den' < significandLimit then guess else guess + 1

/-- The number nearest to `±num / den`. -/
def ofRatio (negative : Bool) (num den : Nat) : Number :=
  if num = 0 then
    signedZero negative
  else
    let exponent := exponentFor num den
    let (num', den') := unscale num den exponent
    let significand := roundHalfEven num' den'
    let (significand, exponent) :=
      if significand < significandLimit then (significand, exponent)
      else (significand / 2, exponent + 1)
    if greatestExponent < exponent then .infinite negative
    else .finite negative significand exponent

def ofNat (n : Nat) : Number := ofRatio false n 1

def ofInt (n : Int) : Number := ofRatio (decide (n < 0)) n.natAbs 1

def isNegative : Number → Bool
  | finite negative _ _ => negative
  | infinite negative => negative
  | nan => false

/-- The absolute value of a finite number as a numerator and a denominator. -/
def magnitude (significand : Nat) (exponent : Int) : Nat × Nat :=
  match exponent with
  | .ofNat exponent => (significand * Nat.pow 2 exponent, 1)
  | .negSucc exponent => (significand, Nat.pow 2 (exponent + 1))

/-- The sign of a finite number times a natural number. -/
def applySign (negative : Bool) (n : Nat) : Int := if negative then -(n : Int) else n

def isZero : Number → Bool
  | finite _ significand _ => significand == 0
  | _ => false

/-- The product; zero times an infinity is nothing. -/
def mul : Number → Number → Number
  | finite negative₁ significand₁ exponent₁, finite negative₂ significand₂ exponent₂ =>
      let (num₁, den₁) := magnitude significand₁ exponent₁
      let (num₂, den₂) := magnitude significand₂ exponent₂
      ofRatio (negative₁ != negative₂) (num₁ * num₂) (den₁ * den₂)
  | nan, _ => nan
  | _, nan => nan
  | left, right =>
      if left.isZero || right.isZero then nan
      else infinite (left.isNegative != right.isNegative)

/-- The quotient; a zero divisor gives an infinity, or nothing for zero. -/
def div : Number → Number → Number
  | finite negative₁ significand₁ exponent₁, finite negative₂ significand₂ exponent₂ =>
      let (num₁, den₁) := magnitude significand₁ exponent₁
      let (num₂, den₂) := magnitude significand₂ exponent₂
      if num₂ = 0 then
        if num₁ = 0 then nan else infinite (negative₁ != negative₂)
      else
        ofRatio (negative₁ != negative₂) (num₁ * den₂) (den₁ * num₂)
  | infinite negative₁, finite negative₂ _ _ => infinite (negative₁ != negative₂)
  | finite negative₁ _ _, infinite negative₂ => signedZero (negative₁ != negative₂)
  | _, _ => nan

/-- The sum; an infinite operand decides it, unless two infinities disagree. -/
def add : Number → Number → Number
  | finite negative₁ significand₁ exponent₁, finite negative₂ significand₂ exponent₂ =>
      let (num₁, den₁) := magnitude significand₁ exponent₁
      let (num₂, den₂) := magnitude significand₂ exponent₂
      let sum := applySign negative₁ (num₁ * den₂) + applySign negative₂ (num₂ * den₁)
      if sum = 0 then signedZero (negative₁ && negative₂)
      else ofRatio (decide (sum < 0)) sum.natAbs (den₁ * den₂)
  | nan, _ => nan
  | _, nan => nan
  | infinite negative₁, infinite negative₂ =>
      if negative₁ = negative₂ then infinite negative₁ else nan
  | infinite negative, _ => infinite negative
  | _, infinite negative => infinite negative

/-- Strict order; nothing is less or greater than what is not a number. -/
def lt : Number → Number → Bool
  | finite negative₁ significand₁ exponent₁, finite negative₂ significand₂ exponent₂ =>
      let (num₁, den₁) := magnitude significand₁ exponent₁
      let (num₂, den₂) := magnitude significand₂ exponent₂
      decide (applySign negative₁ (num₁ * den₂) < applySign negative₂ (num₂ * den₁))
  | nan, _ => false
  | _, nan => false
  | infinite negative₁, infinite negative₂ => negative₁ && !negative₂
  | infinite negative, finite .. => negative
  | finite .., infinite negative => !negative

/-- Equality of values: the zeros are equal, and what is not a number differs
even from itself. -/
def eq : Number → Number → Bool
  | finite negative₁ significand₁ exponent₁, finite negative₂ significand₂ exponent₂ =>
      let (num₁, den₁) := magnitude significand₁ exponent₁
      let (num₂, den₂) := magnitude significand₂ exponent₂
      decide (applySign negative₁ (num₁ * den₂) = applySign negative₂ (num₂ * den₁))
  | infinite negative₁, infinite negative₂ => decide (negative₁ = negative₂)
  | _, _ => false

def le (left right : Number) : Bool := left.lt right || left.eq right

/-- The value of a number without fractional part. -/
def toInt? : Number → Option Int
  | finite negative significand exponent =>
      let (num, den) := magnitude significand exponent
      if num % den = 0 then some (applySign negative (num / den)) else none
  | _ => none

@[simp]
theorem lt_nan (x : Number) : x.lt nan = false := by cases x <;> rfl

@[simp]
theorem nan_lt (x : Number) : nan.lt x = false := by cases x <;> rfl

@[simp]
theorem nan_eq (x : Number) : nan.eq x = false := by cases x <;> rfl

@[simp]
theorem eq_nan (x : Number) : x.eq nan = false := by cases x <;> rfl

end Number

end ReactiveLint
