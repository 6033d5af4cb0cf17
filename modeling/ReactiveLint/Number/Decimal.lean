import ReactiveLint.Number.Basic

/-!
# Decimal text of numbers

`Number.toText` writes the fewest digits that read back as the same number, of
those the nearest ones, always in positional notation.  `Number.ofText?` reads
decimal text and rounds once.
-/

namespace ReactiveLint.Number

/-- The significant digits of a positive number: it is close to
`digits * 10 ^ exponent`. -/
structure Digits where
  digits : Nat
  exponent : Int
deriving DecidableEq, Repr

/-- The values that read back as one number: an interval with rational ends
over a common denominator, which belong to it exactly when the significand is
even. -/
structure RoundingInterval where
  low : Nat
  value : Nat
  high : Nat
  den : Nat
  closed : Bool

/-- Below a power of two the next number is half as far away as above. -/
def roundingInterval (significand : Nat) (exponent : Int) : RoundingInterval :=
  let (num, den) := magnitude significand exponent
  let (unit, _) := magnitude 1 exponent
  let narrow := significand = significandLimit / 2 ∧ leastExponent < exponent
  { low := 4 * num - (if narrow then unit else 2 * unit)
    value := 4 * num
    high := 4 * num + 2 * unit
    den := 4 * den
    closed := significand % 2 = 0 }

def RoundingInterval.holds (interval : RoundingInterval) (num den : Nat) : Bool :=
  let scaledLow := interval.low * den
  let scaledHigh := interval.high * den
  let scaled := num * interval.den
  if interval.closed then decide (scaledLow ≤ scaled ∧ scaled ≤ scaledHigh)
  else decide (scaledLow < scaled ∧ scaled < scaledHigh)

/-- `n * 10 ^ exponent` as a numerator and a denominator. -/
def scaleTen (n : Nat) : Int → Nat × Nat
  | .ofNat exponent => (n * Nat.pow 10 exponent, 1)
  | .negSucc exponent => (n, Nat.pow 10 (exponent + 1))

/-- The best point of the grid of multiples of `10 ^ exponent` that reads back
as the number.  Only the two neighbours of the number can be best, and halfway
between them the upper one is taken. -/
def RoundingInterval.onGrid? (interval : RoundingInterval) (exponent : Int) : Option Nat :=
  let (unitNum, unitDen) := scaleTen 1 exponent
  let below := interval.value * unitDen / (interval.den * unitNum)
  let point := fun n => scaleTen n exponent
  let fits := fun n => interval.holds (point n).1 (point n).2
  let twiceValue := 2 * interval.value * unitDen
  let middle := (2 * below + 1) * interval.den * unitNum
  let nearer := if twiceValue < middle then below else below + 1
  let farther := if twiceValue < middle then below + 1 else below
  if fits nearer && nearer != 0 then some nearer
  else if fits farther && farther != 0 then some farther
  else none

/-- The first grid, from coarse to fine, with a point that reads back. -/
def RoundingInterval.search (interval : RoundingInterval) : Nat → Int → Digits
  | 0, exponent => ⟨0, exponent⟩
  | steps + 1, exponent =>
      match interval.onGrid? exponent with
      | some digits => ⟨digits, exponent⟩
      | none => interval.search steps (exponent - 1)

/-- The number of decimal digits of a natural number. -/
def digitCount (n : Nat) : Nat := (Nat.toDigits 10 n).length

/-- A decimal exponent not below that of the first digit. -/
def leadingExponent (num den : Nat) : Int := (digitCount num : Int) - digitCount den + 1

/-- Seventeen digits always read back, so with the two steps that
`leadingExponent` may start too high twenty grids are enough. -/
def shortest (significand : Nat) (exponent : Int) : Digits :=
  let interval := roundingInterval significand exponent
  let (num, den) := magnitude significand exponent
  interval.search 20 (leadingExponent num den)

/-- Positional notation, without a point when there is no fraction. -/
def Digits.positional (d : Digits) : String :=
  match d.exponent with
  | .ofNat exponent =>
      toString d.digits ++ String.ofList (List.replicate exponent '0')
  | .negSucc exponent =>
      let places := exponent + 1
      let text := Nat.toDigits 10 d.digits
      let padded := List.replicate (places + 1 - text.length) '0' ++ text
      let whole := padded.take (padded.length - places)
      let fraction := padded.drop (padded.length - places)
      let kept := (fraction.reverse.dropWhile (· == '0')).reverse
      if kept.isEmpty then String.ofList whole
      else String.ofList (whole ++ '.' :: kept)

def toText : Number → String
  | finite negative significand exponent =>
      let sign := if negative then "-" else ""
      if significand = 0 then sign ++ "0"
      else sign ++ (shortest significand exponent).positional
  | infinite negative => if negative then "-inf" else "inf"
  | nan => "NaN"

/-- Scientific notation with a mark that keeps the text a fraction on reading. -/
def toScientific : Number → String
  | finite negative significand exponent =>
      let sign := if negative then "-" else ""
      if significand = 0 then sign ++ "0.0"
      else
        let d := shortest significand exponent
        sign ++ toString d.digits ++ ".0e" ++ toString d.exponent
  | infinite negative => if negative then "-inf" else "inf"
  | nan => "NaN"

/-- The number nearest to `±digits * 10 ^ exponent`.  Far out of range the
answer is known without computing the power. -/
def ofDecimal (negative : Bool) (digits : Nat) (exponent : Int) : Number :=
  if digits = 0 then signedZero negative
  else if 400 < exponent then .infinite negative
  else if exponent + digitCount digits < -400 then signedZero negative
  else
    let (num, den) := scaleTen digits exponent
    ofRatio negative num den

/-- The value of a run of decimal digits. -/
def digitsValue (cs : List Char) : Nat :=
  cs.foldl (fun value c => 10 * value + (c.toNat - '0'.toNat)) 0

/-- A run of decimal digits at the start of a text, and the rest. -/
def spanDigits (cs : List Char) : List Char × List Char :=
  (cs.takeWhile Char.isDigit, cs.dropWhile Char.isDigit)

def lowerAscii (cs : List Char) : List Char := cs.map Char.toLower

/-- An optional sign. -/
def splitSign : List Char → Bool × List Char
  | '-' :: cs => (true, cs)
  | '+' :: cs => (false, cs)
  | cs => (false, cs)

/-- The exponent part after a mantissa: nothing, or `e` with digits. -/
def readExponent? : List Char → Option Int
  | [] => some 0
  | c :: cs =>
      if c = 'e' ∨ c = 'E' then
        let (negative, cs) := splitSign cs
        let (digits, rest) := spanDigits cs
        if digits.isEmpty || !rest.isEmpty then none
        else some (applySign negative (digitsValue digits))
      else
        none

/-- Digits with an optional point on either side of them. -/
def readMantissa? (cs : List Char) : Option (Nat × Nat × List Char) :=
  let (whole, rest) := spanDigits cs
  let (fraction, rest) :=
    match rest with
    | '.' :: rest => spanDigits rest
    | rest => ([], rest)
  if whole.isEmpty && fraction.isEmpty then none
  else some (digitsValue (whole ++ fraction), fraction.length, rest)

/-- Decimal text: a sign, then digits with an optional point and exponent, or a
word for infinity or not-a-number in any case of its letters.  Blanks,
separators and other bases are refused. -/
def ofText? (text : String) : Option Number :=
  let (negative, cs) := splitSign text.toList
  let word := lowerAscii cs
  if word = "inf".toList ∨ word = "infinity".toList then some (.infinite negative)
  else if word = "nan".toList then some .nan
  else
    match readMantissa? cs with
    | none => none
    | some (digits, places, rest) =>
        (readExponent? rest).map fun exponent =>
          ofDecimal negative digits (exponent - places)

end ReactiveLint.Number
