import ReactiveLint.Number.Basic

/-!
# Fixed decimals

`Number.toFixed` writes a number with a given count of decimals.  The exact value is
rounded once, halves to the even digit.
-/

namespace ReactiveLint.Number

/-- A count of units of which `10 ^ places` make one whole. -/
def fixedText (units places : Nat) : String :=
  let digits := Nat.toDigits 10 units
  let padded := List.replicate (places + 1 - digits.length) '0' ++ digits
  let whole := padded.take (padded.length - places)
  let fraction := padded.drop (padded.length - places)
  if places = 0 then String.ofList whole else String.ofList (whole ++ '.' :: fraction)

def toFixed (places : Nat) : Number → String
  | finite negative significand exponent =>
      let (num, den) := magnitude significand exponent
      let sign := if negative then "-" else ""
      sign ++ fixedText (roundHalfEven (num * Nat.pow 10 places) den) places
  | infinite negative => if negative then "-inf" else "inf"
  | nan => "NaN"

end ReactiveLint.Number
