import ReactiveLint.Number.Decimal
import ReactiveLint.Text.Blank

/-!
# Scalar attributes

The values that a node carries beside its children, with the text that literal
comparisons see and the number that ordered comparisons see.
-/

namespace ReactiveLint

inductive Scalar
  | null
  | bool (value : Bool)
  | number (value : Number)
  | text (value : String)
deriving DecidableEq, Repr, Inhabited

/-- A whole number below 10^15 is written as an integer, so zero has no sign;
all others are written with their shortest digits. -/
def Number.literalText (x : Number) : String :=
  match x.toInt? with
  | some n => if n.natAbs < Nat.pow 10 15 then toString n else x.toText
  | none => x.toText

namespace Scalar

def toText : Scalar → String
  | null => "null"
  | bool true => "true"
  | bool false => "false"
  | number x => x.literalText
  | text s => s

def asText? : Scalar → Option String
  | text s => some s
  | _ => none

/-- Texts count as the decimal number they spell between blanks. -/
def toNumber? : Scalar → Option Number
  | null => some .zero
  | bool value => some (if value then .ofNat 1 else .zero)
  | number x => some x
  | text s => Number.ofText? (Text.trimmed s)

end Scalar

end ReactiveLint
