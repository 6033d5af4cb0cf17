import ReactiveLint.Data.Json
import ReactiveLint.Number.Decimal

/-!
# YAML documents

A document is a tree of scalars, lists and maps.  What a plain scalar means is
decided late, since some readers want its text and others its value.
-/

namespace ReactiveLint

inductive Yaml
  /-- A plain scalar is one without quotes. -/
  | scalar (text : String) (plain : Bool)
  | list (items : List Yaml)
  | map (entries : List (Yaml × Yaml))
deriving Repr, Inhabited

namespace Yaml

/-- What stands where nothing is written. -/
def absent : Yaml := scalar "" true

/-- The text of a scalar. -/
def text? : Yaml → Option String
  | scalar text _ => some text
  | _ => none

def isAbsent : Yaml → Bool
  | scalar text plain => plain && text == ""
  | _ => false

/-- Whether digits are no number because of zeros before them. -/
def hasLeadingZero (digits : List Char) : Bool :=
  digits.head? == some '0' && digits.length != 1

def isHexDigit (c : Char) : Bool :=
  c.isDigit || ('a' ≤ c && c ≤ 'f') || ('A' ≤ c && c ≤ 'F')

/-- The value of digits of a base up to sixteen. -/
def baseValue? (base : Nat) (digits : List Char) : Option Nat :=
  if digits.isEmpty then none
  else digits.foldlM (fun value c =>
    let digit :=
      if c.isDigit then c.toNat - '0'.toNat
      else if isHexDigit c then c.toLower.toNat - 'a'.toNat + 10
      else base
    if digit < base then some (base * value + digit) else none) 0

/-- An unsigned integer: decimal, or in another base with its mark. -/
def natOf? : List Char → Option Nat
  | '0' :: 'x' :: digits => baseValue? 16 digits
  | '0' :: 'o' :: digits => baseValue? 8 digits
  | '0' :: 'b' :: digits => baseValue? 2 digits
  | digits => if hasLeadingZero digits then none else baseValue? 10 digits

def intOf? : List Char → Option Int
  | '-' :: digits => (natOf? digits).map fun n => -(n : Int)
  | '+' :: digits => (natOf? digits).map Int.ofNat
  | digits => (natOf? digits).map Int.ofNat

/-- A fraction that JSON can hold; infinities count as nothing there. -/
def fractionOf? (text : List Char) : Option Json :=
  let unsigned := match text with
    | '-' :: rest => rest
    | '+' :: rest => rest
    | rest => rest
  if [".inf", ".Inf", ".INF", ".nan", ".NaN", ".NAN"].contains (String.ofList unsigned) then
    some .null
  else if hasLeadingZero unsigned && unsigned.all Char.isDigit then none
  else
    match Number.ofText? (String.ofList text) with
    | some (.finite negative significand exponent) =>
        some (.float (.finite negative significand exponent))
    | _ => none

/-- The value of a plain scalar. -/
def plainValue (text : String) : Json :=
  if ["", "~", "null", "Null", "NULL"].contains text then .null
  else if ["true", "True", "TRUE"].contains text then .bool true
  else if ["false", "False", "FALSE"].contains text then .bool false
  else
    match intOf? text.toList with
    | some n => .int n
    | none => (fractionOf? text.toList).getD (.str text)

mutual

/-- A document as JSON; the keys of its maps must be strings. -/
def toJson? : Yaml → Option Json
  | scalar text plain => some (if plain then plainValue text else .str text)
  | list items => (itemsToJson? items).map .list
  | map entries => (entriesToJson? entries).map .object

def itemsToJson? : List Yaml → Option (List Json)
  | [] => some []
  | item :: items => do
      let item ← toJson? item
      return item :: (← itemsToJson? items)

def entriesToJson? : List (Yaml × Yaml) → Option (List (String × Json))
  | [] => some []
  | (key, value) :: entries => do
      let key ← (← toJson? key).asString?
      let value ← toJson? value
      return (key, value) :: (← entriesToJson? entries)

end

end Yaml

end ReactiveLint
