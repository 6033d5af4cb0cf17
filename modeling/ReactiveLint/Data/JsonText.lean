import ReactiveLint.Data.Json
import ReactiveLint.Number.Decimal

/-!
# JSON text

`Json.parse?` reads strict JSON: no comments, no trailing commas, no lone
surrogate escapes, at most 127 levels of nesting.  `Json.render` writes a value
on one line.
-/

namespace ReactiveLint.Json

/-- Deeper nesting is refused. -/
def depthLimit : Nat := 127

def isSpace (c : Char) : Bool := c == ' ' || c == '\n' || c == '\t' || c == '\r'

def skipSpace (cs : List Char) : List Char := cs.dropWhile isSpace

def hexDigit? (c : Char) : Option Nat :=
  if c.isDigit then some (c.toNat - 48)
  else if 'a' ≤ c ∧ c ≤ 'f' then some (c.toNat - 87)
  else if 'A' ≤ c ∧ c ≤ 'F' then some (c.toNat - 55)
  else none

/-- Four hexadecimal digits. -/
def readUnit? : List Char → Option (Nat × List Char)
  | a :: b :: c :: d :: cs => do
      let a ← hexDigit? a
      let b ← hexDigit? b
      let c ← hexDigit? c
      let d ← hexDigit? d
      some (((a * 16 + b) * 16 + c) * 16 + d, cs)
  | _ => none

/-- The character after `\u`: one unit, or a surrogate pair in two escapes. -/
def readUnicodeEscape? (cs : List Char) : Option (Char × List Char) := do
  let (unit, cs) ← readUnit? cs
  if 0xDC00 ≤ unit ∧ unit ≤ 0xDFFF then none
  else if 0xD800 ≤ unit ∧ unit ≤ 0xDBFF then
    match cs with
    | '\\' :: 'u' :: cs =>
        let (low, cs) ← readUnit? cs
        if 0xDC00 ≤ low ∧ low ≤ 0xDFFF then
          some (Char.ofNat (0x10000 + (unit - 0xD800) * 0x400 + (low - 0xDC00)), cs)
        else none
    | _ => none
  else some (Char.ofNat unit, cs)

/-- The character after a backslash, other than `u`. -/
def simpleEscape? : Char → Option Char
  | '"' => some '"'
  | '\\' => some '\\'
  | '/' => some '/'
  | 'b' => some '\x08'
  | 'f' => some '\x0c'
  | 'n' => some '\n'
  | 'r' => some '\r'
  | 't' => some '\t'
  | _ => none

/-- The rest of a string after its opening quote, read characters first in
reverse. -/
def readString? : Nat → List Char → List Char → Option (String × List Char)
  | 0, _, _ => none
  | fuel + 1, read, cs =>
      match cs with
      | [] => none
      | '"' :: cs => some (String.ofList read.reverse, cs)
      | '\\' :: 'u' :: cs =>
          match readUnicodeEscape? cs with
          | some (c, cs) => readString? fuel (c :: read) cs
          | none => none
      | '\\' :: c :: cs =>
          match simpleEscape? c with
          | some c => readString? fuel (c :: read) cs
          | none => none
      | c :: cs => if c.toNat < 32 then none else readString? fuel (c :: read) cs

/-- The digits before the point: a lone zero, or no leading zero. -/
def readWhole? (cs : List Char) : Option (List Char × List Char) :=
  match Number.spanDigits cs with
  | ([], _) => none
  | ('0' :: _ :: _, _) => none
  | parts => some parts

/-- The digits after a point, of which there must be some. -/
def readFraction? : List Char → Option (List Char × List Char)
  | '.' :: cs =>
      match Number.spanDigits cs with
      | ([], _) => none
      | parts => some parts
  | cs => some ([], cs)

/-- A written exponent, if any, and the rest. -/
def readPower? : List Char → Option (Option Int × List Char)
  | c :: cs =>
      if c = 'e' ∨ c = 'E' then
        let (negative, cs) := Number.splitSign cs
        match Number.spanDigits cs with
        | ([], _) => none
        | (digits, rest) =>
            some (some (Number.applySign negative (Number.digitsValue digits)), rest)
      else
        some (none, c :: cs)
  | [] => some (none, [])

/-- The leading digits that a significand can take up within 64 bits, and how
many digits it could not. -/
def packDigits (significand : Nat) : List Char → Nat × Nat
  | [] => (significand, 0)
  | c :: cs =>
      let next := 10 * significand + (c.toNat - 48)
      if next < Nat.pow 2 64 then packDigits next cs else (significand, cs.length + 1)

/-- The greatest power of ten below overflow. -/
def greatestPower : Nat := 308

def powerOfTen (exponent : Nat) : Number := .ofDecimal false 1 exponent

/-- Division by a power of ten in steps of at most the greatest power. -/
def lowerBy (value : Number) (exponent : Nat) : Number :=
  let steps := (exponent - 1) / greatestPower
  let reduced := steps.repeat (·.div (powerOfTen greatestPower)) value
  reduced.div (powerOfTen (exponent - greatestPower * steps))

/-- A significand of 64 bits scaled by a power of ten.  The significand and the
power are rounded first, so the last bit may differ from the nearest number.
Overflow is refused, and far below the least value the answer is zero. -/
def scale? (negative : Bool) (significand : Nat) (exponent : Int) : Option Number :=
  let value := Number.ofNat significand
  let magnitude :=
    if significand = 0 ∨ exponent < -1000 then some Number.zero
    else if exponent < 0 then some (lowerBy value exponent.natAbs)
    else if exponent ≤ greatestPower then some (value.mul (powerOfTen exponent.natAbs))
    else none
  match magnitude with
  | some (.finite _ significand exponent) => some (.finite negative significand exponent)
  | _ => none

def readNumber? (cs : List Char) : Option (Json × List Char) := do
  let (negative, cs) := match cs with
    | '-' :: cs => (true, cs)
    | cs => (false, cs)
  let (whole, cs) ← readWhole? cs
  let (fraction, cs) ← readFraction? cs
  let (power, cs) ← readPower? cs
  let value := Number.digitsValue whole
  let isWhole := fraction.isEmpty && power.isNone
  if isWhole && !negative && decide (value < Nat.pow 2 64) then
    some (.int value, cs)
  else if isWhole && negative && value != 0 && decide (value ≤ Nat.pow 2 63) then
    some (.int (-(value : Int)), cs)
  else
    let (significand, droppedWhole) := packDigits 0 whole
    let (significand, droppedFraction) := packDigits significand fraction
    let exponent := power.getD 0 - fraction.length + droppedWhole + droppedFraction
    let number ← scale? negative significand exponent
    some (.float number, cs)

/-- A word that must stand at the start. -/
def readWord? (word : String) (cs : List Char) : Option (List Char) :=
  let letters := word.toList
  if letters.isPrefixOf cs then some (cs.drop letters.length) else none

mutual

/-- A value at the start of the text.  Every step of the readers takes at least
one character, so as many steps as characters suffice. -/
def readValue? : Nat → Nat → List Char → Option (Json × List Char)
  | 0, _, _ => none
  | fuel + 1, depth, cs =>
      match skipSpace cs with
      | '"' :: cs => (readString? (cs.length + 1) [] cs).map fun (s, cs) => (.str s, cs)
      | '[' :: cs =>
          match depth with
          | 0 => none
          | depth + 1 =>
              match skipSpace cs with
              | ']' :: cs => some (.list [], cs)
              | cs => (readItems? fuel depth [] cs).map fun (items, cs) => (.list items, cs)
      | '\x7b' :: cs =>
          match depth with
          | 0 => none
          | depth + 1 =>
              match skipSpace cs with
              | '\x7d' :: cs => some (.object [], cs)
              | cs =>
                  (readMembers? fuel depth [] cs).map fun (members, cs) =>
                    (.object members, cs)
      | 'n' :: cs => (readWord? "ull" cs).map fun cs => (.null, cs)
      | 't' :: cs => (readWord? "rue" cs).map fun cs => (.bool true, cs)
      | 'f' :: cs => (readWord? "alse" cs).map fun cs => (.bool false, cs)
      | cs => readNumber? cs

/-- The items of a list up to its closing bracket, read items in reverse. -/
def readItems? : Nat → Nat → List Json → List Char → Option (List Json × List Char)
  | 0, _, _, _ => none
  | fuel + 1, depth, read, cs =>
      match readValue? fuel depth cs with
      | none => none
      | some (item, cs) =>
          match skipSpace cs with
          | ',' :: cs => readItems? fuel depth (item :: read) cs
          | ']' :: cs => some ((item :: read).reverse, cs)
          | _ => none

/-- The members of an object up to its closing brace, read members in
reverse. -/
def readMembers? :
    Nat → Nat → List (String × Json) → List Char → Option (List (String × Json) × List Char)
  | 0, _, _, _ => none
  | fuel + 1, depth, read, cs =>
      match skipSpace cs with
      | '"' :: cs =>
          match readString? (cs.length + 1) [] cs with
          | none => none
          | some (key, cs) =>
              match skipSpace cs with
              | ':' :: cs =>
                  match readValue? fuel depth cs with
                  | none => none
                  | some (value, cs) =>
                      match skipSpace cs with
                      | ',' :: cs => readMembers? fuel depth ((key, value) :: read) cs
                      | '\x7d' :: cs => some (((key, value) :: read).reverse, cs)
                      | _ => none
              | _ => none
      | _ => none

end

/-- A whole text that holds one value. -/
def parse? (text : String) : Option Json :=
  let cs := text.toList
  match readValue? (cs.length + 1) depthLimit cs with
  | some (json, rest) => if (skipSpace rest).isEmpty then some json else none
  | none => none

def hexText (width n : Nat) : List Char :=
  let digits := Nat.toDigits 16 n
  List.replicate (width - digits.length) '0' ++ digits

def escapeChar : Char → List Char
  | '"' => ['\\', '"']
  | '\\' => ['\\', '\\']
  | '\n' => ['\\', 'n']
  | '\r' => ['\\', 'r']
  | '\t' => ['\\', 't']
  | c => if c.toNat < 32 then '\\' :: 'u' :: hexText 4 c.toNat else [c]

def quote (text : String) : String :=
  String.ofList ('"' :: text.toList.flatMap escapeChar ++ ['"'])

mutual

def render : Json → String
  | null => "null"
  | bool value => if value then "true" else "false"
  | int value => toString value
  | float value => value.toScientific
  | str value => quote value
  | list items => "[" ++ renderItems items ++ "]"
  | object members => "\x7b" ++ renderMembers members ++ "\x7d"

def renderItems : List Json → String
  | [] => ""
  | [item] => item.render
  | item :: items => item.render ++ "," ++ renderItems items

def renderMembers : List (String × Json) → String
  | [] => ""
  | [(key, value)] => quote key ++ ":" ++ value.render
  | (key, value) :: members =>
      quote key ++ ":" ++ value.render ++ "," ++ renderMembers members

end

end ReactiveLint.Json
