import ReactiveLint.Text.CodeRange

/-!
# Blank characters

The white space of Unicode, in and around ASCII, and trimming by it.
-/

namespace ReactiveLint.Text

def blankRanges : List CodeRange :=
  CodeRange.table [ "9-D 20 85 A0 1680 2000-200A 2028-2029 202F 205F 3000" ]

def isBlank (c : Char) : Bool := CodeRange.member blankRanges c.toNat

def trimStart (cs : List Char) : List Char := cs.dropWhile isBlank

def trimEnd (cs : List Char) : List Char := (cs.reverse.dropWhile isBlank).reverse

def trim (cs : List Char) : List Char := trimEnd (trimStart cs)

/-- Strings without the blanks around them. -/
def trimmed (text : String) : String := String.ofList (trim text.toList)

end ReactiveLint.Text
