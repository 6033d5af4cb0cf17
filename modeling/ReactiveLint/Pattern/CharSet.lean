import ReactiveLint.Text.Blank
import ReactiveLint.Text.Case
import ReactiveLint.Text.Letter
import ReactiveLint.Text.Script

/-!
# Sets of characters

What one character of a pattern may be: ranges, named classes and their
Boolean combinations.  `anyCase` closes a set under change of case.
-/

namespace ReactiveLint

inductive CharClass
  | any
  | ascii
  | assigned
  | digit
  | blank
  | word
  | alphabetic
  | lowercase
  | uppercase
  | categories (members : List Text.Category)
  | script (name : Text.Script)
deriving DecidableEq, Repr

namespace CharClass

def holds : CharClass → Char → Bool
  | any, _ => true
  | ascii, c => decide (c.toNat < 128)
  | assigned, c => Text.Category.ofChar c != .unassigned
  | digit, c => Text.isDecimalDigit c
  | blank, c => Text.isBlank c
  | word, c => Text.isWordChar c
  | alphabetic, c => Text.isAlphabetic c
  | lowercase, c => Text.isLowercase c
  | uppercase, c => Text.isUppercase c
  | categories members, c => members.contains (Text.Category.ofChar c)
  | .script name, c => name.holds c

end CharClass

inductive CharSet
  | none
  | range (first last : Char)
  | class (members : CharClass)
  | union (left right : CharSet)
  | inter (left right : CharSet)
  | diff (left right : CharSet)
  | symmDiff (left right : CharSet)
  | compl (set : CharSet)
  | anyCase (set : CharSet)
deriving DecidableEq, Repr

namespace CharSet

def single (c : Char) : CharSet := range c c

def ofRanges (ranges : List (Char × Char)) : CharSet :=
  ranges.foldr (fun (first, last) set => union (range first last) set) none

def holds : CharSet → Char → Bool
  | none, _ => false
  | range first last, c => decide (first ≤ c) && decide (c ≤ last)
  | .class members, c => members.holds c
  | union left right, c => left.holds c || right.holds c
  | inter left right, c => left.holds c && right.holds c
  | diff left right, c => left.holds c && !right.holds c
  | symmDiff left right, c => left.holds c != right.holds c
  | compl set, c => !set.holds c
  | anyCase set, c => set.holds c || (Text.Case.orbit c).any set.holds

theorem holds_compl (set : CharSet) (c : Char) : set.compl.holds c = !set.holds c := rfl

end CharSet

end ReactiveLint
