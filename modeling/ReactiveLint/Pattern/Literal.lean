import ReactiveLint.Pattern.Basic

/-!
# Patterns of plain texts

A plain text is a pattern of its characters.  Written as the text of a pattern,
the characters that have a meaning in patterns are escaped.
-/

namespace ReactiveLint.Pattern

/-- Describes exactly a text. -/
def literal : List Char → Pattern
  | [] => empty
  | c :: cs => seq (one (.single c)) (literal cs)

/-- The characters that mean something in the text of a pattern. -/
def metaChars : List Char := r"\.+*?()|[]{}^$#&-~".toList

/-- The text of a pattern that describes exactly a text. -/
def escape (text : String) : String :=
  String.ofList (text.toList.flatMap fun c => if metaChars.contains c then ['\\', c] else [c])

end ReactiveLint.Pattern
