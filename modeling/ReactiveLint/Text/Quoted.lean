import ReactiveLint.Text.Category

/-!
# Quoted text

Text between double quotes on one line.  Quotes, backslashes and line breaks are
escaped, and so are characters that show nothing or that join the one before them.
-/

namespace ReactiveLint.Text

/-- Whether a character can stand for itself in quoted text. -/
def isPlain (c : Char) : Bool :=
  c == ' ' ||
    !([.nonspacingMark, .enclosingMark, .spaceSeparator, .lineSeparator, .paragraphSeparator,
      .control, .format, .surrogate, .privateUse, .unassigned] : List Category).contains
        (Category.ofChar c)

/-- The number of a character in hexadecimal digits. -/
def codeEscape (c : Char) : List Char :=
  ['\\', 'u', '\x7b'] ++ Nat.toDigits 16 c.toNat ++ ['\x7d']

def escapeChar (c : Char) : List Char :=
  match c with
  | '"' => ['\\', '"']
  | '\\' => ['\\', '\\']
  | '\n' => ['\\', 'n']
  | '\r' => ['\\', 'r']
  | '\t' => ['\\', 't']
  | '\x00' => ['\\', '0']
  | c => if isPlain c then [c] else codeEscape c

def quoted (text : String) : String :=
  String.ofList ('"' :: text.toList.flatMap escapeChar ++ ['"'])

end ReactiveLint.Text
