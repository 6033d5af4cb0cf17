import ReactiveLint.Text.CodeRange
import ReactiveLint.Yaml.Basic

/-!
# Flow style

Documents in brackets and braces, and quoted scalars.  A reader gives back the rest
of the text.  Each step of a reader passes at least one character, so the length of
the text is enough fuel.
-/

namespace ReactiveLint.Yaml

def isSpace (c : Char) : Bool := c == ' ' || c == '\t'

def isBreakOrSpace (c : Char) : Bool := isSpace c || c == '\n'

/-- The characters that end a plain scalar inside brackets. -/
def isFlowMark (c : Char) : Bool := [',', '[', ']', '\x7b', '\x7d'].contains c

/-- Whether a text ends here or goes on with a blank. -/
def startsBlank (cs : List Char) : Bool := (cs.head?.map isBreakOrSpace).getD true

/-- Passes blanks, line breaks and comments. -/
def skipBlanks : Nat → List Char → List Char
  | 0, cs => cs
  | fuel + 1, cs =>
      match cs.dropWhile isBreakOrSpace with
      | '#' :: rest => skipBlanks fuel (rest.dropWhile (· != '\n'))
      | rest => rest

/-- Whether a plain scalar may start here. -/
def startsPlain : List Char → Bool
  | [] => false
  | c :: cs =>
      if ['-', '?', ':'].contains c then !startsBlank cs
      else !(isFlowMark c || "&*!|>%@#\x60\"'".toList.contains c)

/-- Reads the characters of a plain scalar inside brackets. -/
def spanPlain : List Char → List Char × List Char
  | [] => ([], [])
  | c :: cs =>
      let stops := isFlowMark c || c == '\n' ||
        (c == ':' && (startsBlank cs || (cs.head?.map isFlowMark).getD false)) ||
        (isSpace c && cs.head? == some '#')
      if stops then ([], c :: cs)
      else
        let (plain, rest) := spanPlain cs
        (c :: plain, rest)

def trimSpaces (cs : List Char) : List Char :=
  ((cs.dropWhile isSpace).reverse.dropWhile isSpace).reverse

/-- The character of a short escape. -/
def escaped? : Char → Option Char
  | '0' => some '\x00'
  | 'a' => some '\x07'
  | 'b' => some '\x08'
  | 't' => some '\t'
  | '\t' => some '\t'
  | 'n' => some '\n'
  | 'v' => some '\x0b'
  | 'f' => some '\x0c'
  | 'r' => some '\r'
  | 'e' => some '\x1b'
  | ' ' => some ' '
  | '"' => some '"'
  | '/' => some '/'
  | '\\' => some '\\'
  | 'N' => some '\u0085'
  | '_' => some '\u00a0'
  | 'L' => some '\u2028'
  | 'P' => some '\u2029'
  | _ => none

/-- The number of hexadecimal digits of a long escape. -/
def escapeWidth? : Char → Option Nat
  | 'x' => some 2
  | 'u' => some 4
  | 'U' => some 8
  | _ => none

def charOfHex? (digits : List Char) : Option Char :=
  let code := Text.CodeRange.hexValue digits
  if digits.all isHexDigit then
    if h : code.isValidChar then some (Char.ofNatAux code h) else none
  else none

/-- An escape after its backslash. -/
def readEscape? : List Char → Option (Char × List Char)
  | [] => none
  | c :: cs =>
      match escapeWidth? c with
      | some width =>
          if cs.length < width then none
          else (charOfHex? (cs.take width)).map (·, cs.drop width)
      | none => (escaped? c).map (·, cs)

/-- The rest of a scalar in double quotes; a line break counts as a blank. -/
def readDouble? : Nat → List Char → Option (List Char × List Char)
  | 0, _ => none
  | fuel + 1, cs =>
      match cs with
      | [] => none
      | '"' :: rest => some ([], rest)
      | '\\' :: rest => do
          let (c, rest) ← readEscape? rest
          let (text, rest) ← readDouble? fuel rest
          return (c :: text, rest)
      | c :: rest => do
          let (text, rest) ← readDouble? fuel rest
          return ((if c = '\n' then ' ' else c) :: text, rest)

/-- The rest of a scalar in single quotes, where a quote is written twice. -/
def readSingle? : List Char → Option (List Char × List Char)
  | [] => none
  | '\'' :: '\'' :: rest => do
      let (text, rest) ← readSingle? rest
      return ('\'' :: text, rest)
  | '\'' :: rest => some ([], rest)
  | c :: rest => do
      let (text, rest) ← readSingle? rest
      return ((if c = '\n' then ' ' else c) :: text, rest)

/-- A quoted scalar at the start of a text. -/
def readQuoted? : List Char → Option (Yaml × List Char)
  | '"' :: cs => do
      let (text, rest) ← readDouble? (cs.length + 1) cs
      return (scalar (String.ofList text) false, rest)
  | '\'' :: cs => do
      let (text, rest) ← readSingle? cs
      return (scalar (String.ofList text) false, rest)
  | _ => none

mutual

/-- A document in flow style at the start of a text. -/
def readFlow? : Nat → List Char → Option (Yaml × List Char)
  | 0, _ => none
  | fuel + 1, cs =>
      match cs with
      | '[' :: rest => do
          let (items, rest) ← readItems? fuel rest
          return (list items, rest)
      | '\x7b' :: rest => do
          let (entries, rest) ← readEntries? fuel rest
          return (map entries, rest)
      | '"' :: _ => readQuoted? cs
      | '\'' :: _ => readQuoted? cs
      | cs =>
          if startsPlain cs then
            let (plain, rest) := spanPlain cs
            some (scalar (String.ofList (trimSpaces plain)) true, rest)
          else none

/-- A value after a key, nothing when the entry has none. -/
def readEntryValue? : Nat → List Char → Option (Yaml × List Char)
  | 0, _ => none
  | fuel + 1, cs =>
      match skipBlanks cs.length cs with
      | ':' :: rest =>
          match skipBlanks rest.length rest with
          | ',' :: after => some (absent, ',' :: after)
          | '\x7d' :: after => some (absent, '\x7d' :: after)
          | ']' :: after => some (absent, ']' :: after)
          | rest => readFlow? fuel rest
      | rest => some (absent, rest)

/-- The items of a list after its bracket.  A pair stands for a map of one entry. -/
def readItems? : Nat → List Char → Option (List Yaml × List Char)
  | 0, _ => none
  | fuel + 1, cs =>
      match skipBlanks cs.length cs with
      | ']' :: rest => some ([], rest)
      | cs => do
          let (item, rest) ← readFlow? fuel cs
          let rest := skipBlanks rest.length rest
          let (item, rest) ←
            if rest.head? = some ':' then do
              let (value, rest) ← readEntryValue? fuel rest
              pure (map [(item, value)], rest)
            else pure (item, rest)
          match skipBlanks rest.length rest with
          | ',' :: rest => do
              let (items, rest) ← readItems? fuel rest
              return (item :: items, rest)
          | ']' :: rest => return ([item], rest)
          | _ => none

/-- The entries of a map after its brace. -/
def readEntries? : Nat → List Char → Option (List (Yaml × Yaml) × List Char)
  | 0, _ => none
  | fuel + 1, cs =>
      match skipBlanks cs.length cs with
      | '\x7d' :: rest => some ([], rest)
      | cs => do
          let (key, rest) ← readFlow? fuel cs
          let (value, rest) ← readEntryValue? fuel rest
          match skipBlanks rest.length rest with
          | ',' :: rest => do
              let (entries, rest) ← readEntries? fuel rest
              return ((key, value) :: entries, rest)
          | '\x7d' :: rest => return ([(key, value)], rest)
          | _ => none

end

end ReactiveLint.Yaml
