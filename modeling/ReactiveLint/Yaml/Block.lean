import ReactiveLint.Text.Lines
import ReactiveLint.Yaml.Flow

/-!
# Block style

Documents that are laid out by indentation.  The lines of a nested document are
indented deeper than the entry that holds it; only a list may stand right below its
key.
-/

namespace ReactiveLint.Yaml

/-- A line that is neither blank nor a comment. -/
structure Line where
  indent : Nat
  content : List Char
deriving DecidableEq, Repr, Inhabited

def Line.ofText (text : String) : Line :=
  let cs := text.toList
  let body := cs.dropWhile (· == ' ')
  ⟨cs.length - body.length, trimSpaces body⟩

def Line.isBlank (line : Line) : Bool :=
  line.content.isEmpty || line.content.head? == some '#'

def contentLines (text : String) : List Line :=
  ((Text.listing text).map Line.ofText).filter (!·.isBlank)

/-- What follows the dash of a list item. -/
def afterDash? : List Char → Option (List Char)
  | '-' :: cs => if startsBlank cs then some cs else none
  | _ => none

/-- Whether nothing but a comment is left of a line. -/
def isLineEnd (cs : List Char) : Bool :=
  match cs.dropWhile isSpace with
  | [] => true
  | c :: _ => c == '#'

/-- A plain key, and what follows its colon. -/
def splitPlainKey? : List Char → Option (List Char × List Char)
  | [] => none
  | c :: cs =>
      if c == ':' && startsBlank cs then some ([], cs)
      else if isSpace c && cs.head? == some '#' then none
      else (splitPlainKey? cs).map fun (key, rest) => (c :: key, rest)

/-- The key of a line that is an entry of a map, and what follows the colon. -/
def splitKey? (content : List Char) : Option (Yaml × List Char) :=
  match readQuoted? content with
  | some (key, rest) =>
      match rest.dropWhile isSpace with
      | ':' :: rest => if startsBlank rest then some (key, rest) else none
      | _ => none
  | none =>
      if startsPlain content then
        (splitPlainKey? content).map fun (key, rest) =>
          (scalar (String.ofList (trimSpaces key)) true, rest)
      else none

/-- The part of a line before a comment. -/
def beforeComment : List Char → List Char
  | [] => []
  | c :: cs => if isSpace c && cs.head? == some '#' then [] else c :: beforeComment cs

/-- A plain scalar that takes the rest of a line. -/
def readPlain? (cs : List Char) : Option Yaml :=
  if startsPlain cs && (splitPlainKey? cs).isNone then
    some (scalar (String.ofList (trimSpaces (beforeComment cs))) true)
  else none

/-- The lines that a reader of the joined text has left, when it stopped at the end
of a line. -/
def linesLeft? (tail : List Char) (lines : List Line) : Option (List Line) :=
  if isLineEnd (tail.takeWhile (· != '\n')) then
    some (lines.drop (lines.length - tail.count '\n'))
  else none

/-- A value that starts on a line; in flow style it may go on over the next ones. -/
def readInline? (content : List Char) (lines : List Line) : Option (Yaml × List Line) :=
  let text := content ++ lines.flatMap fun line => '\n' :: line.content
  if ['[', '\x7b', '"', '\''].contains (content.headD ' ') then do
    let (value, tail) ← readFlow? (text.length + 1) text
    return (value, ← linesLeft? tail lines)
  else (readPlain? content).map (·, lines)

mutual

/-- The document on the lines that are indented at least so far. -/
def readNode? : Nat → Nat → List Line → Option (Yaml × List Line)
  | 0, _, _ => none
  | fuel + 1, least, lines =>
      match lines with
      | [] => some (absent, [])
      | line :: rest =>
          if line.indent < least then some (absent, lines)
          else if (afterDash? line.content).isSome then do
            let (items, rest) ← readBlockItems? fuel line.indent lines
            return (list items, rest)
          else if (splitKey? line.content).isSome then do
            let (entries, rest) ← readBlockEntries? fuel line.indent lines
            return (map entries, rest)
          else readInline? line.content rest

/-- The items of a list at an indentation. -/
def readBlockItems? : Nat → Nat → List Line → Option (List Yaml × List Line)
  | 0, _, _ => none
  | fuel + 1, indent, lines =>
      match lines with
      | [] => some ([], [])
      | line :: rest =>
          match (if line.indent = indent then afterDash? line.content else none) with
          | none => some ([], lines)
          | some after => do
              let content := after.dropWhile isSpace
              let inner : Line := ⟨indent + 1 + (after.length - content.length), content⟩
              let nested := if isLineEnd after then rest else inner :: rest
              let (item, rest) ← readNode? fuel (indent + 1) nested
              let (items, rest) ← readBlockItems? fuel indent rest
              return (item :: items, rest)

/-- The entries of a map at an indentation. -/
def readBlockEntries? : Nat → Nat → List Line → Option (List (Yaml × Yaml) × List Line)
  | 0, _, _ => none
  | fuel + 1, indent, lines =>
      match lines with
      | [] => some ([], [])
      | line :: rest =>
          match (if line.indent = indent then splitKey? line.content else none) with
          | none => some ([], lines)
          | some (key, after) => do
              let (value, rest) ←
                if !isLineEnd after then readInline? (after.dropWhile isSpace) rest
                else if (rest.head?.map fun next =>
                    next.indent == indent && (afterDash? next.content).isSome).getD false then do
                  let (items, rest) ← readBlockItems? fuel indent rest
                  pure (list items, rest)
                else readNode? fuel (indent + 1) rest
              let (entries, rest) ← readBlockEntries? fuel indent rest
              return ((key, value) :: entries, rest)

end

/-- Reads one document, which a line of dashes may open. -/
def parse? (text : String) : Option Yaml :=
  let lines := contentLines text
  let isMark := fun (mark : String) (line : Line) => line.content == mark.toList
  let lines := if (lines.head?.map (isMark "---")).getD false then lines.drop 1 else lines
  match readNode? (text.length + lines.length + 2) 0 lines with
  | some (document, []) => some document
  | some (document, [line]) => if isMark "..." line then some document else none
  | _ => none

end ReactiveLint.Yaml
