import ReactiveLint.Directive.Basic
import ReactiveLint.Text.Letter

/-!
# Finding disable comments

A directive stands at the start of a comment, after blanks.  Its text runs to the
end of the line or of the comment, and a `--` or else a colon separates the names
of rules from the reason.
-/

namespace ReactiveLint.Directive

/-- The rest of a text after a fixed opening. -/
def after? (opening : List Char) (cs : List Char) : Option (List Char) :=
  if opening.isPrefixOf cs then some (cs.drop opening.length) else none

/-- The keywords, the longer ones first. -/
def keywords : List (String × DirectiveScope) :=
  [("disable-next-line", .nextLine), ("disable-line", .line), ("disable", .file)]

/-- A keyword that is a whole word, with the rest of the text. -/
def readKeyword? (cs : List Char) : Option (DirectiveScope × List Char) :=
  keywords.findSome? fun (keyword, scope) =>
    match after? keyword.toList cs with
    | some rest =>
        if (rest.head?.map Text.isWordChar).getD false then none else some (scope, rest)
    | none => none

/-- The opening of a comment and the blanks after it. -/
def readOpening? : List Char → Option (List Char)
  | '/' :: '/' :: cs => some (cs.dropWhile fun c => c == ' ' || c == '\t')
  | '/' :: '*' :: cs => some (Text.trimStart cs)
  | _ => none

/-- The text of a directive and what follows the end of its line or comment. -/
def readBody : List Char → List Char × List Char
  | [] => ([], [])
  | '\n' :: cs => ([], cs)
  | '*' :: '/' :: cs => ([], cs)
  | c :: cs =>
      let (body, rest) := readBody cs
      (c :: body, rest)

/-- The scope and text of a directive that starts here, and the rest. -/
def readHere? (cs : List Char) : Option (DirectiveScope × List Char × List Char) := do
  let cs ← readOpening? cs
  let cs ← after? "rxlint-".toList cs
  let (scope, cs) ← readKeyword? cs
  return (scope, readBody cs)

/-- The part before a separator, and the part after it. -/
def splitAtFirst? (separator : List Char) : List Char → Option (List Char × List Char)
  | [] => if separator.isEmpty then some ([], []) else none
  | c :: cs =>
      match after? separator (c :: cs) with
      | some rest => some ([], rest)
      | none => (splitAtFirst? separator cs).map fun (before, rest) => (c :: before, rest)

/-- The pieces between commas. -/
def splitCommas : List Char → List (List Char)
  | [] => [[]]
  | c :: cs =>
      if c = ',' then [] :: splitCommas cs
      else
        match splitCommas cs with
        | piece :: rest => (c :: piece) :: rest
        | [] => [[c]]

/-- The names of rules and the reason in the text of a directive. -/
def splitReason (text : List Char) : List String × Option String :=
  let text := Text.trim text
  let (names, reason) :=
    match (splitAtFirst? ['-', '-'] text).or (splitAtFirst? [':'] text) with
    | some (names, reason) => (names, Text.trim reason)
    | none => (text, [])
  let rules := ((splitCommas names).map Text.trim).filter (!·.isEmpty)
  (rules.map String.ofList, if reason.isEmpty then none else some (String.ofList reason))

def newlines (cs : List Char) : Nat := cs.count '\n'

/-- The directives of a text whose first line has the given number.  Each step
passes at least one character, so the length of the text is enough fuel. -/
def readFrom : Nat → Nat → List Char → List Directive
  | 0, _, _ => []
  | _ + 1, _, [] => []
  | fuel + 1, line, c :: cs =>
      match readHere? (c :: cs) with
      | some (scope, body, rest) =>
          let (rules, reason) := splitReason body
          let passed := (c :: cs).take ((c :: cs).length - rest.length)
          ⟨scope, line, rules, reason⟩ :: readFrom fuel (line + newlines passed) rest
      | none => readFrom fuel (if c = '\n' then line + 1 else line) cs

end ReactiveLint.Directive

namespace ReactiveLint

/-- Scans a source text for directives. -/
def Directives.parse (source : String) : Directives :=
  let cs := source.toList
  .ofList (Directive.readFrom cs.length 1 cs)

end ReactiveLint
