import ReactiveLint.Pattern.Parser
import ReactiveLint.Selector.Basic
import ReactiveLint.Text.Blank

/-!
# Reading selectors

A selector list is made of complex selectors between commas, a complex selector
of compounds between combinators, and a compound of simple selectors without
space between them.  Inside a pseudo-class a complex selector may open with a
combinator, which then relates to the scope.

Readers take the rest of the text.  A reader that stops says where by the rest it
could not read, from which the offset of the error follows.
-/

namespace ReactiveLint

inductive SelectorError
  | empty
  | unexpectedEnd (selector : String)
  | unexpected (selector : String) (found : Char) (offset : Nat)
  | unknownKind (name : String)
  | unknownPseudo (name : String)
  | unsupportedFlag (pattern : String) (flag : Char)
  | invalidPattern (pattern : String)
deriving DecidableEq, Repr

def SelectorError.message : SelectorError → String
  | empty => "Empty selector"
  | unexpectedEnd selector => s!"Unexpected end of selector '{selector}'"
  | unexpected selector found offset =>
      s!"Unexpected '{found}' at offset {offset} in selector '{selector}'"
  | unknownKind name => s!"Unknown node kind '{name}'"
  | unknownPseudo name => s!"Unknown pseudo-class ':{name}'"
  | unsupportedFlag pattern flag =>
      s!"Invalid regex /{pattern}/: unsupported flag '{flag}'"
  | invalidPattern pattern => s!"Invalid regex /{pattern}/"

namespace Selector

/-- Why reading stopped. -/
inductive Stop
  /-- What comes first in the rest does not belong here. -/
  | at (rest : List Char)
  /-- The text ended after its last character, which is blamed. -/
  | afterLast
  | unknownKind (name : String)
  | unknownPseudo (name : String)
  | unsupportedFlag (pattern : String) (flag : Char)
  | invalidPattern (pattern : String)
deriving DecidableEq, Repr

/-- The error that a stop in a text amounts to. -/
def Stop.toError (selector : String) : Stop → SelectorError
  | .at [] => .unexpectedEnd selector
  | .at (found :: rest) => .unexpected selector found (selector.length - (rest.length + 1))
  | afterLast =>
      match selector.toList.getLast? with
      | some found => .unexpected selector found (selector.length - 1)
      | none => .unexpectedEnd selector
  | unknownKind name => .unknownKind name
  | unknownPseudo name => .unknownPseudo name
  | unsupportedFlag pattern flag => .unsupportedFlag pattern flag
  | invalidPattern pattern => .invalidPattern pattern

/-- A value and the rest of the text. -/
abbrev Reading (α : Type) := Except Stop (α × List Char)

/-- Parts of a path between dots; empty parts count. -/
def splitPath : List Char → List String
  | [] => [""]
  | c :: cs =>
      if c = '.' then "" :: splitPath cs
      else
        match splitPath cs with
        | part :: parts => (c.toString ++ part) :: parts
        | [] => [c.toString]

def isKindStart (c : Char) : Bool := Text.isAlphabetic c || c == '_'

def isKindChar (c : Char) : Bool := Text.isAlphanumeric c || c == '_'

def isFieldChar (c : Char) : Bool := Text.isAlphanumeric c || c == '_' || c == '$' || c == '.'

def isPseudoChar (c : Char) : Bool := c.isAlphanum || c == '-'

def isAttributeChar (c : Char) : Bool := !Text.isBlank c && !"=!<>]".toList.contains c

def isWordChar (c : Char) : Bool := !Text.isBlank c && c != ']'

/-- The comparison sign of an attribute test. -/
def readComparison : List Char → Reading Comparison
  | '!' :: '=' :: cs => .ok (.ne, cs)
  | '<' :: '=' :: cs => .ok (.le, cs)
  | '>' :: '=' :: cs => .ok (.ge, cs)
  | '=' :: cs => .ok (.eq, cs)
  | '<' :: cs => .ok (.lt, cs)
  | '>' :: cs => .ok (.gt, cs)
  | [] => .error .afterLast
  | c :: cs => .error (.at (c :: cs))

/-- The rest of a quoted literal; a backslash takes any character literally. -/
def readQuoted (quote : Char) (read : List Char) : List Char → Reading String
  | [] => .error (.at [])
  | '\\' :: c :: cs => readQuoted quote (c :: read) cs
  | '\\' :: [] => .error (.at [])
  | c :: cs =>
      if c = quote then .ok (String.ofList read.reverse, cs)
      else readQuoted quote (c :: read) cs

/-- The body of a pattern up to its closing slash; only a slash loses its
backslash. -/
def readPatternBody (read : List Char) : List Char → Reading String
  | [] => .error (.at [])
  | '\\' :: '/' :: cs => readPatternBody ('/' :: read) cs
  | '\\' :: c :: cs => readPatternBody (c :: '\\' :: read) cs
  | '\\' :: [] => .error (.at [])
  | c :: cs =>
      if c = '/' then .ok (String.ofList read.reverse, cs)
      else readPatternBody (c :: read) cs

/-- The flags that change a pattern; those about repeated or Unicode matching
have no effect on a test. -/
def inlineFlags (pattern : String) : List Char → Except Stop (List Char)
  | [] => .ok []
  | flag :: flags =>
      if "ims".toList.contains flag then
        match inlineFlags pattern flags with
        | .ok kept => .ok (flag :: kept)
        | .error stop => .error stop
      else if "ugy".toList.contains flag then inlineFlags pattern flags
      else .error (.unsupportedFlag pattern flag)

/-- A pattern after its opening slash, with its flags in front of it. -/
def readPattern (cs : List Char) : Reading TestValue :=
  match readPatternBody [] cs with
  | .error stop => .error stop
  | .ok (body, cs) =>
      match inlineFlags body (cs.takeWhile Char.isAlpha) with
      | .error stop => .error stop
      | .ok flags =>
          let source :=
            if flags.isEmpty then body else "(?" ++ String.ofList flags ++ ")" ++ body
          match Pattern.parse? source with
          | some pattern => .ok (.pattern source pattern, cs.dropWhile Char.isAlpha)
          | none => .error (.invalidPattern body)

/-- The value of an attribute test.  Patterns are only compared for equality, and
a bare word is a number when it reads as one. -/
def readTestValue (comparison : Comparison) : List Char → Reading TestValue
  | [] => .error (.at [])
  | '\'' :: cs => (readQuoted '\'' [] cs).map fun (text, cs) => (.literal text, cs)
  | '"' :: cs => (readQuoted '"' [] cs).map fun (text, cs) => (.literal text, cs)
  | '/' :: cs =>
      if comparison = .eq ∨ comparison = .ne then readPattern cs else .error (.at cs)
  | cs =>
      let word := String.ofList (cs.takeWhile isWordChar)
      if word.isEmpty then .error (.at cs)
      else
        let value := match Number.ofText? word with
          | some x => TestValue.number x
          | none => TestValue.literal word
        .ok (value, cs.dropWhile isWordChar)

/-- A character that must come next. -/
def expect (expected : Char) : List Char → Except Stop (List Char)
  | [] => .error (.at [])
  | c :: cs => if c = expected then .ok cs else .error (.at (c :: cs))

/-- An attribute test after its opening bracket. -/
def readAttribute (cs : List Char) : Reading AttributeTest :=
  let cs := Text.trimStart cs
  let name := cs.takeWhile isAttributeChar
  let rest := Text.trimStart (cs.dropWhile isAttributeChar)
  if name.isEmpty then .error (.at cs)
  else
    match rest with
    | ']' :: rest => .ok (⟨splitPath name, none⟩, rest)
    | rest =>
        match readComparison rest with
        | .error stop => .error stop
        | .ok (comparison, cs) =>
            match readTestValue comparison (Text.trimStart cs) with
            | .error stop => .error stop
            | .ok (value, cs) =>
                (expect ']' (Text.trimStart cs)).map fun cs =>
                  (⟨splitPath name, some (comparison, value)⟩, cs)

/-- A 64-bit position in parentheses. -/
def readPosition (cs : List Char) : Reading Nat :=
  match expect '(' cs with
  | .error stop => .error stop
  | .ok cs =>
      let (digits, rest) := Number.spanDigits (Text.trimStart cs)
      if digits.isEmpty || Nat.pow 2 64 ≤ Number.digitsValue digits then .error (.at rest)
      else
        (expect ')' (Text.trimStart rest)).map fun cs => (Number.digitsValue digits, cs)

/-- The combinator that a sign stands for. -/
def combinatorSign? (c : Char) : Option Combinator :=
  if c = '>' then some .child
  else if c = '~' then some .sibling
  else if c = '+' then some .adjacent
  else none

/-- The selector of the simple selectors of one node. -/
def ofParts : List Selector → Option Selector
  | [] => none
  | [part] => some part
  | parts => some (compound parts)

mutual

/-- The rest of a compound, with the parts read so far in reverse.  Each reader
spends a unit of fuel; no character costs more than a fixed number of them. -/
def readCompound : Nat → List Selector → List Char → Reading Selector
  | 0, _, cs => .error (.at cs)
  | fuel + 1, parts, cs =>
      let stop : Reading Selector :=
        match ofParts parts.reverse with
        | some selector => .ok (selector, cs)
        | none => .error (.at cs)
      match cs with
      | [] => stop
      | '*' :: cs => readCompound fuel (wildcard :: parts) cs
      | '[' :: cs =>
          match readAttribute cs with
          | .ok (test, cs) => readCompound fuel (attr test :: parts) cs
          | .error stop => .error stop
      | '.' :: cs =>
          let path := cs.takeWhile isFieldChar
          if path.isEmpty then .error (.at cs)
          else
            readCompound fuel (field (splitPath path) :: parts) (cs.dropWhile isFieldChar)
      | ':' :: cs =>
          match readPseudo fuel cs with
          | .ok (part, cs) => readCompound fuel (part :: parts) cs
          | .error stop => .error stop
      | c :: cs =>
          if c = '!' ∧ parts.isEmpty then readCompound fuel parts cs
          else if isKindStart c then
            let name := String.ofList ((c :: cs).takeWhile isKindChar)
            match Kind.ofName? name with
            | some found =>
                readCompound fuel (kind found :: parts) ((c :: cs).dropWhile isKindChar)
            | none => .error (.unknownKind name)
          else stop

/-- A pseudo-class after its colon. -/
def readPseudo : Nat → List Char → Reading Selector
  | 0, cs => .error (.at cs)
  | fuel + 1, cs =>
      let name := String.ofList (cs.takeWhile isPseudoChar)
      let rest := cs.dropWhile isPseudoChar
      match name with
      | "not" => (readOptions fuel rest).map fun (options, cs) => (not options, cs)
      | "matches" => (readOptions fuel rest).map fun (options, cs) => (any options, cs)
      | "is" => (readOptions fuel rest).map fun (options, cs) => (any options, cs)
      | "has" => (readOptions fuel rest).map fun (options, cs) => (has options, cs)
      | "scope" => .ok (scope, rest)
      | "first-child" => .ok (nthChild 1, rest)
      | "last-child" => .ok (nthLastChild 1, rest)
      | "nth-child" =>
          (readPosition rest).map fun (position, cs) => (nthChild position, cs)
      | "nth-last-child" =>
          (readPosition rest).map fun (position, cs) => (nthLastChild position, cs)
      | _ => .error (.unknownPseudo name)

/-- A selector list in parentheses. -/
def readOptions : Nat → List Char → Reading (List Selector)
  | 0, cs => .error (.at cs)
  | fuel + 1, cs =>
      match expect '(' cs with
      | .error stop => .error stop
      | .ok cs =>
          match readList fuel true [] cs with
          | .error stop => .error stop
          | .ok (options, cs) => (expect ')' cs).map fun cs => (options, cs)

/-- A complex selector.  When it is nested it may open with a combinator. -/
def readComplex : Nat → Bool → List Char → Reading Selector
  | 0, _, cs => .error (.at cs)
  | fuel + 1, nested, cs =>
      let leading := match cs with
        | c :: rest =>
            if nested then (combinatorSign? c).map (·, Text.trimStart rest) else none
        | [] => none
      match leading with
      | some (combinator, rest) =>
          match readCompound fuel [] rest with
          | .ok (right, cs) => readSteps fuel (combine combinator scope right) cs
          | .error stop => .error stop
      | none =>
          match readCompound fuel [] cs with
          | .ok (left, cs) => readSteps fuel left cs
          | .error stop => .error stop

/-- The combinators and compounds after a selector. -/
def readSteps : Nat → Selector → List Char → Reading Selector
  | 0, _, cs => .error (.at cs)
  | fuel + 1, left, cs =>
      let rest := Text.trimStart cs
      let step := fun (combinator : Combinator) (cs : List Char) =>
        match readCompound fuel [] cs with
        | .ok (right, cs) => readSteps fuel (combine combinator left right) cs
        | .error stop => .error stop
      match rest with
      | [] => .ok (left, [])
      | c :: after =>
          match combinatorSign? c with
          | some combinator => step combinator (Text.trimStart after)
          | none =>
              if c = ',' ∨ c = ')' then .ok (left, rest)
              else if rest.length < cs.length then step .descendant rest
              else .error (.at rest)

/-- Selectors between commas, up to the end or, when nested, to a closing
parenthesis, which is left. -/
def readList : Nat → Bool → List Selector → List Char → Reading (List Selector)
  | 0, _, _, cs => .error (.at cs)
  | fuel + 1, nested, read, cs =>
      match readComplex fuel nested (Text.trimStart cs) with
      | .error stop => .error stop
      | .ok (selector, cs) =>
          match Text.trimStart cs with
          | ',' :: cs => readList fuel nested (selector :: read) cs
          | [] => if nested then .error (.at []) else .ok ((selector :: read).reverse, [])
          | c :: cs =>
              if nested ∧ c = ')' then .ok ((selector :: read).reverse, c :: cs)
              else .error (.at (c :: cs))

end

/-- The units of fuel that a text can need. -/
def fuelFor (cs : List Char) : Nat := 8 * cs.length + 8

/-- Reads a selector list; one selector alone is itself. -/
def parse (text : String) : Except SelectorError Selector :=
  let cs := text.toList
  if (Text.trim cs).isEmpty then .error .empty
  else
    match readList (fuelFor cs) false [] cs with
    | .ok ([selector], _) => .ok selector
    | .ok (selectors, _) => .ok (any selectors)
    | .error stop => .error (stop.toError text)

end Selector

/-- A selector as a rule listens for it: with the phase of the walk, entering or
leaving a node, and the kinds of nodes that it can match. -/
structure Trigger where
  source : String
  selector : Selector
  onExit : Bool
  kinds : Option (List Kind)
  kinds_eq : kinds = selector.subjectKinds?

namespace Trigger

instance : Inhabited Trigger := ⟨⟨"*", .wildcard, false, none, rfl⟩⟩

def exitMark : List Char := ":exit".toList

/-- The body of a text that ends with the exit mark. -/
def dropExitMark? (cs : List Char) : Option (List Char) :=
  if exitMark.isSuffixOf cs then some (cs.take (cs.length - exitMark.length)) else none

/-- Reads a selector with an optional `:exit` at its end. -/
def parse (source : String) : Except SelectorError Trigger := do
  let trimmed := Text.trim source.toList
  let (body, onExit) := match dropExitMark? trimmed with
    | some body => (Text.trimEnd body, true)
    | none => (trimmed, false)
  let selector ← Selector.parse (String.ofList body)
  return { source, selector, onExit, kinds := selector.subjectKinds?, kinds_eq := rfl }

end Trigger

end ReactiveLint
