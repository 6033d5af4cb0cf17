import ReactiveLint.Pattern.Basic
import ReactiveLint.Pattern.Property
import ReactiveLint.Number.Decimal

/-!
# Reading patterns

The written form of patterns: literals, `.`, escapes, classes in brackets,
groups with flags, alternation, repetition and anchors.  There is no looking
around and no reference back to a group.  `Pattern.parse?` answers nothing for a
text that is no pattern.

Readers take the rest of the text and give back what they leave.
-/

namespace ReactiveLint.Pattern

structure Flags where
  ignoreCase : Bool := false
  multiLine : Bool := false
  dotAll : Bool := false
  crlf : Bool := false
  extended : Bool := false
  unicode : Bool := true
deriving DecidableEq, Repr

/-- What one element of a class or a sequence can be before its context is
known. -/
inductive Primitive
  | literal (c : Char)
  | set (members : CharSet)
  | dot
  | anchor (condition : Anchor)

abbrev Read (α : Type) := Option (α × List Char)

/-- Under the extended flag, blanks and comments do not count. -/
def skipLayout (flags : Flags) : Nat → List Char → List Char
  | 0, cs => cs
  | fuel + 1, cs =>
      if !flags.extended then cs
      else
        match cs with
        | '#' :: rest => skipLayout flags fuel ((rest.dropWhile (· != '\n')).drop 1)
        | c :: rest => if Text.isBlank c then skipLayout flags fuel rest else c :: rest
        | [] => []

def layout (flags : Flags) (cs : List Char) : List Char := skipLayout flags cs.length cs

def foldCase (flags : Flags) (set : CharSet) : CharSet :=
  if flags.ignoreCase then .anyCase set else set

/-- Complements may reach outside ASCII, so they need Unicode. -/
def negateSet? (flags : Flags) (negated : Bool) (set : CharSet) : Option CharSet :=
  if !negated then some set
  else if flags.unicode then some (.compl set)
  else none

def isHexDigit (c : Char) : Bool :=
  c.isDigit || ('a' ≤ c && c ≤ 'f') || ('A' ≤ c && c ≤ 'F')

def scalar? (code : Nat) : Option Char :=
  if h : code.isValidChar then some (Char.ofNatAux code h) else none

/-- Exactly `count` hexadecimal digits. -/
def readHexDigits? (flags : Flags) : Nat → List Char → List Char → Read Char
  | 0, digits, cs => (scalar? (Text.CodeRange.hexValue digits)).map (·, cs)
  | count + 1, digits, cs =>
      match (if digits.isEmpty then cs else layout flags cs) with
      | c :: cs => if isHexDigit c then readHexDigits? flags count (digits ++ [c]) cs else none
      | [] => none

/-- Hexadecimal digits up to a closing brace.  Every step takes a character, so the fuel is
the length of the text. -/
def readHexBraces? (flags : Flags) : Nat → List Char → List Char → Read Char
  | 0, _, _ => none
  | fuel + 1, digits, cs =>
      match layout flags cs with
      | [] => none
      | c :: cs =>
          if c = '\x7d' then
            if digits.isEmpty then none
            else (scalar? (Text.CodeRange.hexValue digits)).map (·, cs)
          else if isHexDigit c then readHexBraces? flags fuel (digits ++ [c]) cs
          else none

def readHex? (flags : Flags) (count : Nat) (cs : List Char) : Read Char :=
  match layout flags cs with
  | [] => none
  | c :: cs =>
      if c = '\x7b' then readHexBraces? flags cs.length [] cs
      else readHexDigits? flags count [] (c :: cs)

/-- The class of a property between braces, and whether it is meant to fail. -/
def propertyClass? (name : List Char) : Option (CharClass × Bool) :=
  let beforeMark := fun mark => name.takeWhile (· != mark)
  let afterMark := fun mark => (name.dropWhile (· != mark)).drop 1
  if name.contains '!' && (afterMark '!').head? == some '=' then
    (CharClass.ofNameValue? (beforeMark '!') ((afterMark '!').drop 1)).map (·, true)
  else if name.contains ':' then
    (CharClass.ofNameValue? (beforeMark ':') (afterMark ':')).map (·, false)
  else if name.contains '=' then
    (CharClass.ofNameValue? (beforeMark '=') (afterMark '=')).map (·, false)
  else (CharClass.ofName? name).map (·, false)

/-- The set of a property, or its complement. -/
def propertySet? (flags : Flags) (negated : Bool) (members : CharClass × Bool) :
    Option CharSet :=
  negateSet? flags (negated != members.2) (foldCase flags (.class members.1))

/-- A property after `\p` or `\P`. -/
def readProperty? (flags : Flags) (negated : Bool) (cs : List Char) : Read CharSet :=
  match layout flags cs with
  | [] => none
  | c :: cs =>
      if !flags.unicode || c == '\\' then none
      else if c = '\x7b' then
        match cs.dropWhile (· != '\x7d') with
        | [] => none
        | _ :: rest =>
            ((propertyClass? (cs.takeWhile (· != '\x7d'))).bind
              (propertySet? flags negated)).map (·, rest)
      else
        ((CharClass.ofName? [c]).bind (propertySet? flags negated ⟨·, false⟩)).map (·, cs)

/-- The digits, blanks or word characters, in ASCII alone without Unicode. -/
def shorthandSet? (flags : Flags) (c : Char) : Option CharSet :=
  let set :=
    if c.toLower = 'd' then
      if flags.unicode then .class .digit else .range '0' '9'
    else if c.toLower = 's' then
      if flags.unicode then .class .blank else .ofRanges [('\t', '\r'), (' ', ' ')]
    else if flags.unicode then .class .word
    else .ofRanges [('0', '9'), ('A', 'Z'), ('_', '_'), ('a', 'z')]
  negateSet? flags c.isUpper set

/-- Characters that an escape takes literally: all ASCII punctuation and
control characters, except the angle brackets. -/
def isEscapable (c : Char) : Bool :=
  decide (c.toNat < 128) && !c.isAlphanum && c != '<' && c != '>'

/-- A word boundary by its name in braces. -/
def boundary? (ascii : Bool) (name : List Char) : Option Anchor :=
  [ ("start", .wordStart ascii), ("end", .wordEnd ascii), ("start-half", .wordStartHalf ascii)
  , ("end-half", .wordEndHalf ascii) ].lookup (String.ofList name)

def isBoundaryChar (c : Char) : Bool := c.isAlpha || c == '-'

/-- The special word boundaries in braces after `\b`; other braces are left to
be read as a repetition. -/
def readBoundary? (ascii : Bool) : List Char → Read Anchor
  | [] => some (.wordBoundary ascii, [])
  | c :: cs =>
      if c = '\x7b' then
        if (cs.head?.map isBoundaryChar).getD true then
          match cs.dropWhile isBoundaryChar with
          | [] => none
          | c :: rest =>
              if c = '\x7d' then (boundary? ascii (cs.takeWhile isBoundaryChar)).map (·, rest)
              else none
        else some (.wordBoundary ascii, c :: cs)
      else some (.wordBoundary ascii, c :: cs)

/-- The characters with an escape of one letter. -/
def controlEscape? (c : Char) : Option Char :=
  [('a', '\x07'), ('f', '\x0c'), ('t', '\t'), ('n', '\n'), ('r', '\r'), ('v', '\x0b')].lookup c

/-- What follows a backslash. -/
def readEscape? (flags : Flags) : List Char → Read Primitive
  | [] => none
  | c :: cs =>
      let ascii := !flags.unicode
      if c = 'x' then (readHex? flags 2 cs).map fun (c, cs) => (.literal c, cs)
      else if c = 'u' then (readHex? flags 4 cs).map fun (c, cs) => (.literal c, cs)
      else if c = 'U' then (readHex? flags 8 cs).map fun (c, cs) => (.literal c, cs)
      else if c = 'p' ∨ c = 'P' then
        (readProperty? flags (c = 'P') cs).map fun (members, cs) => (.set members, cs)
      else if "dswDSW".toList.contains c then
        (shorthandSet? flags c).map fun members => (.set members, cs)
      else if c = 'A' then some (.anchor .textStart, cs)
      else if c = 'z' then some (.anchor .textEnd, cs)
      else if c = 'b' then
        (readBoundary? ascii cs).map fun (boundary, cs) => (.anchor boundary, cs)
      else if c = 'B' then some (.anchor (.notWordBoundary ascii), cs)
      else if c = '<' then some (.anchor (.wordStart ascii), cs)
      else if c = '>' then some (.anchor (.wordEnd ascii), cs)
      else if isEscapable c then some (.literal c, cs)
      else (controlEscape? c).map fun c => (.literal c, cs)

/-- A decimal count, with blanks around it allowed. -/
def readCount? (cs : List Char) : Read Nat :=
  let (digits, rest) := Number.spanDigits (Text.trimStart cs)
  if digits.isEmpty || Nat.pow 2 32 ≤ Number.digitsValue digits then none
  else some (Number.digitsValue digits, Text.trimStart rest)

/-- What stands between the comma and the closing brace of a counted repetition. -/
def readMost? (flags : Flags) (least : Nat) (cs : List Char) : Read (Option Nat) :=
  match layout flags cs with
  | [] => none
  | c :: cs =>
      if c = '\x7d' then some (none, cs)
      else
        (readCount? (c :: cs)).bind fun (most, cs) =>
          match cs with
          | [] => none
          | c :: cs => if c = '\x7d' ∧ least ≤ most then some (some most, cs) else none

/-- What stands behind the first count of a counted repetition. -/
def readBoundsRest? (flags : Flags) (least : Nat) : List Char → Read (Nat × Option Nat)
  | [] => none
  | c :: cs =>
      if c = '\x7d' then some ((least, some least), cs)
      else if c = ',' then
        (readMost? flags least cs).map fun (most, cs) => ((least, most), cs)
      else none

/-- The bounds of a counted repetition after its opening brace. -/
def readBounds? (flags : Flags) (cs : List Char) : Read (Nat × Option Nat) :=
  (readCount? (layout flags cs)).bind fun (least, cs) => readBoundsRest? flags least cs

/-- The letter of a flag and its setting. -/
def setFlag? (flags : Flags) (value : Bool) (c : Char) : Option Flags :=
  if c = 'i' then some { flags with ignoreCase := value }
  else if c = 'm' then some { flags with multiLine := value }
  else if c = 's' then some { flags with dotAll := value }
  else if c = 'R' then some { flags with crlf := value }
  else if c = 'x' then some { flags with extended := value }
  else if c = 'u' then some { flags with unicode := value }
  else if c = 'U' then some flags
  else none

/-- Flags up to the colon or parenthesis that ends them; none may be repeated,
and a sign must be followed by a flag. -/
def readFlags? (flags : Flags) (value : Bool) (seen : List Char) : List Char → Read Flags
  | [] => none
  | c :: cs =>
      if c = ':' ∨ c = ')' then
        if seen.head? = some '-' then none else some (flags, c :: cs)
      else if seen.contains c then none
      else if c = '-' then readFlags? flags false ('-' :: seen) cs
      else
        match setFlag? flags value c with
        | some flags => readFlags? flags value (c :: seen) cs
        | none => none

/-- What opens after a parenthesis: a group with its flags and name, or flags for
the rest of the group around. -/
inductive Opening
  | group (flags : Flags) (name : Option String)
  | setFlags (flags : Flags)

def isNameStart (c : Char) : Bool := c == '_' || Text.isAlphabetic c

def isNameRest (c : Char) : Bool :=
  c == '_' || c == '.' || c == '[' || c == ']' || Text.isAlphanumeric c

/-- The name of a group up to its closing angle bracket. -/
def readName? (cs : List Char) : Read String :=
  let name := cs.takeWhile (· != '>')
  match name, cs.dropWhile (· != '>') with
  | first :: rest, _ :: cs =>
      if isNameStart first && rest.all isNameRest then some (String.ofList name, cs) else none
  | _, _ => none

def readNamed? (flags : Flags) (cs : List Char) : Read Opening :=
  (readName? cs).map fun (name, cs) => (.group flags (some name), cs)

def readFlagged? (flags : Flags) (cs : List Char) : Read Opening :=
  (readFlags? flags true [] cs).bind fun (inner, rest) =>
    match rest with
    | [] => none
    | c :: rest =>
        if c = ':' then some (.group inner none, rest)
        else if cs.head? = some ')' then none
        else some (.setFlags inner, rest)

/-- What follows a question mark behind a parenthesis. -/
def readSpecial? (flags : Flags) : List Char → Read Opening
  | [] => none
  | c :: cs =>
      if c = '=' ∨ c = '!' then none
      else if c = '<' then
        if cs.head? = some '=' ∨ cs.head? = some '!' then none else readNamed? flags cs
      else if c = 'P' ∧ cs.head? = some '<' then readNamed? flags (cs.drop 1)
      else readFlagged? flags (c :: cs)

def readOpening? (flags : Flags) (cs : List Char) : Read Opening :=
  match layout flags cs with
  | [] => none
  | c :: cs => if c = '?' then readSpecial? flags cs else some (.group flags none, c :: cs)

/-- A bracketed ASCII class such as `[:alpha:]`, behind its opening bracket. -/
def readAsciiClass? : List Char → Read CharSet
  | [] => none
  | c :: cs =>
      let negated := cs.head? == some '^'
      let cs := if negated then cs.drop 1 else cs
      match cs.dropWhile (· != ':') with
      | _ :: bracket :: rest =>
          if c = ':' ∧ bracket = ']' then
            (CharClass.asciiRanges? (String.ofList (cs.takeWhile (· != ':')))).map fun ranges =>
              (if negated then .compl (.ofRanges ranges) else .ofRanges ranges, rest)
          else none
      | _ => none

/-- An element of a class before it is known to open a range. -/
def readClassPrimitive? (flags : Flags) : List Char → Read Primitive
  | [] => none
  | c :: cs => if c = '\\' then readEscape? flags cs else some (.literal c, cs)

def Primitive.classItem? : Primitive → Option CharSet
  | .literal c => some (.single c)
  | .set members => some members
  | .dot => none
  | .anchor _ => none

/-- The characters from one literal to another. -/
def Primitive.range? : Primitive → Primitive → Option CharSet
  | .literal first, .literal last => if first ≤ last then some (.range first last) else none
  | _, _ => none

/-- What follows a hyphen behind the first element of a range. -/
def readRangeEnd? (flags : Flags) (first : Primitive) (cs : List Char) : Read CharSet :=
  match layout flags cs with
  | [] => none
  | c :: next =>
      if c = ']' ∨ c = '-' then (first.classItem?).map (·, '-' :: cs)
      else
        (readClassPrimitive? flags (c :: next)).bind fun (last, cs) =>
          (Primitive.range? first last).map (·, cs)

/-- An element or a range of a class. -/
def readClassRange? (flags : Flags) (cs : List Char) : Read CharSet :=
  (readClassPrimitive? flags cs).bind fun (first, cs) =>
    match layout flags cs with
    | [] => none
    | c :: cs =>
        if c = '-' then readRangeEnd? flags first cs
        else (first.classItem?).map (·, c :: cs)

/-- An operator between the parts of a class. -/
inductive ClassOp
  | inter
  | diff
  | symmDiff

/-- An operator is a character written twice. -/
def ClassOp.ofDoubled? (c : Char) (next : Option Char) : Option ClassOp :=
  if next = some c then [('&', .inter), ('-', .diff), ('~', .symmDiff)].lookup c else none

def ClassOp.apply (flags : Flags) (left right : CharSet) : ClassOp → CharSet
  | inter => .inter (foldCase flags left) (foldCase flags right)
  | diff => .diff (foldCase flags left) (foldCase flags right)
  | symmDiff => .symmDiff (foldCase flags left) (foldCase flags right)

/-- The parts of a class read so far: a pending operation on the left, and the
union that is being collected. -/
structure ClassParts where
  pending : Option (CharSet × ClassOp) := none
  union : CharSet := .none

def ClassParts.add (parts : ClassParts) (set : CharSet) : ClassParts :=
  { parts with union := .union parts.union set }

def ClassParts.close (flags : Flags) (parts : ClassParts) : CharSet :=
  match parts.pending with
  | some (left, op) => op.apply flags left parts.union
  | none => parts.union

def ClassParts.operator (flags : Flags) (parts : ClassParts) (op : ClassOp) : ClassParts :=
  { pending := some (parts.close flags, op) }

/-- Whether a class is negated, and what follows. -/
def readNegation (flags : Flags) (cs : List Char) : Bool × List Char :=
  let cs := layout flags cs
  if cs.head? = some '^' then (true, layout flags (cs.drop 1)) else (false, cs)

/-- What follows the opening bracket of a class: a negation, hyphens, and a
closing bracket that stands for itself. -/
def readClassOpening (flags : Flags) (cs : List Char) : Bool × ClassParts × List Char :=
  let (negated, cs) := readNegation flags cs
  let rest := layout flags (cs.dropWhile (· == '-'))
  if cs.head? = some '-' then (negated, ({} : ClassParts).add (.single '-'), rest)
  else if rest.head? = some ']' then
    (negated, ({} : ClassParts).add (.single ']'), rest.drop 1)
  else (negated, {}, rest)

/-- The rest of a class up to its closing bracket.  Every step takes a
character, so the fuel is the length of the text. -/
def readClass? (flags : Flags) (negated : Bool) : Nat → ClassParts → List Char → Read CharSet
  | 0, _, _ => none
  | fuel + 1, parts, cs =>
      match layout flags cs with
      | [] => none
      | c :: cs =>
          if c = ']' then
            (negateSet? flags negated (foldCase flags (parts.close flags))).map (·, cs)
          else if c = '[' then
            match readAsciiClass? cs with
            | some (set, cs) => readClass? flags negated fuel (parts.add set) cs
            | none =>
                let (innerNegated, inner, cs) := readClassOpening flags cs
                (readClass? flags innerNegated fuel inner cs).bind fun (set, cs) =>
                  readClass? flags negated fuel (parts.add set) cs
          else
            match ClassOp.ofDoubled? c cs.head? with
            | some op => readClass? flags negated fuel (parts.operator flags op) (cs.drop 1)
            | none =>
                (readClassRange? flags (c :: cs)).bind fun (set, cs) =>
                  readClass? flags negated fuel (parts.add set) cs

/-- The pattern of a primitive outside classes. -/
def Primitive.toPattern? (flags : Flags) : Primitive → Option Pattern
  | .literal c => some (.one (foldCase flags (.single c)))
  | .set members => some (.one members)
  | .anchor condition => some (.anchor condition)
  | .dot =>
      if !flags.unicode then none
      else if flags.dotAll then some (.one (.class .any))
      else if flags.crlf then some (.one (.compl (.ofRanges [('\n', '\n'), ('\r', '\r')])))
      else some (.one (.compl (.single '\n')))

def startAnchor (flags : Flags) : Anchor :=
  if !flags.multiLine then .textStart
  else if flags.crlf then .terminatorStart
  else .lineStart

def endAnchor (flags : Flags) : Anchor :=
  if !flags.multiLine then .textEnd
  else if flags.crlf then .terminatorEnd
  else .lineEnd

/-- A single element outside classes. -/
def readPrimitive? (flags : Flags) : List Char → Read Primitive
  | [] => none
  | c :: cs =>
      if c = '\\' then readEscape? flags cs
      else if c = '.' then some (.dot, cs)
      else if c = '^' then some (.anchor (startAnchor flags), cs)
      else if c = '$' then some (.anchor (endAnchor flags), cs)
      else some (.literal c, cs)

/-- An element of a sequence.  Flags take a place but cannot be repeated. -/
inductive Element
  | pattern (pattern : Pattern)
  | flags

/-- Puts a pattern before what follows it. -/
def lead (first : Pattern) : Pattern → Pattern
  | .empty => first
  | rest => .seq first rest

/-- Puts the elements of a sequence, the last one first, before what follows them. -/
def sequenceBefore : Pattern → List Element → Pattern
  | rest, [] => rest
  | rest, .pattern pattern :: elements => sequenceBefore (lead pattern rest) elements
  | rest, .flags :: elements => sequenceBefore rest elements

/-- The elements of a sequence, the last one first. -/
def sequence (elements : List Element) : Pattern := sequenceBefore .empty elements

/-- The state of a group that is being read: its flags, the names of groups so
far, the alternatives before the current one, and the elements of that one, the
last first. -/
structure GroupState where
  flags : Flags
  names : List String
  before : List Pattern := []
  elements : List Element := []

def GroupState.push (state : GroupState) (pattern : Pattern) : GroupState :=
  { state with elements := .pattern pattern :: state.elements }

/-- Ends the current alternative. -/
def GroupState.divide (state : GroupState) : GroupState :=
  { state with before := state.before ++ [sequence state.elements], elements := [] }

def GroupState.close (state : GroupState) : Pattern :=
  match state.before with
  | [] => sequence state.elements
  | first :: others => .either (others.foldl .either first) (sequence state.elements)

/-- Sets flags for the rest of the group. -/
def GroupState.setFlags (state : GroupState) (flags : Flags) : GroupState :=
  { state with flags, elements := .flags :: state.elements }

/-- Takes a group that has been read as an element. -/
def GroupState.enclose (state inner : GroupState) : GroupState :=
  { state with names := inner.names }.push inner.close

/-- Puts the last element under a repetition; there must be one. -/
def GroupState.repeatLast? (state : GroupState) (bounds : Nat × Option Nat) :
    Option GroupState :=
  match state.elements with
  | .pattern pattern :: rest =>
      some { state with elements := .pattern (.repeated pattern bounds.1 bounds.2) :: rest }
  | _ => none

/-- The bounds of a repetition that is written as one character. -/
def bounds? (c : Char) : Option (Nat × Option Nat) :=
  [('?', 0, some 1), ('*', 0, none), ('+', 1, none)].lookup c

/-- A question mark after a repetition makes it lazy, which does not change what
is described. -/
def dropLazy : List Char → List Char
  | [] => []
  | c :: cs => if c = '?' then cs else c :: cs

/-- What is read at once in a group. -/
inductive Step
  | divide
  | setFlags (flags : Flags)
  | group (inner : GroupState)
  | pattern (pattern : Pattern)
  | repeated (bounds : Nat × Option Nat)

def GroupState.take? (state : GroupState) : Step → Option GroupState
  | .divide => some state.divide
  | .setFlags flags => some (state.setFlags flags)
  | .group inner => some (state.enclose inner)
  | .pattern pattern => some (state.push pattern)
  | .repeated bounds => state.repeatLast? bounds

/-- What stands behind an opening parenthesis.  The reader of a group takes it up to its
closing parenthesis. -/
def readParenthesis? (readInner? : GroupState → List Char → Read GroupState) (flags : Flags)
    (names : List String) (cs : List Char) : Read Step :=
  (readOpening? flags cs).bind fun (opening, cs) =>
    match opening with
    | .setFlags flags => some (.setFlags flags, cs)
    | .group flags name =>
        if (name.map names.contains).getD false then none
        else
          (readInner? { flags, names := name.toList ++ names } cs).map fun (inner, cs) =>
            (.group inner, cs)

/-- A class behind its opening bracket. -/
def readBracket? (flags : Flags) (fuel : Nat) (cs : List Char) : Read CharSet :=
  let (negated, parts, cs) := readClassOpening flags cs
  readClass? flags negated fuel parts cs

/-- A counted repetition behind its opening brace. -/
def readBrace? (flags : Flags) (cs : List Char) : Read (Nat × Option Nat) :=
  (readBounds? flags cs).map fun (bounds, cs) => (bounds, dropLazy (layout flags cs))

/-- One step from its first character. -/
def readStep? (readInner? : GroupState → List Char → Read GroupState) (fuel : Nat)
    (flags : Flags) (names : List String) (c : Char) (cs : List Char) : Read Step :=
  if c = '|' then some (.divide, cs)
  else if c = '(' then readParenthesis? readInner? flags names cs
  else if c = '[' then
    (readBracket? flags fuel cs).map fun (set, cs) => (.pattern (.one set), cs)
  else if c = '\x7b' then
    (readBrace? flags cs).map fun (bounds, cs) => (.repeated bounds, cs)
  else
    match bounds? c with
    | some bounds => some (.repeated bounds, dropLazy cs)
    | none =>
        (readPrimitive? flags (c :: cs)).bind fun (primitive, cs) =>
          (primitive.toPattern? flags).map (.pattern ·, cs)

/-- A group up to the parenthesis that closes it, or to the end of the text when
it is the whole pattern.  Every step takes a character, so the fuel is the
length of the text. -/
def readGroup? (nested : Bool) : Nat → GroupState → List Char → Read GroupState
  | 0, _, _ => none
  | fuel + 1, state, cs =>
      match layout state.flags cs with
      | [] => if nested then none else some (state, [])
      | c :: cs =>
          if c = ')' then if nested then some (state, cs) else none
          else
            (readStep? (readGroup? true fuel) fuel state.flags state.names c cs).bind
              fun (step, cs) =>
                (state.take? step).bind fun state => readGroup? nested fuel state cs

/-- Patterns that would grow beyond this many steps are refused. -/
def sizeLimit : Nat := 300000

/-- The state before the first character of a text. -/
def GroupState.start : GroupState where
  flags := {}
  names := []

/-- Reads a text as the whole of a pattern. -/
def readText? (text : String) : Option GroupState :=
  let cs := text.toList
  (readGroup? false (cs.length + 1) .start cs).map (·.1)

def parse? (text : String) : Option Pattern :=
  match readText? text with
  | some state => if state.close.size ≤ sizeLimit then some state.close else none
  | none => none

end ReactiveLint.Pattern
