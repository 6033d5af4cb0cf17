import ReactiveLint.Selector.Basic

/-!
# Written selectors

The text of a selector.  Quotes inside literals and slashes inside patterns are
escaped, and nothing else is.
-/

namespace ReactiveLint

def Comparison.symbol : Comparison → String
  | eq => "="
  | ne => "!="
  | lt => "<"
  | le => "<="
  | gt => ">"
  | ge => ">="

/-- Puts a backslash before each occurrence of a character. -/
def escapeChar (mark : Char) (text : String) : String :=
  String.ofList (text.toList.flatMap fun c => if c = mark then ['\\', c] else [c])

def TestValue.display : TestValue → String
  | literal text => "'" ++ escapeChar '\'' text ++ "'"
  | number value => value.toText
  | pattern source _ => "/" ++ escapeChar '/' source ++ "/"

def joinPath (path : List String) : String := ".".intercalate path

def AttributeTest.display (test : AttributeTest) : String :=
  let comparison := match test.test with
    | some (comparison, value) => comparison.symbol ++ value.display
    | none => ""
  "[" ++ joinPath test.path ++ comparison ++ "]"

def Combinator.symbol : Combinator → String
  | child => " > "
  | descendant => " "
  | sibling => " ~ "
  | adjacent => " + "

namespace Selector

mutual

def display : Selector → String
  | wildcard => "*"
  | scope => ":scope"
  | .kind wanted => wanted.name
  | field path => "." ++ joinPath path
  | attr test => test.display
  | compound parts => displayParts parts
  | not options => ":not(" ++ displayOptions options ++ ")"
  | any options => ":matches(" ++ displayOptions options ++ ")"
  | has options => ":has(" ++ displayOptions options ++ ")"
  | nthChild position => ":nth-child(" ++ toString position ++ ")"
  | nthLastChild position => ":nth-last-child(" ++ toString position ++ ")"
  | combine combinator left right => left.display ++ combinator.symbol ++ right.display

def displayParts : List Selector → String
  | [] => ""
  | part :: parts => part.display ++ displayParts parts

def displayOptions : List Selector → String
  | [] => ""
  | [option] => option.display
  | option :: options => option.display ++ ", " ++ displayOptions options

end

end Selector

end ReactiveLint
