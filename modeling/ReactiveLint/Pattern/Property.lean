import ReactiveLint.Pattern.CharSet

/-!
# Names of character properties

Properties may be named by their full names or by short ones.  Case, spaces,
hyphens and underscores in a name do not count, nor does a leading `is`.
-/

namespace ReactiveLint.CharClass

open Text (Category Script)

/-- A property name without what does not count. -/
def normalizeName (name : List Char) : String :=
  let kept := (name.filter fun c => c != ' ' && c != '_' && c != '-').map Char.toLower
  match kept with
  | 'i' :: 's' :: rest => if rest = ['c'] then String.ofList kept else String.ofList rest
  | _ => String.ofList kept

def categoryGroups : List (List String × List Category) :=
  let letters := [.uppercaseLetter, .lowercaseLetter, .titlecaseLetter]
  let marks := [.nonspacingMark, .spacingMark, .enclosingMark]
  [ (["lu", "uppercaseletter"], [.uppercaseLetter])
  , (["ll", "lowercaseletter"], [.lowercaseLetter])
  , (["lt", "titlecaseletter"], [.titlecaseLetter])
  , (["lc", "casedletter"], letters)
  , (["lm", "modifierletter"], [.modifierLetter])
  , (["lo", "otherletter"], [.otherLetter])
  , (["l", "letter"], letters ++ [.modifierLetter, .otherLetter])
  , (["mn", "nonspacingmark"], [.nonspacingMark])
  , (["mc", "spacingmark"], [.spacingMark])
  , (["me", "enclosingmark"], [.enclosingMark])
  , (["m", "mark", "combiningmark"], marks)
  , (["nd", "decimalnumber", "digit"], [.decimalNumber])
  , (["nl", "letternumber"], [.letterNumber])
  , (["no", "othernumber"], [.otherNumber])
  , (["n", "number"], [.decimalNumber, .letterNumber, .otherNumber])
  , (["pc", "connectorpunctuation"], [.connectorPunctuation])
  , (["pd", "dashpunctuation"], [.dashPunctuation])
  , (["ps", "openpunctuation"], [.openPunctuation])
  , (["pe", "closepunctuation"], [.closePunctuation])
  , (["pi", "initialpunctuation"], [.initialPunctuation])
  , (["pf", "finalpunctuation"], [.finalPunctuation])
  , (["po", "otherpunctuation"], [.otherPunctuation])
  , (["p", "punctuation", "punct"],
      [.connectorPunctuation, .dashPunctuation, .openPunctuation, .closePunctuation,
        .initialPunctuation, .finalPunctuation, .otherPunctuation])
  , (["sm", "mathsymbol"], [.mathSymbol])
  , (["sc", "currencysymbol"], [.currencySymbol])
  , (["sk", "modifiersymbol"], [.modifierSymbol])
  , (["so", "othersymbol"], [.otherSymbol])
  , (["s", "symbol"], [.mathSymbol, .currencySymbol, .modifierSymbol, .otherSymbol])
  , (["zs", "spaceseparator"], [.spaceSeparator])
  , (["zl", "lineseparator"], [.lineSeparator])
  , (["zp", "paragraphseparator"], [.paragraphSeparator])
  , (["z", "separator"], [.spaceSeparator, .lineSeparator, .paragraphSeparator])
  , (["cc", "control", "cntrl"], [.control])
  , (["cf", "format"], [.format])
  , (["cs", "surrogate"], [.surrogate])
  , (["co", "privateuse"], [.privateUse])
  , (["cn", "unassigned"], [.unassigned])
  , (["c", "other"], [.control, .format, .surrogate, .privateUse, .unassigned]) ]

def category? (name : String) : Option CharClass :=
  if name = "any" then some any
  else if name = "assigned" then some assigned
  else if name = "ascii" then some ascii
  else (categoryGroups.find? (·.1.contains name)).map fun group => categories group.2

def script? (name : String) : Option CharClass := (Script.ofName? name).map script

/-- Properties that hold or do not hold of a character. -/
def binary? (name : String) : Option CharClass :=
  if name = "alphabetic" ∨ name = "alpha" then some alphabetic
  else if name = "lowercase" ∨ name = "lower" then some lowercase
  else if name = "uppercase" ∨ name = "upper" then some uppercase
  else if name = "whitespace" ∨ name = "wspace" ∨ name = "space" then some blank
  else none

/-- The class of a lone name: a property, a category or a script. -/
def ofName? (name : List Char) : Option CharClass :=
  let name := normalizeName name
  (binary? name).or ((category? name).or (script? name))

/-- The class of a name with a value. -/
def ofNameValue? (name value : List Char) : Option CharClass :=
  let name := normalizeName name
  let value := normalizeName value
  if name = "gc" ∨ name = "generalcategory" then category? value
  else if name = "sc" ∨ name = "script" then script? value
  else none

/-- The bracketed names of ASCII classes. -/
def asciiRanges? (name : String) : Option (List (Char × Char)) :=
  [ ("alnum", [('0', '9'), ('A', 'Z'), ('a', 'z')])
  , ("alpha", [('A', 'Z'), ('a', 'z')])
  , ("ascii", [('\x00', '\x7f')])
  , ("blank", [('\t', '\t'), (' ', ' ')])
  , ("cntrl", [('\x00', '\x1f'), ('\x7f', '\x7f')])
  , ("digit", [('0', '9')])
  , ("graph", [('!', '~')])
  , ("lower", [('a', 'z')])
  , ("print", [(' ', '~')])
  , ("punct", [('!', '/'), (':', '@'), ('[', '\x60'), ('\x7b', '~')])
  , ("space", [('\t', '\r'), (' ', ' ')])
  , ("upper", [('A', 'Z')])
  , ("word", [('0', '9'), ('A', 'Z'), ('_', '_'), ('a', 'z')])
  , ("xdigit", [('0', '9'), ('A', 'F'), ('a', 'f')]) ].lookup name

end ReactiveLint.CharClass
