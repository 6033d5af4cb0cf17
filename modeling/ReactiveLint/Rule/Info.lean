import ReactiveLint.Text.Case

/-!
# What a rule says about itself

The name of a rule, what it needs, what it may report and which options it takes.
-/

namespace ReactiveLint

/-- Groups of related rules. -/
inductive RuleCategory
  /-- Code that is wrong or useless. -/
  | correctness
  /-- Code that is likely to be wrong. -/
  | suspicious
  | style
  | perf
  /-- Strict rules that may blame good code. -/
  | pedantic
  /-- Bans of certain features. -/
  | restriction
  /-- Rules that are still being worked on. -/
  | nursery
deriving DecidableEq, Repr, Inhabited

namespace RuleCategory

def name : RuleCategory → String
  | correctness => "correctness"
  | suspicious => "suspicious"
  | style => "style"
  | perf => "perf"
  | pedantic => "pedantic"
  | restriction => "restriction"
  | nursery => "nursery"

/-- Reads the name of a category in any case of its letters. -/
def ofWord? (word : String) : Option RuleCategory :=
  match Text.Case.lower word with
  | "correctness" => some correctness
  | "suspicious" => some suspicious
  | "style" => some style
  | "perf" | "performance" => some perf
  | "pedantic" => some pedantic
  | "restriction" => some restriction
  | "nursery" | "experimental" => some nursery
  | _ => none

/-- What is said of a word that names no category. -/
def unknownMessage (word : String) : String := s!"Unknown category: {word}"

end RuleCategory

inductive RuleStability
  | stable
  | preview
  | deprecated
deriving DecidableEq, Repr, Inhabited

def RuleStability.name : RuleStability → String
  | stable => "stable"
  | preview => "preview"
  | deprecated => "deprecated"

/-- The form of the value of an option. -/
inductive OptionKind
  | boolean
  | string
  /-- A text that is read as a pattern. -/
  | regex
  | stringList
  /-- An object from patterns of names to Booleans or explanations. -/
  | patternMap
deriving DecidableEq, Repr, Inhabited

def OptionKind.name : OptionKind → String
  | boolean => "boolean"
  | string => "string"
  | regex => "regex"
  | stringList => "string-list"
  | patternMap => "pattern-map"

structure OptionSpec where
  name : String
  kind : OptionKind
  /-- The default value as JSON text. -/
  default : String
  description : String
deriving DecidableEq, Repr, Inhabited

structure RuleInfo where
  name : String
  description : String
  category : RuleCategory
  stability : RuleStability := .stable
  /-- Whether the rule can run only on files with types. -/
  needsTypes : Bool := false
  fixable : Bool := false
  hasSuggestions : Bool := false
  /-- Message templates by id. -/
  messages : List (String × String)
  options : List OptionSpec := []
  /-- The rule to use in the place of a deprecated one. -/
  replacedBy : Option String := none
deriving DecidableEq, Repr, Inhabited

namespace RuleInfo

/-- The template of a message id. -/
def message? (info : RuleInfo) (id : String) : Option String := info.messages.lookup id

def isDeprecated (info : RuleInfo) : Bool := info.stability == .deprecated

/-- What a user of a deprecated rule is told. -/
def deprecationWarning? (info : RuleInfo) : Option String :=
  if info.isDeprecated then
    let hint := match info.replacedBy with
      | some replacement => s!". Use '{replacement}' instead"
      | none => ""
    some (s!"Rule '{info.name}' is deprecated" ++ hint)
  else none

end RuleInfo

end ReactiveLint
