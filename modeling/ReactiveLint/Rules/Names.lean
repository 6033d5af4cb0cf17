import ReactiveLint.Pattern.Literal
import ReactiveLint.Rules.NameSite
import ReactiveLint.Rules.Options

/-!
# Rules about names

How observables and subjects are to be named, or not to be named.
-/

namespace ReactiveLint.Rules

open Template (hole)

/-- Whether a type is an observable or a function that returns one. -/
def isObservableLike (type : Ty) : Bool :=
  type.couldBe (.exactly "Observable") none || type.couldReturn (.exactly "Observable")

/-- Whether one of the entries exempts what a test holds for. -/
def isExempt (entries : List (Pattern × Bool)) (test : Pattern → Bool) : Bool :=
  entries.any fun (pattern, validate) => !validate && test pattern

/-- The sites that settings ask for. -/
def enabledSites (sites : List (Bool × NameSite)) : List NameSite :=
  (sites.filter (·.1)).map (·.2)

def endsWithDollar (name : String) : Bool := name.toList.getLast? == some '$'

def booleanOption (name description : String) (value : Bool) : OptionSpec :=
  ⟨name, .boolean, if value then "true" else "false", description⟩

def typesOption : OptionSpec :=
  ⟨"types", .patternMap, "\x7b\"^EventEmitter$\":false\x7d",
    "Type name patterns mapped to false are exempt"⟩

/-! ## Names that end with a dollar sign -/

def finnishInfo : RuleInfo where
  name := "finnish"
  description := "Enforces the use of Finnish notation."
  category := .style
  needsTypes := true
  messages :=
    [ ("shouldBeFinnish", "Finnish notation should be used here.")
    , ("shouldNotBeFinnish", "Finnish notation should not be used here.") ]
  options :=
    [ booleanOption "functions" "Check function names" true
    , booleanOption "methods" "Check method names" true
    , ⟨"names", .patternMap, "\x7b\x7d", "Name patterns mapped to false are exempt"⟩
    , booleanOption "parameters" "Check parameter names" true
    , booleanOption "properties" "Check property and accessor names" true
    , booleanOption "strict" "Also report suffixed names that are not observables" false
    , typesOption
    , booleanOption "variables" "Check variable names" true ]

structure FinnishSettings where
  sites : List NameSite
  strict : Bool
  names : List (Pattern × Bool)
  types : List (Pattern × Bool)

/-- The options as they are written. -/
structure FinnishOptions where
  functions : Bool := true
  methods : Bool := true
  names : List (String × Bool) := []
  parameters : Bool := true
  properties : Bool := true
  strict : Bool := false
  types : List (String × Bool) := Options.exemptTypes
  variableNames : Bool := true

def FinnishOptions.ofJson? (json : Json) : Option FinnishOptions := do
  let fields := ["functions", "methods", "names", "parameters", "properties", "strict",
    "types", "variables"]
  match ← Json.recordFields? fields true json with
  | [functions, methods, names, parameters, properties, strict, types, variableNames] =>
      let flags := Json.mapOf? Json.asBool?
      return {
        functions := ← Json.fieldOr? Json.asBool? true functions
        methods := ← Json.fieldOr? Json.asBool? true methods
        names := ← Json.fieldOr? flags [] names
        parameters := ← Json.fieldOr? Json.asBool? true parameters
        properties := ← Json.fieldOr? Json.asBool? true properties
        strict := ← Json.fieldOr? Json.asBool? false strict
        types := ← Json.fieldOr? flags Options.exemptTypes types
        variableNames := ← Json.fieldOr? Json.asBool? true variableNames }
  | _ => none

def FinnishSettings.read (options : Json) : Except ConfigError FinnishSettings := do
  let rule := finnishInfo.name
  let options ← Options.read rule FinnishOptions.ofJson? {} options
  let names ← Options.compileMap rule options.names
  let types ← Options.compileMap rule options.types
  let sites := enabledSites
    [ (options.functions, .functionName), (options.methods, .methodName)
    , (options.parameters, .parameterName), (options.properties, .propertyName)
    , (options.variableNames, .variableName) ]
  return { sites, strict := options.strict, names, types }

/-- What is wrong with a declared name of a type.  An observable must have the
suffix unless it is exempt; in strict mode nothing else may have it. -/
def finnishFault? (settings : FinnishSettings) (name : String) (type : Option Ty) :
    Option String :=
  let suffixed := endsWithDollar name
  let shouldNot := if suffixed then some "shouldNotBeFinnish" else none
  if suffixed && !settings.strict then none
  else if isExempt settings.names (·.isMatch name) then shouldNot
  else
    match type with
    | none => none
    | some type =>
        if isObservableLike type then
          if isExempt settings.types fun p => type.couldBe (.like p) none then shouldNot
          else if suffixed then none
          else some "shouldBeFinnish"
        else shouldNot

def checkFinnish (settings : FinnishSettings) : Check := fun file identifier =>
  Option.toList do
    let site ← NameSite.ofIdentifier? file.tree identifier
    let name ← file.tree.name? identifier
    if settings.sites.contains site then
      let type := file.types.declaredType? file.tree identifier
      let fault ← finnishFault? settings name type
      return file.tree.report fault identifier
    else none

def finnish : BuiltInRule :=
  .ofSettings finnishInfo FinnishSettings.read fun settings =>
    [(NameSite.selector, checkFinnish settings)]

def noFinnishInfo : RuleInfo where
  name := "no-finnish"
  description := "Forbids the use of Finnish notation."
  category := .style
  needsTypes := true
  messages := [("forbidden", "Finnish notation is forbidden.")]

def checkNoFinnish : Check := fun file identifier =>
  let tree := file.tree
  if (tree.name? identifier).any endsWithDollar &&
      (NameSite.ofIdentifier? tree identifier).isSome &&
      (file.types.declaredType? tree identifier).any isObservableLike then
    [tree.report "forbidden" identifier]
  else []

def noFinnish : BuiltInRule := .ofChecks noFinnishInfo [(NameSite.selector, checkNoFinnish)]

/-! ## Names of subjects -/

def suffixSubjectsInfo : RuleInfo where
  name := "suffix-subjects"
  description := "Enforces the use of a suffix in subject identifiers."
  category := .style
  needsTypes := true
  messages := [("forbidden", "Subject identifiers must end with \"" ++ hole "suffix" ++ "\".")]
  options :=
    [ booleanOption "parameters" "Check parameter names" true
    , booleanOption "properties" "Check property and accessor names" true
    , ⟨"suffix", .string, "\"Subject\"", "Required suffix, optionally followed by `$`"⟩
    , typesOption
    , booleanOption "variables" "Check variable names" true ]

structure SuffixSettings where
  sites : List NameSite
  suffix : String
  /-- Names that end with the suffix. -/
  suffixed : Pattern
  types : List (Pattern × Bool)

structure SuffixOptions where
  parameters : Bool := true
  properties : Bool := true
  suffix : String := "Subject"
  types : List (String × Bool) := Options.exemptTypes
  variableNames : Bool := true

def SuffixOptions.ofJson? (json : Json) : Option SuffixOptions := do
  let fields := ["parameters", "properties", "suffix", "types", "variables"]
  match ← Json.recordFields? fields true json with
  | [parameters, properties, suffix, types, variableNames] =>
      return {
        parameters := ← Json.fieldOr? Json.asBool? true parameters
        properties := ← Json.fieldOr? Json.asBool? true properties
        suffix := ← Json.fieldOr? Json.asString? "Subject" suffix
        types := ← Json.fieldOr? (Json.mapOf? Json.asBool?) Options.exemptTypes types
        variableNames := ← Json.fieldOr? Json.asBool? true variableNames }
  | _ => none

def SuffixSettings.read (options : Json) : Except ConfigError SuffixSettings := do
  let rule := suffixSubjectsInfo.name
  let options ← Options.read rule SuffixOptions.ofJson? {} options
  let suffixed ← Options.compile rule ("(?i)" ++ Pattern.escape options.suffix ++ r"\$?$")
  let types ← Options.compileMap rule options.types
  let sites := enabledSites
    [ (options.parameters, .parameterName), (options.properties, .propertyName)
    , (options.variableNames, .variableName) ]
  return { sites, suffix := options.suffix, suffixed, types }

def checkSuffix (settings : SuffixSettings) : Check := fun file identifier =>
  Option.toList do
    let site ← NameSite.ofIdentifier? file.tree identifier
    let name ← file.tree.name? identifier
    if settings.sites.contains site && !settings.suffixed.isMatch name then
      let type ← file.types.declaredType? file.tree identifier
      if type.couldBe (.exactly "Subject") none &&
          !isExempt settings.types (fun p => type.couldBe (.like p) none) then
        return (file.tree.report "forbidden" identifier).withEntry "suffix" settings.suffix
      else none
    else none

def suffixSubjects : BuiltInRule :=
  .ofSettings suffixSubjectsInfo SuffixSettings.read fun settings =>
    [(NameSite.selector, checkSuffix settings)]

end ReactiveLint.Rules
