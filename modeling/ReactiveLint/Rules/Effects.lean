import ReactiveLint.Pattern.Literal
import ReactiveLint.Rules.Operators

/-!
# Rules about effects and epics

An effect or epic is a `pipe` on a stream of actions.  It must not end early, and it
must not start itself again.
-/

namespace ReactiveLint.Rules

/-- The names of streams of actions. -/
def actionStreams : String := r"[Aa]ction(s|s\$|\$)$"

def observableOption : OptionSpec :=
  ⟨"observable", .regex, "\"" ++ r"[Aa]ction(s|s\\$|\\$)$" ++ "\"",
    "Pattern for the action stream names of effects and epics"⟩

/-- Reads the pattern of the names of streams. -/
def readObservable (rule : String) (options : Json) : Except ConfigError Pattern := do
  let read? := fun json => do
    match ← Json.recordFields? ["observable"] true json with
    | [observable] => Json.fieldOr? Json.asString? actionStreams observable
    | _ => none
  Options.compile rule (← Options.read rule read? actionStreams options)

def pipeCall : String := "CallExpression[callee.property.name='pipe']"

/-- The calls among the arguments of a `pipe`, each with what it calls. -/
def operatorCalls (tree : Tree) (pipe : NodeId) : List (NodeId × NodeId) :=
  (tree.arguments pipe).ids.filterMap fun argument =>
    if tree.is argument .callExpression then
      (tree.child? argument "callee").map (argument, ·)
    else none

/-- Whether a call is the `pipe` of an effect that gives an observable. -/
def isTypedEffect (file : FileContext) (pipe : NodeId) (observable : Pattern) : Bool :=
  file.tree.isEffectPipe pipe observable && couldBe "Observable" file pipe

/-! ## Actions that come back -/

def noCyclicActionInfo : RuleInfo where
  name := "no-cyclic-action"
  description := "Forbids effects and epics that re-emit filtered actions."
  category := .correctness
  needsTypes := true
  messages :=
    [("forbidden", "Effects and epics that re-emit filtered actions are forbidden.")]
  options := [observableOption]

mutual

/-- The types of the `type` properties of the actions in a type. -/
def actionTypes : Ty → List String
  | .union types => allActionTypes types
  | type => ((type.property? "type").map Ty.display).toList

def allActionTypes : List Ty → List String
  | [] => []
  | type :: types => actionTypes type ++ allActionTypes types

end

/-- The actions that an `ofType` lets through, by its type. -/
def filteredActions? (file : FileContext) (operator : NodeId) : Option Ty := do
  let type ← file.types.typeOf? operator
  let signature ← type.callSignatures.head?
  if signature.returnType.couldBe (.exactly "Observable") none then
    signature.returnType.arguments.head?
  else none

def checkCycle (observable : Pattern) : Check := fun file pipe =>
  let tree := file.tree
  if !tree.isEffectPipe pipe observable then []
  else
    let isFilter := fun argument => tree.is argument .callExpression &&
      (tree.child? argument "callee").any (tree.isIdentifier · "ofType")
    let filtered := ((tree.arguments pipe).ids.find? isFilter).bind (filteredActions? file)
    let emitted := (file.types.typeOf? pipe).bind (·.arguments.head?)
    match filtered, emitted with
    | some filtered, some emitted =>
        if (actionTypes filtered).any (actionTypes emitted).contains then
          reportCallee tree pipe
        else []
    | _, _ => []

def noCyclicAction : BuiltInRule :=
  .ofSettings noCyclicActionInfo (readObservable "no-cyclic-action") fun observable =>
    [(pipeCall, checkCycle observable)]

/-! ## Effects that end -/

def noUnsafeCatchInfo : RuleInfo where
  name := "no-unsafe-catch"
  description := "Forbids unsafe `catchError` usage in effects and epics."
  category := .correctness
  needsTypes := true
  messages := [("forbidden", "Unsafe catchError usage in effects and epics are forbidden.")]
  options := [observableOption]

/-- Whether a call is given a function that cannot go on with the caught source. -/
def dropsSource (tree : Tree) (call : NodeId) : Bool :=
  (tree.arguments call).first?.any fun handler =>
    tree.isFunctionExpression handler && (tree.list handler "params").length < 2

def checkCatch (observable : Pattern) : Check := fun file pipe =>
  let tree := file.tree
  if isTypedEffect file pipe observable then
    (operatorCalls tree pipe).filterMap fun (call, callee) =>
      if tree.isIdentifier callee "catchError" && dropsSource tree call then
        some (tree.report "forbidden" callee)
      else none
  else []

def noUnsafeCatch : BuiltInRule :=
  .ofSettings noUnsafeCatchInfo (readObservable "no-unsafe-catch") fun observable =>
    [(pipeCall, checkCatch observable)]

def noUnsafeFirstInfo : RuleInfo where
  name := "no-unsafe-first"
  description := "Forbids unsafe `first`/`take` usage in effects and epics."
  category := .correctness
  needsTypes := true
  messages :=
    [("forbidden", "Unsafe first and take usage in effects and epics are forbidden.")]
  options := [observableOption]

def checkFirst (observable : Pattern) : Check := fun file pipe =>
  let tree := file.tree
  if isTypedEffect file pipe observable then
    (operatorCalls tree pipe).filterMap fun (_, callee) =>
      if tree.isIdentifier callee "first" || tree.isIdentifier callee "take" then
        some (tree.report "forbidden" callee)
      else none
  else []

def noUnsafeFirst : BuiltInRule :=
  .ofSettings noUnsafeFirstInfo (readObservable "no-unsafe-first") fun observable =>
    [(pipeCall, checkFirst observable)]

/-! ## Effects that drop what they have started -/

/-- Words of actions that change something. -/
def changingWords : List String :=
  ["add", "create", "delete", "post", "put", "remove", "set", "update"]

def noUnsafeSwitchmapInfo : RuleInfo where
  name := "no-unsafe-switchmap"
  description := "Forbids unsafe `switchMap` usage in effects and epics."
  category := .correctness
  needsTypes := true
  messages := [("forbidden", "Unsafe switchMap usage in effects and epics is forbidden.")]
  options :=
    [ ⟨"allow", .stringList, "null",
        "Action words (or one pattern) that may use switchMap; overrides disallow"⟩
    , ⟨"disallow", .stringList, wordsText changingWords,
        "Action words (or one pattern) that must not use switchMap"⟩
    , observableOption ]

/-- Words of names, as one pattern or as a list. -/
inductive Words
  | pattern (text : String)
  | list (words : List String)
deriving DecidableEq, Repr

namespace Words

def ofJson? : Json → Option Words
  | .str text => some (pattern text)
  | .list items => (items.mapM Json.asString?).map list
  | _ => none

/-- A pattern for words between word boundaries or underscores, in any case. -/
def patternText? : Words → Option String
  | pattern text => if text = "" then none else some ("(?i)" ++ text)
  | list words =>
      if words.isEmpty then none
      else
        let part := fun word => r"(\b|_)" ++ Pattern.escape word ++ r"(\b|_)"
        some ("(?i)(" ++ "|".intercalate (words.map part) ++ ")")

def compile? (rule : String) (words : Words) : Except ConfigError (Option Pattern) :=
  match words.patternText? with
  | none => .ok none
  | some text => do return some (← Options.compile rule text)

end Words

/-- Which actions are not to be followed by `switchMap`. -/
inductive ActionFilter
  | allow (names : Pattern)
  | disallow (names : Pattern)
  | nothing

structure SwitchMapSettings where
  filter : ActionFilter
  observable : Pattern

/-- The options as they are written. -/
structure SwitchMapOptions where
  allow : Option Words := none
  disallow : Option Words := none
  observable : String := actionStreams

def SwitchMapOptions.ofJson? (json : Json) : Option SwitchMapOptions := do
  match ← Json.recordFields? ["allow", "disallow", "observable"] true json with
  | [allow, disallow, observable] =>
      return {
        allow := ← Json.optional? Words.ofJson? allow
        disallow := ← Json.optional? Words.ofJson? disallow
        observable := ← Json.fieldOr? Json.asString? actionStreams observable }
  | _ => none

/-- The filter of options; what is allowed counts before what is not. -/
def SwitchMapOptions.filter (rule : String) (options : SwitchMapOptions) :
    Except ConfigError ActionFilter := do
  match options.allow with
  | some words => return ((← words.compile? rule).map .allow).getD .nothing
  | none =>
      let words := options.disallow.getD (.list changingWords)
      return ((← words.compile? rule).map .disallow).getD .nothing

def SwitchMapSettings.read (options : Json) : Except ConfigError SwitchMapSettings := do
  let rule := noUnsafeSwitchmapInfo.name
  let options ← Options.read rule SwitchMapOptions.ofJson? {} options
  let filter ← options.filter rule
  return { filter, observable := ← Options.compile rule options.observable }

def isLower (c : Char) : Bool := Text.Category.ofChar c == .lowercaseLetter
def isUpper (c : Char) : Bool := Text.Category.ofChar c == .uppercaseLetter
def isLowerOrDigit (c : Char) : Bool := isLower c || Text.Category.ofChar c == .decimalNumber

/-- Puts an underscore between a small letter or digit and a capital. -/
def splitWords : List Char → List Char
  | c :: d :: cs =>
      if isLowerOrDigit c && isUpper d then c :: '_' :: splitWords (d :: cs)
      else c :: splitWords (d :: cs)
  | cs => cs

/-- Puts an underscore before the last of several capitals when a small letter or
digit follows it. -/
def splitCapitals : List Char → List Char
  | c :: d :: e :: cs =>
      if isUpper c && isUpper d && isLowerOrDigit e then
        c :: '_' :: splitCapitals (d :: e :: cs)
      else c :: splitCapitals (d :: e :: cs)
  | cs => cs

/-- A name in small letters with underscores between its words. -/
def snakeCase (name : String) : String :=
  Text.Case.lower (String.ofList (splitCapitals (splitWords name.toList)))

/-- The name of an action that `ofType` is given. -/
def actionName (tree : Tree) (argument : NodeId) : String :=
  let name := match tree.kind argument with
    | .literal => tree.str? argument "value"
    | _ => tree.memberOrIdentifierName? argument
  snakeCase (name.getD "")

/-- Whether `switchMap` may lose one of the actions that an `ofType` lets through. -/
def mayLose (filter : ActionFilter) (tree : Tree) (call : NodeId) : Bool :=
  let names := (tree.arguments call).ids.map (actionName tree)
  match filter with
  | .allow pattern => !names.all pattern.isMatch
  | .disallow pattern => names.any pattern.isMatch
  | .nothing => false

def checkSwitchMap (settings : SwitchMapSettings) : Check := fun file pipe =>
  let tree := file.tree
  if isTypedEffect file pipe settings.observable then
    let operators := operatorCalls tree pipe
    let loses := operators.any fun (call, callee) =>
      tree.isIdentifier callee "ofType" && mayLose settings.filter tree call
    if loses then
      operators.filterMap fun (_, callee) =>
        if tree.isIdentifier callee "switchMap" then some (tree.report "forbidden" callee)
        else none
    else []
  else []

def noUnsafeSwitchmap : BuiltInRule :=
  .ofSettings noUnsafeSwitchmapInfo SwitchMapSettings.read fun settings =>
    [(pipeCall, checkSwitchMap settings)]

end ReactiveLint.Rules
