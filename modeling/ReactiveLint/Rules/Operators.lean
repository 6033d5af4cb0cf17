import ReactiveLint.Rules.Subscribing

/-!
# Rules about operators and creators

Which functions of the library may be called, and how.
-/

namespace ReactiveLint.Rules

/-- Reports what a call calls. -/
def reportCallee (tree : Tree) (call : NodeId) : List Report :=
  (tree.child? call "callee").toList.map (tree.report "forbidden")

/-! ## Calls that are not allowed -/

def noConnectableInfo : RuleInfo where
  name := "no-connectable"
  description := "Forbids operators that return connectable observables."
  category := .suspicious
  needsTypes := true
  messages := [("forbidden", "Connectable observables are forbidden.")]

/-- A `multicast` without a selector. -/
def checkMulticast : Check := fun file call =>
  if (file.tree.arguments call).length == 1 then reportCallee file.tree call else []

/-- A publishing operator without a selector. -/
def checkPublish : Check := fun file call =>
  if (file.tree.arguments call).ids.any file.types.couldBeFunction then []
  else reportCallee file.tree call

def noConnectable : BuiltInRule :=
  .ofChecks noConnectableInfo
    [ ("CallExpression[callee.name='multicast']", checkMulticast)
    , ("CallExpression[callee.name=/^(publish|publishBehavior|publishLast|publishReplay)$/]",
        checkPublish) ]

def noCreateInfo : RuleInfo where
  name := "no-create"
  description := "Forbids the calling of `Observable.create`."
  category := .style
  needsTypes := true
  messages := [("forbidden", "Observable.create is forbidden; use new Observable.")]

def noCreate : BuiltInRule :=
  .ofChecks noCreateInfo
    [("CallExpression > " ++
        "MemberExpression.callee[object.name='Observable'][property.name='create']",
      checkMember (couldBe "Observable"))]

def noTopromiseInfo : RuleInfo where
  name := "no-topromise"
  description := "Forbids the use of the `toPromise` method."
  category := .style
  needsTypes := true
  messages := [("forbidden", "The toPromise method is forbidden.")]

def noTopromise : BuiltInRule :=
  .ofChecks noTopromiseInfo
    [("MemberExpression[property.name='toPromise']", checkMember (couldBe "Observable"))]

def noSharereplayInfo : RuleInfo where
  name := "no-sharereplay"
  description := "Forbids using the `shareReplay` operator."
  category := .restriction
  messages :=
    [ ("forbidden", "shareReplay is forbidden.")
    , ("forbiddenWithoutConfig",
        "shareReplay is forbidden unless a config argument is passed.") ]
  options :=
    [⟨"allowConfig", .boolean, "true", "Allow shareReplay when a config object is passed"⟩]

/-- The only argument of a call when it is an object literal. -/
def objectArgument? (tree : Tree) (call : NodeId) : Option NodeId :=
  let arguments := tree.arguments call
  if arguments.length == 1 then arguments.first?.filter (tree.is · .objectExpression) else none

def checkShareReplay (allowConfig : Bool) : Check := fun file call =>
  match file.tree.child? call "callee" with
  | none => []
  | some callee =>
      if !allowConfig then [file.tree.report "forbidden" callee]
      else if (objectArgument? file.tree call).isSome then []
      else [file.tree.report "forbiddenWithoutConfig" callee]

def noSharereplay : BuiltInRule :=
  .ofSettings noSharereplayInfo (readFlag "no-sharereplay" "allowConfig" true) fun allowConfig =>
    [("CallExpression[callee.name='shareReplay']", checkShareReplay allowConfig)]

/-! ## Type arguments -/

def noExplicitGenericsInfo : RuleInfo where
  name := "no-explicit-generics"
  description := "Forbids explicit generic type arguments."
  category := .style
  messages := [("forbidden", "Explicit generic type arguments are forbidden.")]

/-- Reports a callee unless the argument at a position is a literal of an array or an
object, whose type would be too narrow without the type argument. -/
def checkGeneric (argument? : NodeList → Option NodeId) : Check := fun file callee =>
  let tree := file.tree
  let isCollection := fun id => tree.is id .arrayExpression || tree.is id .objectExpression
  let argument := (tree.parent? callee).bind fun call => argument? (tree.arguments call)
  if argument.any isCollection then [] else [tree.report "forbidden" callee]

def checkCallee : Check := fun file callee => [file.tree.report "forbidden" callee]

def noExplicitGenerics : BuiltInRule :=
  .ofChecks noExplicitGenericsInfo
    [ ("CallExpression[callee.property.name='pipe'] > " ++
          "CallExpression[typeArguments.params.length > 0] > Identifier.callee",
        checkCallee)
    , ("NewExpression[typeArguments.params.length > 0] > " ++
          "Identifier.callee[name='BehaviorSubject']",
        checkGeneric (·.first?))
    , ("CallExpression[typeArguments.params.length > 0] > " ++
          "Identifier.callee[name=/^(from|of)$/]",
        checkCallee)
    , ("NewExpression[typeArguments.params.length > 0][arguments.0.value='N'] > " ++
          "Identifier.callee[name='Notification']",
        checkGeneric (·.at? 1)) ]

/-! ## Arguments that must be used -/

def noIgnoredNotifierInfo : RuleInfo where
  name := "no-ignored-notifier"
  description :=
    "Forbids observables not composed from the `repeatWhen` or `retryWhen` notifier."
  category := .correctness
  needsTypes := true
  messages := [("forbidden", "Ignoring the notifier is forbidden.")]

/-- A call with a notifier that is being walked through. -/
structure Notifier where
  call : NodeId
  parameter : String
  /-- The identifiers of that name met so far, the parameter itself included. -/
  sightings : Nat
deriving DecidableEq, Repr

/-- The function that a call is given first. -/
def callback? (tree : Tree) (call : NodeId) : Option NodeId :=
  (tree.arguments call).first?.filter tree.isFunctionExpression

/-- Starts to watch the parameter of a callback; one without parameters ignores its
notifier, and a pattern is taken as used. -/
def enterNotifier : Handler (List Notifier) := fun file _ stack call =>
  let tree := file.tree
  if couldBe "MonoTypeOperatorFunction" file call then
    match callback? tree call, tree.child? call "callee" with
    | some callback, some callee =>
        match (tree.list callback "params").first? with
        | none => { state := stack, reports := [tree.report "forbidden" callee] }
        | some parameter =>
            if tree.is parameter .identifier then
              match tree.name? parameter with
              | some name => { state := ⟨call, name, 0⟩ :: stack }
              | none => { state := stack }
            else { state := stack }
    | _, _ => { state := stack }
  else { state := stack }

/-- Counts an identifier for the innermost notifier. -/
def sightIdentifier : Handler (List Notifier) := fun file _ stack identifier =>
  match stack with
  | top :: rest =>
      if file.tree.name? identifier = some top.parameter then
        { state := { top with sightings := top.sightings + 1 } :: rest }
      else { state := stack }
  | [] => { state := stack }

/-- Reports a call that is left when its notifier has been seen only as a
parameter. -/
def exitNotifier : Handler (List Notifier) := fun file _ stack call =>
  match stack with
  | top :: rest =>
      if top.call = call then
        { state := rest
          reports := if top.sightings < 2 then reportCallee file.tree call else [] }
      else { state := stack }
  | [] => { state := stack }

def notifierCall : String := "CallExpression[callee.name=/^(repeatWhen|retryWhen)$/]"

def noIgnoredNotifier : BuiltInRule :=
  .ofHandlers noIgnoredNotifierInfo (List Notifier) []
    [ (notifierCall, enterNotifier)
    , ("Identifier", sightIdentifier)
    , (notifierCall ++ ":exit", exitNotifier) ]

def noIgnoredReplayBufferInfo : RuleInfo where
  name := "no-ignored-replay-buffer"
  description :=
    "Forbids using `ReplaySubject`, `publishReplay` or `shareReplay` without specifying " ++
      "the buffer size."
  category := .suspicious
  messages := [("forbidden", "Ignoring the buffer size is forbidden.")]

/-- Whether an object literal has a property of a name. -/
def hasProperty (tree : Tree) (object : NodeId) (name : String) : Bool :=
  (tree.list object "properties").ids.any fun property =>
    ((tree.child? property "key").bind fun key => (tree.name? key).or (tree.str? key "value")) ==
      some name

/-- Reports a callee without arguments, and a `shareReplay` whose settings leave the
size open. -/
def checkReplay : Check := fun file callee =>
  let tree := file.tree
  let isCall := fun id => tree.is id .newExpression || tree.is id .callExpression
  match (tree.ancestors callee).find? isCall with
  | none => []
  | some call =>
      if (tree.arguments call).isEmpty then [tree.report "forbidden" callee]
      else if tree.name? callee = some "shareReplay" then
        match objectArgument? tree call with
        | some settings =>
            if hasProperty tree settings "bufferSize" then []
            else [tree.report "forbidden" callee]
        | none => []
      else []

def noIgnoredReplayBuffer : BuiltInRule :=
  .ofChecks noIgnoredReplayBufferInfo
    [ ("NewExpression > Identifier.callee[name='ReplaySubject']", checkReplay)
    , ("NewExpression > MemberExpression.callee > Identifier.property[name='ReplaySubject']",
        checkReplay)
    , ("CallExpression > Identifier.callee[name=/^(publishReplay|shareReplay)$/]",
        checkReplay) ]

def noIgnoredTakewhileValueInfo : RuleInfo where
  name := "no-ignored-takewhile-value"
  description := "Forbids ignoring the value within `takeWhile`."
  category := .suspicious
  messages := [("forbidden", "Ignoring the value within takeWhile is forbidden.")]

/-- Whether a module belongs to the library. -/
def isLibraryModule (path : String) : Bool :=
  path == "rxjs" || "rxjs/".toList.isPrefixOf path.toList

/-- Whether a predicate has no use for its value; a pattern is taken as used. -/
def ignoresValue (file : FileContext) (predicate : NodeId) : Bool :=
  match (file.tree.list predicate "params").first? with
  | none => true
  | some parameter =>
      file.tree.is parameter .identifier && (file.scopes.references parameter).isEmpty

def checkTakeWhile : Check := fun file predicate =>
  let tree := file.tree
  match (tree.parent? predicate).bind (tree.child? · "callee") with
  | none => []
  | some callee =>
      if tree.fieldName? predicate == some "arguments" &&
          (file.scopes.importSource? callee).any isLibraryModule &&
          ignoresValue file predicate then
        [tree.report "forbidden" callee]
      else []

def noIgnoredTakewhileValue : BuiltInRule :=
  .ofChecks noIgnoredTakewhileValueInfo
    [("CallExpression[callee.name='takeWhile'] > " ++
        ":matches(ArrowFunctionExpression, FunctionExpression)",
      checkTakeWhile)]

/-! ## Operators behind the last one -/

/-- Operators that may follow `takeUntil`. -/
def harmlessOperators : List String :=
  [ "count", "defaultIfEmpty", "endWith", "every", "finalize", "finally", "isEmpty", "last"
  , "max", "min", "publish", "publishBehavior", "publishLast", "publishReplay", "reduce"
  , "share", "shareReplay", "skipLast", "takeLast", "throwIfEmpty", "toArray" ]

/-- A list of plain words as JSON text. -/
def wordsText (words : List String) : String :=
  "[" ++ ",".intercalate (words.map fun word => "\"" ++ word ++ "\"") ++ "]"

def noUnsafeTakeuntilInfo : RuleInfo where
  name := "no-unsafe-takeuntil"
  description := "Forbids the application of operators after `takeUntil`."
  category := .correctness
  needsTypes := true
  messages := [("forbidden", "Applying operators after takeUntil is forbidden.")]
  options :=
    [ ⟨"alias", .stringList, "[]",
        "Operator name patterns (regular expressions) treated like takeUntil"⟩
    , ⟨"allow", .stringList, wordsText harmlessOperators,
        "Operators that may follow takeUntil"⟩ ]

structure TakeUntilSettings where
  /-- The names of the operators that end a stream. -/
  ending : Pattern
  allow : List String

/-- The text of a pattern for `takeUntil` and for what is treated like it. -/
def endingText (aliases : List String) : String :=
  "^(" ++ "|".intercalate ("takeUntil" :: aliases) ++ ")$"

def TakeUntilSettings.read (options : Json) : Except ConfigError TakeUntilSettings := do
  let rule := noUnsafeTakeuntilInfo.name
  let strings := Json.listOf? Json.asString?
  let read? := fun json => do
    match ← Json.recordFields? ["alias", "allow"] true json with
    | [aliases, allow] =>
        return (← Json.fieldOr? strings [] aliases,
          ← Json.fieldOr? strings harmlessOperators allow)
    | _ => none
  let (aliases, allow) ← Options.read rule read? ([], harmlessOperators) options
  return { ending := ← Options.compile rule (endingText aliases), allow }

/-- The name of the operator that an argument of `pipe` calls. -/
def operatorName? (tree : Tree) (argument : NodeId) : Option String :=
  if tree.is argument .callExpression then tree.calleeName? argument else none

/-- Whether an operator is the last ending one in a list of arguments, read from the
back, with something behind it that may not follow. -/
def isFollowed (settings : TakeUntilSettings) (tree : Tree) (operator : NodeId) :
    Bool → List NodeId → Bool
  | _, [] => false
  | refused, argument :: before =>
      match operatorName? tree argument with
      | none => isFollowed settings tree operator true before
      | some name =>
          if settings.ending.isMatch name then refused && argument == operator
          else isFollowed settings tree operator (refused || !settings.allow.contains name) before

def checkEnding (settings : TakeUntilSettings) : Check := fun file operator =>
  Option.toList do
    let tree := file.tree
    let callee ← tree.child? operator "callee"
    let name ← if tree.is callee .identifier then tree.name? callee else none
    let pipe ← tree.parent? operator
    if settings.ending.isMatch name && (tree.receiver? pipe).any (couldBe "Observable" file) &&
        isFollowed settings tree operator false (tree.arguments pipe).ids.reverse then
      return tree.report "forbidden" callee
    else none

def noUnsafeTakeuntil : BuiltInRule :=
  .ofSettings noUnsafeTakeuntilInfo TakeUntilSettings.read fun settings =>
    [("CallExpression[callee.property.name='pipe'] > CallExpression", checkEnding settings)]

end ReactiveLint.Rules
