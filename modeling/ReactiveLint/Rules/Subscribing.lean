import ReactiveLint.Pattern.Basic
import ReactiveLint.Rules.Options
import ReactiveLint.Syntax.Query

/-!
# Rules about subscribing

What may be done with the observables that calls return, and what may be passed to
`subscribe`.
-/

/-!
## Shapes of calls

What rules ask of the calls and functions of a program.
-/

namespace ReactiveLint.Tree

/-- An arrow function or a function expression. -/
def isFunctionExpression (tree : Tree) (id : NodeId) : Bool :=
  tree.is id .arrowFunctionExpression || tree.is id .functionExpression

/-- The name of an identifier, or of the property of a member expression. -/
def memberOrIdentifierName? (tree : Tree) (id : NodeId) : Option String :=
  match tree.kind id with
  | .identifier => tree.name? id
  | .memberExpression => (tree.child? id "property").bind tree.name?
  | _ => none

/-- The name of what a call calls. -/
def calleeName? (tree : Tree) (call : NodeId) : Option String :=
  (tree.child? call "callee").bind tree.memberOrIdentifierName?

/-- What the method of a call is called on. -/
def receiver? (tree : Tree) (call : NodeId) : Option NodeId :=
  (tree.child? call "callee").bind (tree.child? · "object")

def arguments (tree : Tree) (call : NodeId) : NodeList := tree.list call "arguments"

/-- A call of `pipe` on a stream of actions, which is known by its name. -/
def isEffectPipe (tree : Tree) (call : NodeId) (observable : Pattern) : Bool :=
  match tree.child? call "callee" with
  | none => false
  | some callee =>
      tree.is callee .memberExpression &&
        (tree.child? callee "property").bind tree.name? == some "pipe" &&
        ((tree.child? callee "object").bind tree.memberOrIdentifierName?).any observable.isMatch

end ReactiveLint.Tree

/-! ## Rules -/

namespace ReactiveLint.Rules

/-- The selector of what a call of `subscribe` calls. -/
def subscribeCallee : String :=
  "CallExpression > MemberExpression.callee[property.name='subscribe']"

/-- Whether a node may be something to subscribe to. -/
def isSubscribable (file : FileContext) (node : NodeId) : Bool :=
  file.types.couldBe node "Observable" || file.types.couldBe node "Subscribable"

/-- The object and the property of a member expression. -/
def memberParts? (tree : Tree) (member : NodeId) : Option (NodeId × NodeId) := do
  let object ← tree.child? member "object"
  let property ← tree.child? member "property"
  return (object, property)

/-- Reports the property of a member expression whose object passes a test. -/
def checkMember (test : FileContext → NodeId → Bool) : Check := fun file member =>
  match memberParts? file.tree member with
  | some (object, property) =>
      if test file object then [file.tree.report "forbidden" property] else []
  | none => []

/-- Whether a node may be of a named type. -/
def couldBe (name : String) (file : FileContext) (node : NodeId) : Bool :=
  file.types.couldBe node name

/-! ## Callbacks -/

def noAsyncSubscribeInfo : RuleInfo where
  name := "no-async-subscribe"
  description := "Forbids passing async functions to subscribe."
  category := .correctness
  needsTypes := true
  messages := [("forbidden", "Passing async functions to subscribe is forbidden.")]

/-- The span of the keyword that opens an async function. -/
def asyncSpan (function : Span) : Span :=
  ⟨function.start, min (function.start + "async".length) function.stop⟩

def checkAsync : Check := fun file function =>
  let object := (file.tree.parent? function).bind file.tree.receiver?
  if object.any (couldBe "Observable" file) then
    [{ messageId := "forbidden", span := asyncSpan (file.tree.span function) }]
  else []

def noAsyncSubscribe : BuiltInRule :=
  .ofChecks noAsyncSubscribeInfo
    [("CallExpression[callee.property.name='subscribe'] > " ++
        ":matches(ArrowFunctionExpression, FunctionExpression)[async=true]",
      checkAsync)]

def noIgnoredErrorInfo : RuleInfo where
  name := "no-ignored-error"
  description := "Forbids the calling of `subscribe` without specifying an error handler."
  category := .pedantic
  needsTypes := true
  messages := [("forbidden", "Calling subscribe without an error handler is forbidden.")]

/-- Reports a call with a function as its only argument. -/
def checkLoneHandler : Check := fun file property =>
  Option.toList do
    let tree := file.tree
    let member ← tree.parent? property
    let object ← tree.child? member "object"
    let call ← tree.parent? member
    let arguments := tree.arguments call
    if arguments.length == 1 && couldBe "Observable" file object &&
        arguments.first?.any file.types.couldBeFunction then
      return tree.report "forbidden" property
    else none

def noIgnoredError : BuiltInRule :=
  .ofChecks noIgnoredErrorInfo
    [("CallExpression[arguments.length > 0] > MemberExpression.callee > " ++
        "Identifier.property[name='subscribe']",
      checkLoneHandler)]

def noSubscribeHandlersInfo : RuleInfo where
  name := "no-subscribe-handlers"
  description := "Forbids the passing of handlers to `subscribe`."
  category := .restriction
  needsTypes := true
  messages := [("forbidden", "Passing handlers to subscribe is forbidden.")]

def noSubscribeHandlers : BuiltInRule :=
  .ofChecks noSubscribeHandlersInfo
    [("CallExpression[arguments.length > 0] > " ++
        "MemberExpression.callee[property.name='subscribe']",
      checkMember isSubscribable)]

/-! ## Results that are not used -/

def noIgnoredObservableInfo : RuleInfo where
  name := "no-ignored-observable"
  description := "Forbids the ignoring of observables returned by functions."
  category := .correctness
  needsTypes := true
  messages := [("forbidden", "Ignoring a returned Observable is forbidden.")]

def checkIgnoredCall : Check := fun file call =>
  if couldBe "Observable" file call then [file.tree.report "forbidden" call] else []

def noIgnoredObservable : BuiltInRule :=
  .ofChecks noIgnoredObservableInfo
    [("ExpressionStatement > CallExpression", checkIgnoredCall)]

def noIgnoredSubscribeInfo : RuleInfo where
  name := "no-ignored-subscribe"
  description := "Forbids the calling of `subscribe` without specifying arguments."
  category := .pedantic
  needsTypes := true
  messages := [("forbidden", "Calling subscribe without arguments is forbidden.")]

def noIgnoredSubscribe : BuiltInRule :=
  .ofChecks noIgnoredSubscribeInfo
    [("CallExpression[arguments.length=0] > " ++
        "MemberExpression.callee[property.name='subscribe']",
      checkMember isSubscribable)]

def noIgnoredSubscriptionInfo : RuleInfo where
  name := "no-ignored-subscription"
  description := "Forbids ignoring the subscription returned by `subscribe`."
  category := .pedantic
  needsTypes := true
  messages := [("forbidden", "Ignoring returned subscriptions is forbidden.")]

/-- Reports a call that is not handed a subscriber, which would end with it. -/
def checkIgnoredSubscription : Check := fun file member =>
  Option.toList do
    let (object, property) ← memberParts? file.tree member
    let call ← file.tree.parent? member
    let arguments := file.tree.arguments call
    let chained :=
      arguments.length == 1 && arguments.first?.any (couldBe "Subscriber" file)
    if couldBe "Observable" file object && !chained then
      return file.tree.report "forbidden" property
    else none

def noIgnoredSubscription : BuiltInRule :=
  .ofChecks noIgnoredSubscriptionInfo
    [("ExpressionStatement > " ++ subscribeCallee, checkIgnoredSubscription)]

/-! ## Subscribing inside a callback -/

def noNestedSubscribeInfo : RuleInfo where
  name := "no-nested-subscribe"
  description := "Forbids the calling of `subscribe` within a `subscribe` callback."
  category := .correctness
  needsTypes := true
  messages := [("forbidden", "Nested subscribe calls are forbidden.")]

/-- Keeps the arguments of the calls met so far that are not nested themselves, and
reports a call inside one of them. -/
def checkNested : Handler (List NodeId) := fun file _ handlers member =>
  let tree := file.tree
  match memberParts? tree member, tree.parent? member with
  | some (object, property), some call =>
      if !isSubscribable file object then { state := handlers }
      else if (tree.ancestors call).any handlers.contains then
        { state := handlers, reports := [tree.report "forbidden" property] }
      else { state := handlers ++ (tree.arguments call).ids }
  | _, _ => { state := handlers }

def noNestedSubscribe : BuiltInRule :=
  .ofHandlers noNestedSubscribeInfo (List NodeId) [] [(subscribeCallee, checkNested)]

/-! ## Methods without their object -/

def noUnboundMethodsInfo : RuleInfo where
  name := "no-unbound-methods"
  description := "Forbids the passing of unbound methods."
  category := .correctness
  needsTypes := true
  messages := [("forbidden", "Unbound methods are forbidden.")]

/-- The arguments that are members with function types. -/
def methodArguments (file : FileContext) (arguments : NodeList) : List NodeId :=
  arguments.ids.filter fun argument =>
    file.tree.is argument .memberExpression && file.types.couldBeFunction argument

/-- Keeps the methods that the operators of a `pipe` are given. -/
def flagPipe : Handler (List NodeId) := fun file _ flagged call =>
  let tree := file.tree
  if (tree.receiver? call).any (couldBe "Observable" file) then
    let operators := (tree.arguments call).ids.filter (tree.is · .callExpression)
    { state := flagged ++
        operators.flatMap fun operator => methodArguments file (tree.arguments operator) }
  else { state := flagged }

/-- Keeps the methods that a call of `subscribe` or `add` is given. -/
def flagSubscribe : Handler (List NodeId) := fun file _ flagged call =>
  let isTarget := fun object =>
    couldBe "Observable" file object || couldBe "Subscription" file object
  if (file.tree.receiver? call).any isTarget then
    { state := flagged ++ methodArguments file (file.tree.arguments call) }
  else { state := flagged }

/-- Keeps the methods that a new subscription is given. -/
def flagSubscription : Handler (List NodeId) := fun file _ flagged call =>
  { state := flagged ++ methodArguments file (file.tree.arguments call) }

/-- Reports the nearest kept method around a `this`. -/
def checkThis : Handler (List NodeId) := fun file _ flagged this =>
  let found := (file.tree.ancestors this).find? flagged.contains
  { state := flagged, reports := found.toList.map (file.tree.report "forbidden") }

def noUnboundMethods : BuiltInRule :=
  .ofHandlers noUnboundMethodsInfo (List NodeId) []
    [ ("CallExpression[callee.property.name='pipe']", flagPipe)
    , ("CallExpression[callee.property.name=/^(add|subscribe)$/]", flagSubscribe)
    , ("NewExpression[callee.name='Subscription']", flagSubscription)
    , ("ThisExpression", checkThis) ]

/-! ## Observers -/

def preferObserverInfo : RuleInfo where
  name := "prefer-observer"
  description := "Forbids the passing separate handlers to `subscribe` and `tap`."
  category := .style
  needsTypes := true
  fixable := true
  hasSuggestions := true
  messages :=
    [("forbidden", "Passing separate handlers is forbidden; pass an observer instead.")]
  options := [⟨"allowNext", .boolean, "true", "Accept a lone next handler"⟩]

/-- A property of an observer; arguments that stand for no handler give none. -/
def observerProperty? (key text : String) : Option String :=
  let text := Text.trimmed text
  if text = "" ∨ text = "undefined" ∨ text = "null" then none
  else some s!"{key}: {text}"

/-- An observer with the handlers of a list of arguments. -/
def observerText (texts : List String) : String :=
  let properties := (["next", "error", "complete"].zip texts).filterMap fun (key, text) =>
    observerProperty? key text
  if properties.isEmpty then "\x7b\x7d"
  else "\x7b " ++ ", ".intercalate properties ++ " \x7d"

/-- Puts an observer in the place of separate handlers. -/
def observerEdits? (tree : Tree) (arguments : NodeList) : Option (List Edit) := do
  let first ← arguments.first?
  let last ← arguments.last?
  let observer := observerText (arguments.ids.map tree.text)
  let rest := if 1 < arguments.length then
    [⟨⟨(tree.span first).stop, (tree.span last).stop⟩, ""⟩] else []
  return tree.replaceNode first observer :: rest

/-- Whether the arguments are separate handlers. -/
def areSeparate (allowNext : Bool) (file : FileContext) (arguments : NodeList) : Bool :=
  match arguments.length with
  | 0 => false
  | 1 => !allowNext && arguments.first?.any file.types.couldBeFunction
  | _ => true

def checkHandlers (allowNext : Bool) (file : FileContext) (call reported : NodeId) :
    List Report :=
  let arguments := file.tree.arguments call
  if areSeparate allowNext file arguments then
    let report := file.tree.report "forbidden" reported
    match observerEdits? file.tree arguments with
    | some edits => [(report.fixedBy edits).suggesting "forbidden" edits]
    | none => [report]
  else []

def checkTapHandlers (allowNext : Bool) : Check := fun file call =>
  match file.tree.child? call "callee" with
  | some callee => checkHandlers allowNext file call callee
  | none => []

def checkSubscribeHandlers (allowNext : Bool) : Check := fun file call =>
  match (file.tree.child? call "callee").bind (memberParts? file.tree) with
  | some (object, property) =>
      if couldBe "Observable" file object then checkHandlers allowNext file call property
      else []
  | none => []

/-- Reads options with one Boolean field. -/
def readFlag (rule field : String) (default : Bool) (options : Json) : Except ConfigError Bool :=
  let read? := fun json => do
    match ← Json.recordFields? [field] true json with
    | [value] => Json.fieldOr? Json.asBool? default value
    | _ => none
  Options.read rule read? default options

def preferObserver : BuiltInRule :=
  .ofSettings preferObserverInfo (readFlag "prefer-observer" "allowNext" true) fun allowNext =>
    [ ("CallExpression[callee.property.name='pipe'] > CallExpression[callee.name='tap']",
        checkTapHandlers allowNext)
    , ("CallExpression[callee.property.name='subscribe']",
        checkSubscribeHandlers allowNext) ]

end ReactiveLint.Rules
