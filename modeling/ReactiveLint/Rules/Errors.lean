import ReactiveLint.Rules.Operators

/-!
# Rules about errors

How the errors of a stream are typed, and what may be thrown into one.
-/

namespace ReactiveLint.Rules

/-! ## The types of caught errors -/

def noImplicitAnyCatchInfo : RuleInfo where
  name := "no-implicit-any-catch"
  description := "Forbids implicit `any` error parameters in `catchError` operators."
  category := .suspicious
  needsTypes := true
  fixable := true
  hasSuggestions := true
  messages :=
    [ ("explicitAny", "Explicit `any` in error callback.")
    , ("implicitAny", "Implicit `any` in error callback.")
    , ("narrowed", "Error type must be `unknown` or `any`.")
    , ("suggestExplicitUnknown",
        "Use `unknown` instead, this will force you to explicitly and safely assert the " ++
          "type is correct.") ]
  options :=
    [⟨"allowExplicitAny", .boolean, "false",
      "Accept error parameters annotated as `any`"⟩]

def suggestUnknown (report : Report) (edits : List Edit) : Report :=
  report.suggesting "suggestExplicitUnknown" edits

/-- The report of a parameter with a declared type. -/
def typedParameterReports (allowAny : Bool) (tree : Tree) (parameter declared : NodeId) :
    List Report :=
  let unknown := [tree.replaceNode declared ": unknown"]
  match (tree.child? declared "typeAnnotation").map tree.kind with
  | none => []
  | some .tsUnknownKeyword => []
  | some .tsAnyKeyword =>
      if allowAny then []
      else [suggestUnknown ((tree.report "explicitAny" parameter).fixedBy unknown) unknown]
  | some _ => [suggestUnknown (tree.report "narrowed" parameter) unknown]

/-- The edits that declare a parameter; one without parentheses before it gets some. -/
def declareUnknown (tree : Tree) (callback parameter : NodeId) : List Edit :=
  let before := tree.slice ⟨tree.start callback, tree.start parameter⟩
  if before.toList.contains '(' then [tree.insertAfter parameter ": unknown"]
  else [tree.insertBefore parameter "(", tree.insertAfter parameter ": unknown)"]

/-- The reports of the first parameter of an error callback. -/
def callbackReports (allowAny : Bool) (tree : Tree) (callback : NodeId) : List Report :=
  if !tree.isFunctionExpression callback then []
  else
    match (tree.list callback "params").first? with
    | none => []
    | some parameter =>
        if !tree.is parameter .identifier then []
        else
          match tree.child? parameter "typeAnnotation" with
          | some declared => typedParameterReports allowAny tree parameter declared
          | none =>
              let edits := declareUnknown tree callback parameter
              [suggestUnknown ((tree.report "implicitAny" parameter).fixedBy edits) edits]

/-- The error callback of a call: its second argument, or the `error` property of an
observer. -/
def errorCallback? (tree : Tree) (call : NodeId) : Option NodeId :=
  let arguments := tree.arguments call
  if 2 ≤ arguments.length then arguments.at? 1
  else do
    let observer ← arguments.first?
    if tree.is observer .objectExpression then
      let isError := fun property =>
        (tree.child? property "key").bind tree.name? == some "error"
      let property ← (tree.list observer "properties").ids.find? isError
      tree.child? property "value"
    else none

def checkCatchError (allowAny : Bool) : Check := fun file call =>
  (file.tree.arguments call).first?.toList.flatMap (callbackReports allowAny file.tree)

def checkErrorHandler (allowAny : Bool) : Check := fun file call =>
  (errorCallback? file.tree call).toList.flatMap (callbackReports allowAny file.tree)

def checkSubscribeError (allowAny : Bool) : Check := fun file call =>
  if (file.tree.receiver? call).any (couldBe "Observable" file) then
    checkErrorHandler allowAny file call
  else []

def noImplicitAnyCatch : BuiltInRule :=
  .ofSettings noImplicitAnyCatchInfo
    (readFlag "no-implicit-any-catch" "allowExplicitAny" false) fun allowAny =>
    [ ("CallExpression[callee.name='catchError']", checkCatchError allowAny)
    , ("CallExpression[callee.property.name='subscribe']", checkSubscribeError allowAny)
    , ("CallExpression[callee.name='tap']", checkErrorHandler allowAny) ]

/-! ## What is thrown -/

def throwErrorInfo : RuleInfo where
  name := "throw-error"
  description := "Enforces the passing of `Error` values to error notifications."
  category := .pedantic
  needsTypes := true
  messages := [("forbidden", "Passing non-Error values are forbidden.")]
  options :=
    [ ⟨"allowThrowingAny", .boolean, "true", "Accept values typed `any`"⟩
    , ⟨"allowThrowingUnknown", .boolean, "true", "Accept values typed `unknown`"⟩ ]

structure ThrowSettings where
  allowAny : Bool := true
  allowUnknown : Bool := true

def ThrowSettings.read : Json → Except ConfigError ThrowSettings :=
  let read? := fun json => do
    match ← Json.recordFields? ["allowThrowingAny", "allowThrowingUnknown"] true json with
    | [allowAny, allowUnknown] =>
        return {
          allowAny := ← Json.fieldOr? Json.asBool? true allowAny
          allowUnknown := ← Json.fieldOr? Json.asBool? true allowUnknown }
    | _ => none
  Options.read throwErrorInfo.name read? {}

/-- What is thrown in the end: a function is asked for its result. -/
def thrownType (type : Ty) : Ty :=
  match type.callSignatures with
  | signature :: _ => signature.returnType
  | [] => type

def acceptsThrown (settings : ThrowSettings) (type : Ty) : Bool :=
  let thrown := thrownType type
  if thrown.isAny then settings.allowAny
  else if thrown.isUnknown then settings.allowUnknown
  else thrown.couldBe (.exactly "Error") none || thrown.couldBe (.exactly "DOMException") none

def checkThrown (settings : ThrowSettings) : Check := fun file value =>
  match file.types.typeOf? value with
  | some type =>
      if acceptsThrown settings type then [] else [file.tree.report "forbidden" value]
  | none => []

def checkThrowError (settings : ThrowSettings) : Check := fun file call =>
  if couldBe "Observable" file call then
    (file.tree.arguments call).first?.toList.flatMap (checkThrown settings file)
  else []

def throwErrorRule : BuiltInRule :=
  .ofSettings throwErrorInfo ThrowSettings.read fun settings =>
    [ ("ThrowStatement > *", checkThrown settings)
    , ("CallExpression[callee.name='throwError']", checkThrowError settings) ]

end ReactiveLint.Rules
