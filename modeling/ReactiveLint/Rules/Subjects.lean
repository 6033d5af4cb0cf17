import ReactiveLint.Pattern.Literal
import ReactiveLint.Rules.Subscribing

/-!
# Rules about subjects

Who may see a subject, and what may be asked of it.
-/

namespace ReactiveLint.Rules

open Template (hole)

/-! ## Visible subjects -/

def noExposedSubjectsInfo : RuleInfo where
  name := "no-exposed-subjects"
  description := "Forbids exposed (i.e. non-private) subjects."
  category := .restriction
  needsTypes := true
  messages :=
    [ ("forbidden", "Subject '" ++ hole "subject" ++ "' must be private.")
    , ("forbiddenAllowProtected",
        "Subject '" ++ hole "subject" ++ "' must be private or protected.") ]
  options := [⟨"allowProtected", .boolean, "false", "Accept protected subjects"⟩]

/-- Reports a name of a subject. -/
def reportSubject (messageId : String) (tree : Tree) (name : NodeId) : Report :=
  (tree.report messageId name).withEntry "subject" ((tree.name? name).getD "")

/-- Properties and accessors of a class. -/
def checkSubjectMember (messageId : String) : Check := fun file member =>
  match file.tree.child? member "key" with
  | some key =>
      if couldBe "Subject" file member || couldBe "Subject" file key then
        [reportSubject messageId file.tree key]
      else []
  | none => []

/-- Parameters of a constructor that are properties too. -/
def checkSubjectParameter (messageId : String) : Check := fun file parameter =>
  if couldBe "Subject" file parameter then [reportSubject messageId file.tree parameter]
  else []

/-- The name of the type that a method is declared to return. -/
def returnTypeName? (tree : Tree) (method : NodeId) : Option String := do
  let function ← tree.child? method "value"
  let declared ← tree.child? function "returnType"
  let type ← tree.child? declared "typeAnnotation"
  if tree.is type .tsTypeReference then (tree.child? type "typeName").bind tree.name? else none

/-- Methods that are declared to return a subject. -/
def checkSubjectMethod (messageId : String) : Check := fun file method =>
  match file.tree.child? method "key" with
  | some key =>
      if (returnTypeName? file.tree method).any ("Subject".toList.isSuffixOf ·.toList) then
        [reportSubject messageId file.tree key]
      else []
  | none => []

def exposedSubjectChecks (allowProtected : Bool) : List (String × Check) :=
  let hidden := if allowProtected then "/^(private|protected)$/" else "/^private$/"
  let messageId := if allowProtected then "forbiddenAllowProtected" else "forbidden"
  let visible := s!"[accessibility!={hidden}]"
  [ ("PropertyDefinition" ++ visible, checkSubjectMember messageId)
  , ("MethodDefinition[kind='constructor'] > FunctionExpression > TSParameterProperty" ++
        visible ++ " > Identifier",
      checkSubjectParameter messageId)
  , ("MethodDefinition[kind=/^(get|set)$/]" ++ visible, checkSubjectMember messageId)
  , ("MethodDefinition[kind='method']" ++ visible, checkSubjectMethod messageId) ]

def noExposedSubjects : BuiltInRule :=
  .ofSettings noExposedSubjectsInfo (readFlag "no-exposed-subjects" "allowProtected" false)
    exposedSubjectChecks

/-! ## Subclasses -/

def noSubclassInfo : RuleInfo where
  name := "no-subclass"
  description := "Forbids subclassing RxJS classes."
  category := .restriction
  needsTypes := true
  messages := [("forbidden", "Subclassing RxJS classes is forbidden.")]

def libraryClasses : List String :=
  [ "AsyncSubject", "BehaviorSubject", "Observable", "ReplaySubject", "Scheduler", "Subject"
  , "Subscriber" ]

/-- Paths that lead through the folder of the library. -/
def libraryFolder : Pattern :=
  let separator := Pattern.one (.union (.single '/') (.single '\\'))
  .seq separator (.seq (.literal "rxjs".toList) separator)

def checkSuperClass : Check := fun file superClass =>
  match file.tree.name? superClass with
  | some name =>
      if libraryClasses.contains name && file.types.couldBeIn superClass name libraryFolder then
        [file.tree.report "forbidden" superClass]
      else []
  | none => []

def noSubclass : BuiltInRule :=
  .ofChecks noSubclassInfo
    [(":matches(ClassDeclaration, ClassExpression) > Identifier.superClass", checkSuperClass)]

/-! ## Members of subjects -/

def noSubjectUnsubscribeInfo : RuleInfo where
  name := "no-subject-unsubscribe"
  description := "Forbids calling the `unsubscribe` method of a subject instance."
  category := .correctness
  needsTypes := true
  messages := [("forbidden", "Calling unsubscribe on a subject is forbidden.")]

/-- Reports a subject that is added to a subscription, which will unsubscribe it. -/
def checkAdded : Check := fun file call =>
  let tree := file.tree
  if (tree.receiver? call).any (couldBe "Subscription" file) then
    match (tree.arguments call).first? with
    | some argument =>
        if couldBe "Subject" file argument then [tree.report "forbidden" argument] else []
    | none => []
  else []

def noSubjectUnsubscribe : BuiltInRule :=
  .ofChecks noSubjectUnsubscribeInfo
    [ ("MemberExpression[property.name='unsubscribe']", checkMember (couldBe "Subject"))
    , ("CallExpression[callee.property.name='add'][arguments.length > 0]", checkAdded) ]

def noSubjectValueInfo : RuleInfo where
  name := "no-subject-value"
  description := "Forbids accessing the `value` property of a `BehaviorSubject` instance."
  category := .restriction
  needsTypes := true
  messages :=
    [("forbidden", "Accessing the value property of a BehaviorSubject is forbidden.")]

def noSubjectValue : BuiltInRule :=
  .ofChecks noSubjectValueInfo
    [("MemberExpression[property.name=/^(value|getValue)$/]",
      checkMember (couldBe "BehaviorSubject"))]

def noUnsafeSubjectNextInfo : RuleInfo where
  name := "no-unsafe-subject-next"
  description := "Forbids unsafe optional `next` calls."
  category := .correctness
  needsTypes := true
  messages := [("forbidden", "Unsafe optional next calls are forbidden.")]

/-- Whether a subject with elements of a type may be given no value. -/
def toleratesVoid (element : Ty) : Bool :=
  element.isAny || element.isUnknown || element.isVoid ||
    (element.isUnion && element.unionMembers.any Ty.isVoid)

/-- Whether a node is a subject whose elements must have values. -/
def needsValue (file : FileContext) (object : NodeId) : Bool :=
  couldBe "Subject" file object &&
    ((file.types.typeOf? object).bind (·.arguments.head?)).any (!toleratesVoid ·)

def noUnsafeSubjectNext : BuiltInRule :=
  .ofChecks noUnsafeSubjectNextInfo
    [("CallExpression[arguments.length=0] > MemberExpression.callee[property.name='next']",
      checkMember needsValue)]

/-! ## Notifications after the last one -/

def noRedundantNotifyInfo : RuleInfo where
  name := "no-redundant-notify"
  description := "Forbids redundant notifications from completed or errored observables."
  category := .correctness
  needsTypes := true
  messages := [("forbidden", "Redundant notifications are forbidden.")]

/-- The receiver and the method of a statement that calls a method. -/
def notification? (tree : Tree) (statement : NodeId) : Option (NodeId × NodeId) := do
  let expression ← tree.child? statement "expression"
  let callee ← tree.child? expression "callee"
  memberParts? tree callee

/-- Whether a node may be something that notifies. -/
def notifies (file : FileContext) (node : NodeId) : Bool :=
  couldBe "Subject" file node || couldBe "Subscriber" file node

/-- Reports a notification just behind a last one from the same receiver. -/
def checkRedundant : Check := fun file statement =>
  Option.toList do
    let tree := file.tree
    let parent ← tree.parent? statement
    if tree.is parent .blockStatement || tree.is parent .program then
      let previous ← (tree.precedingSiblings statement).last?
      let (terminal, _) ← notification? tree previous
      let (receiver, property) ← notification? tree statement
      if tree.text terminal == tree.text receiver && notifies file terminal &&
          notifies file receiver then
        return tree.report "forbidden" property
      else none
    else none

def noRedundantNotify : BuiltInRule :=
  .ofChecks noRedundantNotifyInfo
    [("ExpressionStatement[expression.callee.property.name=/^(complete|error)$/] " ++
        "+ ExpressionStatement[expression.callee.property.name=/^(next|complete|error)$/]",
      checkRedundant)]

end ReactiveLint.Rules
