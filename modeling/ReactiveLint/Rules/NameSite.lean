import ReactiveLint.Syntax.Query
import ReactiveLint.Types.Json

/-!
# Where names are declared

The rules about names look at declared names only.  A name inside a destructuring
pattern belongs to the declaration that owns the pattern.
-/

namespace ReactiveLint

/-- What kind of declaration a name belongs to. -/
inductive NameSite
  | functionName
  | methodName
  | parameterName
  | propertyName
  | variableName
deriving DecidableEq, Repr, Inhabited

namespace NameSite

/-- Matches every identifier that may declare a name. -/
def selector : String :=
  "Identifier:matches(.id, .params, .key, .value, .elements, .left, .argument, .parameter)"

/-- The kinds of nodes that patterns are made of. -/
def patternKinds : List Kind :=
  [.arrayPattern, .objectPattern, .property, .assignmentPattern, .restElement]

/-- The outermost node of the pattern around a part of it. -/
def outermost (tree : Tree) (part : NodeId) : NodeId :=
  let around := (tree.ancestors part).takeWhile fun id => patternKinds.contains (tree.kind id)
  around.getLast?.getD part

/-- The site of the declaration that owns the pattern around a part of it. -/
def ofPattern? (tree : Tree) (part : NodeId) : Option NameSite := do
  let pattern := outermost tree part
  let owner ← tree.parent? pattern
  let field ← tree.fieldName? pattern
  match tree.kind owner, field with
  | .variableDeclarator, "id" => some variableName
  | kind, "params" => if kind.isFunction then some parameterName else none
  | _, _ => none

/-- The site of a key of a plain member of an object literal. -/
def ofObjectKey? (tree : Tree) (member : NodeId) : Option NameSite :=
  let inObject := (tree.parent? member).any (tree.is · .objectExpression)
  if inObject && !tree.flag member "method" && !tree.flag member "computed" then some propertyName
  else none

def ofMethodKey? (tree : Tree) (method : NodeId) : Option NameSite :=
  match tree.str? method "kind" with
  | some "get" | some "set" => some propertyName
  | some "method" => some methodName
  | _ => none

/-- The site of a declaring identifier, `none` for uses and in types. -/
def ofIdentifier? (tree : Tree) (identifier : NodeId) : Option NameSite := do
  let parent ← tree.parent? identifier
  let field ← tree.fieldName? identifier
  match tree.kind parent, field with
  | .variableDeclarator, "id" => some variableName
  | .functionDeclaration, "id" => some functionName
  | .tsParameterProperty, "parameter" => some parameterName
  | .propertyDefinition, "key" | .tsPropertySignature, "key" => some propertyName
  | .property, "key" => ofObjectKey? tree parent
  | .methodDefinition, "key" => ofMethodKey? tree parent
  | .tsMethodSignature, "key" => some methodName
  | .arrayPattern, "elements" | .assignmentPattern, "left" | .restElement, "argument" =>
      ofPattern? tree parent
  | .property, "value" =>
      if (tree.parent? parent).any (tree.is · .objectPattern) then ofPattern? tree parent
      else none
  | kind, "params" => if kind.isFunction then some parameterName else none
  | _, _ => none

end NameSite

/-- The type of a declared name, or else of the node that declares it. -/
def TypeQuery.declaredType? (types : TypeQuery) (tree : Tree) (identifier : NodeId) : Option Ty :=
  (types.typeOf? identifier).or ((tree.parent? identifier).bind types.typeOf?)

end ReactiveLint
