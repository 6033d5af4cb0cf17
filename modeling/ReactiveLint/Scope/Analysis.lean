import ReactiveLint.Scope.Basic

/-!
# Scope analysis

Names are declared in the nodes that open scopes: `var` in the nearest function or
program, an import in the outermost node, everything else in the nearest scope.
Names that no enclosing scope declares have no binding.
-/

namespace ReactiveLint

/-- A declaring identifier and the scope that its name belongs to. -/
structure Declaration where
  identifier : NodeId
  scope : NodeId
  kind : BindingKind
deriving DecidableEq, Repr, Inhabited

namespace Tree

/-- Whether a node opens a scope.  The body of a function shares the scope of the
function. -/
def opensScope (tree : Tree) (id : NodeId) : Bool :=
  match tree.kind id with
  | .program | .catchClause | .forStatement | .forInStatement | .forOfStatement
  | .staticBlock => true
  | .blockStatement => !(tree.parent? id).any tree.isFunction
  | kind => kind.isFunction

/-- The scopes around a node, nearest first. -/
def scopesAround (tree : Tree) (id : NodeId) : List NodeId :=
  (tree.ancestors id).filter tree.opensScope

def enclosingScope? (tree : Tree) (id : NodeId) : Option NodeId :=
  (tree.ancestors id).find? tree.opensScope

/-- The scope of a `var`. -/
def functionScope? (tree : Tree) (id : NodeId) : Option NodeId :=
  (tree.ancestors id).find? fun around => tree.isFunction around || tree.is around .program

/-- The identifiers that a pattern binds, in order.  A pattern is nested at most as
deep as the tree has nodes. -/
def namesWithin (tree : Tree) : Nat → NodeId → List NodeId
  | 0, _ => []
  | fuel + 1, id =>
      let inside := fun field =>
        (tree.child? id field).toList.flatMap (tree.namesWithin fuel)
      match tree.kind id with
      | .identifier => [id]
      | .objectPattern =>
          (tree.list id "properties").ids.flatMap fun property =>
            match tree.kind property with
            | .property =>
                (tree.child? property "value").toList.flatMap (tree.namesWithin fuel)
            | _ => tree.namesWithin fuel property
      | .arrayPattern => (tree.list id "elements").ids.flatMap (tree.namesWithin fuel)
      | .assignmentPattern => inside "left"
      | .restElement => inside "argument"
      | .tsParameterProperty => inside "parameter"
      | _ => []

def patternNames (tree : Tree) (pattern : NodeId) : List NodeId :=
  tree.namesWithin tree.size pattern

/-- The names of all parameters of a function. -/
def parameterNames (tree : Tree) (function : NodeId) : List NodeId :=
  (tree.list function "params").ids.flatMap tree.patternNames

def parameterDeclarations (tree : Tree) (function : NodeId) : List Declaration :=
  (tree.parameterNames function).map (⟨·, function, .parameter⟩)

/-- The declaration of the child of a field in a scope. -/
def fieldDeclaration (tree : Tree) (id : NodeId) (field : String) (scope : Option NodeId)
    (kind : BindingKind) : List Declaration :=
  match tree.child? id field, scope with
  | some identifier, some scope => [⟨identifier, scope, kind⟩]
  | _, _ => []

/-- How a declaration list binds its names. -/
def variableKind (tree : Tree) (id : NodeId) : BindingKind :=
  match tree.str? id "kind" with
  | some "var" => .varName
  | some "let" => .letName
  | _ => .constName

def variableDeclarations (tree : Tree) (id : NodeId) : List Declaration :=
  let kind := tree.variableKind id
  let scope := if kind = .varName then tree.functionScope? id else tree.enclosingScope? id
  match scope with
  | none => []
  | some scope =>
      (tree.list id "declarations").ids.flatMap fun declarator =>
        (tree.child? declarator "id").toList.flatMap fun pattern =>
          (tree.patternNames pattern).map (⟨·, scope, kind⟩)

/-- The identifiers that a node declares by itself. -/
def declarationsAt (tree : Tree) (id : NodeId) : List Declaration :=
  match tree.kind id with
  | .variableDeclaration => tree.variableDeclarations id
  | .functionDeclaration | .tsDeclareFunction =>
      tree.fieldDeclaration id "id" (tree.enclosingScope? id) .functionName ++
        tree.parameterDeclarations id
  | .functionExpression =>
      tree.fieldDeclaration id "id" (some id) .functionName ++ tree.parameterDeclarations id
  | .arrowFunctionExpression => tree.parameterDeclarations id
  | .classDeclaration | .classExpression =>
      tree.fieldDeclaration id "id" (tree.enclosingScope? id) .className
  | .importSpecifier | .importDefaultSpecifier | .importNamespaceSpecifier =>
      tree.fieldDeclaration id "local" (tree.ancestors id).getLast? .importName
  | .catchClause =>
      (tree.child? id "param").toList.flatMap fun param =>
        (tree.patternNames param).map (⟨·, id, .catchParameter⟩)
  | _ => []

/-- All declarations of named identifiers, in arena order of the declaring nodes. -/
def declarations (tree : Tree) : List Declaration :=
  (tree.ids.flatMap tree.declarationsAt).filter fun d => (tree.name? d.identifier).isSome

/-- The module of an import declaration around the parent of an identifier. -/
def moduleOf? (tree : Tree) (identifier : NodeId) : Option String := do
  let specifier ← tree.parent? identifier
  let declaration ← tree.parent? specifier
  if tree.is declaration .importDeclaration then
    let source ← tree.child? declaration "source"
    tree.str? source "value"
  else none

/-- The exported name that an import specifier refers to. -/
def importedName? (tree : Tree) (identifier : NodeId) : Option String := do
  let specifier ← tree.parent? identifier
  match tree.kind specifier with
  | .importSpecifier =>
      let imported ← tree.child? specifier "imported"
      (tree.name? imported).or (tree.str? imported "value")
  | .importDefaultSpecifier => some "default"
  | _ => none

def bindingOf (tree : Tree) (declaration : Declaration) : Binding :=
  { name := (tree.name? declaration.identifier).getD ""
    kind := declaration.kind
    declaration := declaration.identifier
    importSource := tree.moduleOf? declaration.identifier
    imported := tree.importedName? declaration.identifier }

/-- The kinds of nodes in which identifiers name types. -/
def typeContexts : List Kind :=
  [ .tsAnnotatedType, .tsTypeReference, .tsTypeParameterInstantiation
  , .tsTypeParameterDeclaration, .tsQualifiedName, .tsTypeQuery
  , .tsInterfaceDeclaration, .tsTypeAliasDeclaration, .tsTypeLiteral
  , .tsFunctionType, .tsInterfaceHeritage, .tsClassImplements, .tsImportType ]

/-- Whether a field of a parent holds identifiers that are read or written. -/
def isReferenceField (tree : Tree) (parent : NodeId) (field : Option String) : Bool :=
  match tree.kind parent, field with
  | .memberExpression, some "property" => tree.flag parent "computed"
  | .property, some "key" | .propertyDefinition, some "key" | .methodDefinition, some "key"
  | .accessorProperty, some "key" | .tsAbstractMethodDefinition, some "key"
  | .tsAbstractPropertyDefinition, some "key" => tree.flag parent "computed"
  | .exportSpecifier, some "exported" => false
  | .importSpecifier, _ | .importDefaultSpecifier, _ | .importNamespaceSpecifier, _
  | .labeledStatement, _ | .breakStatement, _ | .continueStatement, _
  | .metaProperty, _ => false
  | _, _ => true

/-- Whether an identifier stands where a binding is read or written. -/
def isReference (tree : Tree) (identifier : NodeId) : Bool :=
  match tree.parent? identifier with
  | none => false
  | some parent =>
      tree.isReferenceField parent (tree.fieldName? identifier) &&
        !(tree.ancestors identifier).any fun around => typeContexts.contains (tree.kind around)

end Tree

namespace Scopes

/-- The first declaration of a name in a scope. -/
def declared? (tree : Tree) (declarations : List Declaration) (scope : NodeId) (name : String) :
    Option NodeId :=
  (declarations.find? fun d => d.scope == scope && tree.name? d.identifier == some name).map
    (·.identifier)

/-- The declaration of an identifier's name in the nearest scope that has one. -/
def lookup? (tree : Tree) (declarations : List Declaration) (identifier : NodeId) :
    Option NodeId := do
  let name ← tree.name? identifier
  (tree.scopesAround identifier).findSome? fun scope => declared? tree declarations scope name

/-- The identifiers that refer to declarations, with those, in arena order. -/
def resolvedUses (tree : Tree) (declarations : List Declaration) : List (NodeId × NodeId) :=
  let isDeclared := fun id => declarations.any fun d => d.identifier == id
  tree.ids.filterMap fun id =>
    if tree.is id .identifier && !isDeclared id && tree.isReference id then
      (lookup? tree declarations id).map (id, ·)
    else none

/-- The uses of one declaration in the order of the text. -/
def usesOf (tree : Tree) (resolved : List (NodeId × NodeId)) (declaration : NodeId) :
    List NodeId :=
  StableSort.sort (fun left right => decide (tree.start left ≤ tree.start right))
    ((resolved.filter (·.2 == declaration)).map (·.1))

/-- The tables of a tree.  When a tree declares an identifier more than once, the
last declaration says how it is bound and the first one what a name refers to. -/
def analyze (tree : Tree) : Scopes :=
  let declarations := tree.declarations
  let resolved := resolvedUses tree declarations
  { bindings := (declarations.map fun d => (d.identifier, tree.bindingOf d)).reverse
    resolutions := declarations.map (fun d => (d.identifier, d.identifier)) ++ resolved
    uses := declarations.map fun d => (d.identifier, usesOf tree resolved d.identifier) }

end Scopes

end ReactiveLint
