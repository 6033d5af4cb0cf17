/-!
# Kinds of syntax nodes

The closed set of node kinds of a JavaScript or TypeScript program.  Every kind
has one name, which selectors and trees from outside both use.
-/

namespace ReactiveLint

inductive Kind
  -- Program structure
  | program
  | expressionStatement
  | blockStatement
  | staticBlock
  | emptyStatement
  | debuggerStatement
  | returnStatement
  | breakStatement
  | continueStatement
  | labeledStatement
  | ifStatement
  | switchStatement
  | switchCase
  | throwStatement
  | tryStatement
  | catchClause
  | whileStatement
  | doWhileStatement
  | forStatement
  | forInStatement
  | forOfStatement
  | variableDeclaration
  | variableDeclarator
  -- Modules
  | importDeclaration
  | importSpecifier
  | importDefaultSpecifier
  | importNamespaceSpecifier
  | importAttribute
  | importExpression
  | exportNamedDeclaration
  | exportSpecifier
  | exportDefaultDeclaration
  | exportAllDeclaration
  -- Functions and classes
  | functionDeclaration
  | functionExpression
  | arrowFunctionExpression
  | classDeclaration
  | classExpression
  | classBody
  | methodDefinition
  | propertyDefinition
  | accessorProperty
  | decorator
  -- Expressions
  | identifier
  | privateIdentifier
  | literal
  | templateLiteral
  | templateElement
  | taggedTemplateExpression
  | thisExpression
  | super
  | arrayExpression
  | objectExpression
  | property
  | spreadElement
  | unaryExpression
  | updateExpression
  | binaryExpression
  | logicalExpression
  | assignmentExpression
  | memberExpression
  | chainExpression
  | callExpression
  | newExpression
  | conditionalExpression
  | sequenceExpression
  | awaitExpression
  | yieldExpression
  | metaProperty
  -- Patterns
  | restElement
  | assignmentPattern
  | arrayPattern
  | objectPattern
  -- TypeScript
  | tsAbstractMethodDefinition
  | tsAbstractPropertyDefinition
  | tsAnyKeyword
  | tsArrayType
  | tsAsExpression
  | tsBigIntKeyword
  | tsBooleanKeyword
  | tsCallSignatureDeclaration
  | tsClassImplements
  | tsConditionalType
  | tsConstructSignatureDeclaration
  | tsConstructorType
  | tsDeclareFunction
  | tsEmptyBodyFunctionExpression
  | tsEnumDeclaration
  | tsEnumMember
  | tsExportAssignment
  | tsExternalModuleReference
  | tsFunctionType
  | tsImportEqualsDeclaration
  | tsImportType
  | tsIndexSignature
  | tsIndexedAccessType
  | tsInferType
  | tsInterfaceBody
  | tsInterfaceDeclaration
  | tsInterfaceHeritage
  | tsIntersectionType
  | tsLiteralType
  | tsMappedType
  | tsMethodSignature
  | tsModuleBlock
  | tsModuleDeclaration
  | tsNamedTupleMember
  | tsNeverKeyword
  | tsNonNullExpression
  | tsNullKeyword
  | tsNumberKeyword
  | tsObjectKeyword
  | tsOptionalType
  | tsParameterProperty
  | tsPropertySignature
  | tsQualifiedName
  | tsRestType
  | tsSatisfiesExpression
  | tsStringKeyword
  | tsSymbolKeyword
  | tsTemplateLiteralType
  | tsThisType
  | tsTupleType
  | tsTypeAliasDeclaration
  | tsAnnotatedType
  | tsTypeAssertion
  | tsTypeLiteral
  | tsTypeOperator
  | tsTypeParameter
  | tsTypeParameterDeclaration
  | tsTypeParameterInstantiation
  | tsTypePredicate
  | tsTypeQuery
  | tsTypeReference
  | tsUndefinedKeyword
  | tsUnionType
  | tsUnknownKeyword
  | tsVoidKeyword
deriving DecidableEq, Repr, Inhabited

namespace Kind

def name : Kind → String
  | .program => "Program"
  | .expressionStatement => "ExpressionStatement"
  | .blockStatement => "BlockStatement"
  | .staticBlock => "StaticBlock"
  | .emptyStatement => "EmptyStatement"
  | .debuggerStatement => "DebuggerStatement"
  | .returnStatement => "ReturnStatement"
  | .breakStatement => "BreakStatement"
  | .continueStatement => "ContinueStatement"
  | .labeledStatement => "LabeledStatement"
  | .ifStatement => "IfStatement"
  | .switchStatement => "SwitchStatement"
  | .switchCase => "SwitchCase"
  | .throwStatement => "ThrowStatement"
  | .tryStatement => "TryStatement"
  | .catchClause => "CatchClause"
  | .whileStatement => "WhileStatement"
  | .doWhileStatement => "DoWhileStatement"
  | .forStatement => "ForStatement"
  | .forInStatement => "ForInStatement"
  | .forOfStatement => "ForOfStatement"
  | .variableDeclaration => "VariableDeclaration"
  | .variableDeclarator => "VariableDeclarator"
  | .importDeclaration => "ImportDeclaration"
  | .importSpecifier => "ImportSpecifier"
  | .importDefaultSpecifier => "ImportDefaultSpecifier"
  | .importNamespaceSpecifier => "ImportNamespaceSpecifier"
  | .importAttribute => "ImportAttribute"
  | .importExpression => "ImportExpression"
  | .exportNamedDeclaration => "ExportNamedDeclaration"
  | .exportSpecifier => "ExportSpecifier"
  | .exportDefaultDeclaration => "ExportDefaultDeclaration"
  | .exportAllDeclaration => "ExportAllDeclaration"
  | .functionDeclaration => "FunctionDeclaration"
  | .functionExpression => "FunctionExpression"
  | .arrowFunctionExpression => "ArrowFunctionExpression"
  | .classDeclaration => "ClassDeclaration"
  | .classExpression => "ClassExpression"
  | .classBody => "ClassBody"
  | .methodDefinition => "MethodDefinition"
  | .propertyDefinition => "PropertyDefinition"
  | .accessorProperty => "AccessorProperty"
  | .decorator => "Decorator"
  | .identifier => "Identifier"
  | .privateIdentifier => "PrivateIdentifier"
  | .literal => "Literal"
  | .templateLiteral => "TemplateLiteral"
  | .templateElement => "TemplateElement"
  | .taggedTemplateExpression => "TaggedTemplateExpression"
  | .thisExpression => "ThisExpression"
  | .super => "Super"
  | .arrayExpression => "ArrayExpression"
  | .objectExpression => "ObjectExpression"
  | .property => "Property"
  | .spreadElement => "SpreadElement"
  | .unaryExpression => "UnaryExpression"
  | .updateExpression => "UpdateExpression"
  | .binaryExpression => "BinaryExpression"
  | .logicalExpression => "LogicalExpression"
  | .assignmentExpression => "AssignmentExpression"
  | .memberExpression => "MemberExpression"
  | .chainExpression => "ChainExpression"
  | .callExpression => "CallExpression"
  | .newExpression => "NewExpression"
  | .conditionalExpression => "ConditionalExpression"
  | .sequenceExpression => "SequenceExpression"
  | .awaitExpression => "AwaitExpression"
  | .yieldExpression => "YieldExpression"
  | .metaProperty => "MetaProperty"
  | .restElement => "RestElement"
  | .assignmentPattern => "AssignmentPattern"
  | .arrayPattern => "ArrayPattern"
  | .objectPattern => "ObjectPattern"
  | .tsAbstractMethodDefinition => "TSAbstractMethodDefinition"
  | .tsAbstractPropertyDefinition => "TSAbstractPropertyDefinition"
  | .tsAnyKeyword => "TSAnyKeyword"
  | .tsArrayType => "TSArrayType"
  | .tsAsExpression => "TSAsExpression"
  | .tsBigIntKeyword => "TSBigIntKeyword"
  | .tsBooleanKeyword => "TSBooleanKeyword"
  | .tsCallSignatureDeclaration => "TSCallSignatureDeclaration"
  | .tsClassImplements => "TSClassImplements"
  | .tsConditionalType => "TSConditionalType"
  | .tsConstructSignatureDeclaration => "TSConstructSignatureDeclaration"
  | .tsConstructorType => "TSConstructorType"
  | .tsDeclareFunction => "TSDeclareFunction"
  | .tsEmptyBodyFunctionExpression => "TSEmptyBodyFunctionExpression"
  | .tsEnumDeclaration => "TSEnumDeclaration"
  | .tsEnumMember => "TSEnumMember"
  | .tsExportAssignment => "TSExportAssignment"
  | .tsExternalModuleReference => "TSExternalModuleReference"
  | .tsFunctionType => "TSFunctionType"
  | .tsImportEqualsDeclaration => "TSImportEqualsDeclaration"
  | .tsImportType => "TSImportType"
  | .tsIndexSignature => "TSIndexSignature"
  | .tsIndexedAccessType => "TSIndexedAccessType"
  | .tsInferType => "TSInferType"
  | .tsInterfaceBody => "TSInterfaceBody"
  | .tsInterfaceDeclaration => "TSInterfaceDeclaration"
  | .tsInterfaceHeritage => "TSInterfaceHeritage"
  | .tsIntersectionType => "TSIntersectionType"
  | .tsLiteralType => "TSLiteralType"
  | .tsMappedType => "TSMappedType"
  | .tsMethodSignature => "TSMethodSignature"
  | .tsModuleBlock => "TSModuleBlock"
  | .tsModuleDeclaration => "TSModuleDeclaration"
  | .tsNamedTupleMember => "TSNamedTupleMember"
  | .tsNeverKeyword => "TSNeverKeyword"
  | .tsNonNullExpression => "TSNonNullExpression"
  | .tsNullKeyword => "TSNullKeyword"
  | .tsNumberKeyword => "TSNumberKeyword"
  | .tsObjectKeyword => "TSObjectKeyword"
  | .tsOptionalType => "TSOptionalType"
  | .tsParameterProperty => "TSParameterProperty"
  | .tsPropertySignature => "TSPropertySignature"
  | .tsQualifiedName => "TSQualifiedName"
  | .tsRestType => "TSRestType"
  | .tsSatisfiesExpression => "TSSatisfiesExpression"
  | .tsStringKeyword => "TSStringKeyword"
  | .tsSymbolKeyword => "TSSymbolKeyword"
  | .tsTemplateLiteralType => "TSTemplateLiteralType"
  | .tsThisType => "TSThisType"
  | .tsTupleType => "TSTupleType"
  | .tsTypeAliasDeclaration => "TSTypeAliasDeclaration"
  | .tsAnnotatedType => "TSTypeAnnotation"
  | .tsTypeAssertion => "TSTypeAssertion"
  | .tsTypeLiteral => "TSTypeLiteral"
  | .tsTypeOperator => "TSTypeOperator"
  | .tsTypeParameter => "TSTypeParameter"
  | .tsTypeParameterDeclaration => "TSTypeParameterDeclaration"
  | .tsTypeParameterInstantiation => "TSTypeParameterInstantiation"
  | .tsTypePredicate => "TSTypePredicate"
  | .tsTypeQuery => "TSTypeQuery"
  | .tsTypeReference => "TSTypeReference"
  | .tsUndefinedKeyword => "TSUndefinedKeyword"
  | .tsUnionType => "TSUnionType"
  | .tsUnknownKeyword => "TSUnknownKeyword"
  | .tsVoidKeyword => "TSVoidKeyword"

/-- Every kind, in the order of its declaration. -/
def all : List Kind :=
  [ .program, .expressionStatement, .blockStatement, .staticBlock, .emptyStatement
  , .debuggerStatement, .returnStatement, .breakStatement, .continueStatement
  , .labeledStatement, .ifStatement, .switchStatement, .switchCase, .throwStatement
  , .tryStatement, .catchClause, .whileStatement, .doWhileStatement, .forStatement
  , .forInStatement, .forOfStatement, .variableDeclaration, .variableDeclarator
  , .importDeclaration, .importSpecifier, .importDefaultSpecifier, .importNamespaceSpecifier
  , .importAttribute, .importExpression, .exportNamedDeclaration, .exportSpecifier
  , .exportDefaultDeclaration, .exportAllDeclaration, .functionDeclaration
  , .functionExpression, .arrowFunctionExpression, .classDeclaration, .classExpression
  , .classBody, .methodDefinition, .propertyDefinition, .accessorProperty, .decorator
  , .identifier, .privateIdentifier, .literal, .templateLiteral, .templateElement
  , .taggedTemplateExpression, .thisExpression, .super, .arrayExpression, .objectExpression
  , .property, .spreadElement, .unaryExpression, .updateExpression, .binaryExpression
  , .logicalExpression, .assignmentExpression, .memberExpression, .chainExpression
  , .callExpression, .newExpression, .conditionalExpression, .sequenceExpression
  , .awaitExpression, .yieldExpression, .metaProperty, .restElement, .assignmentPattern
  , .arrayPattern, .objectPattern, .tsAbstractMethodDefinition
  , .tsAbstractPropertyDefinition, .tsAnyKeyword, .tsArrayType, .tsAsExpression
  , .tsBigIntKeyword, .tsBooleanKeyword, .tsCallSignatureDeclaration, .tsClassImplements
  , .tsConditionalType, .tsConstructSignatureDeclaration, .tsConstructorType
  , .tsDeclareFunction, .tsEmptyBodyFunctionExpression, .tsEnumDeclaration, .tsEnumMember
  , .tsExportAssignment, .tsExternalModuleReference, .tsFunctionType
  , .tsImportEqualsDeclaration, .tsImportType, .tsIndexSignature, .tsIndexedAccessType
  , .tsInferType, .tsInterfaceBody, .tsInterfaceDeclaration, .tsInterfaceHeritage
  , .tsIntersectionType, .tsLiteralType, .tsMappedType, .tsMethodSignature, .tsModuleBlock
  , .tsModuleDeclaration, .tsNamedTupleMember, .tsNeverKeyword, .tsNonNullExpression
  , .tsNullKeyword, .tsNumberKeyword, .tsObjectKeyword, .tsOptionalType
  , .tsParameterProperty, .tsPropertySignature, .tsQualifiedName, .tsRestType
  , .tsSatisfiesExpression, .tsStringKeyword, .tsSymbolKeyword, .tsTemplateLiteralType
  , .tsThisType, .tsTupleType, .tsTypeAliasDeclaration, .tsAnnotatedType, .tsTypeAssertion
  , .tsTypeLiteral, .tsTypeOperator, .tsTypeParameter, .tsTypeParameterDeclaration
  , .tsTypeParameterInstantiation, .tsTypePredicate, .tsTypeQuery, .tsTypeReference
  , .tsUndefinedKeyword, .tsUnionType, .tsUnknownKeyword, .tsVoidKeyword ]

def ofName? (name : String) : Option Kind := all.find? (·.name == name)

/-- What is said of a word that names no kind. -/
def unknownMessage (word : String) : String := s!"Unknown node kind: {word}"

/-- Functions that own parameters and a body. -/
def isFunction : Kind → Bool
  | .functionDeclaration | .functionExpression | .arrowFunctionExpression => true
  | _ => false

/-- Nodes whose `body` is a list of statements. -/
def isStatementList : Kind → Bool
  | .program | .blockStatement | .staticBlock => true
  | _ => false

theorem mem_all (kind : Kind) : kind ∈ all := by
  cases kind <;> decide

end Kind

end ReactiveLint
