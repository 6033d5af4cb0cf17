import ReactiveLint.Sketch.Basic

/-!
# Sketches of programs

One constructor for each form of statement, declaration, expression, class member
and type that sketches can draw.
-/

namespace ReactiveLint.Sketch

def ident (name : String) : Sketch :=
  (empty .identifier).text name |>.labelled "name" name

/-- `: T` -/
def annotated (typeNode : Sketch) : Sketch :=
  (empty .tsAnnotatedType).text ": " |>.child "typeAnnotation" typeNode

/-- `<T, U>` -/
def typeInstantiation (params : List Sketch) : Sketch :=
  (empty .tsTypeParameterInstantiation).text "<" |>.list "params" params ", " |>.text ">"

/-- `name: T` -/
def identTyped (name : String) (typeNode : Sketch) : Sketch :=
  (empty .identifier).text name
    |>.child "typeAnnotation" (annotated typeNode)
    |>.labelled "name" name

def this : Sketch := (empty .thisExpression).text "this"

/-! ## Literals -/

/-- A string literal in a chosen quote. -/
def quoted (value : String) (quote : Char) : Sketch :=
  let raw := quote.toString ++ value ++ quote.toString
  (empty .literal).text raw |>.labelled "value" value |>.labelled "raw" raw

def string (value : String) : Sketch := quoted value '"'

def number (value : Number) : Sketch :=
  let raw := value.literalText
  (empty .literal).text raw |>.attr "value" (.number value) |>.labelled "raw" raw

def boolean (value : Bool) : Sketch :=
  let raw := if value then "true" else "false"
  (empty .literal).text raw |>.flagged "value" value |>.labelled "raw" raw

def null : Sketch :=
  (empty .literal).text "null" |>.attr "value" .null |>.labelled "raw" "null"

/-! ## Statements -/

def program (body : List Sketch) : Sketch :=
  (empty .program).list "body" body "\n" |>.labelled "sourceType" "module"

def exprStmt (expression : Sketch) : Sketch :=
  (empty .expressionStatement).child "expression" expression |>.text ";"

/-- `{ a; b; }`, or `{}` when there is nothing inside. -/
def braced (kind : Kind) (field : String) (items : List Sketch) (separator : String) : Sketch :=
  if items.isEmpty then (empty kind).list field items separator |>.text "\x7b\x7d"
  else (empty kind).text "\x7b " |>.list field items separator |>.text " \x7d"

def block (body : List Sketch) : Sketch := braced .blockStatement "body" body " "

def returnStmt : Option Sketch → Sketch
  | some argument =>
      (empty .returnStatement).text "return " |>.child "argument" argument |>.text ";"
  | none => (empty .returnStatement).text "return" |>.childOr "argument" none |>.text ";"

def throwStmt (argument : Sketch) : Sketch :=
  (empty .throwStatement).text "throw " |>.child "argument" argument |>.text ";"

/-- `if (test) consequent` -/
def ifStmt (test consequent : Sketch) : Sketch :=
  (empty .ifStatement).text "if ("
    |>.child "test" test
    |>.text ") "
    |>.child "consequent" consequent
    |>.childOr "alternate" none

def catchClause : Option Sketch → Sketch → Sketch
  | some param, body =>
      (empty .catchClause).text "catch ("
        |>.child "param" param
        |>.text ") "
        |>.child "body" body
  | none, body =>
      (empty .catchClause).text "catch " |>.childOr "param" none |>.child "body" body

/-- `try { … } catch (param) { … }` -/
def tryCatch (body : Sketch) (param : Option Sketch) (handler : Sketch) : Sketch :=
  (empty .tryStatement).text "try "
    |>.child "block" body
    |>.text " "
    |>.child "handler" (catchClause param handler)
    |>.childOr "finalizer" none

def declarator (id : Sketch) : Option Sketch → Sketch
  | some init => (empty .variableDeclarator).child "id" id |>.text " = " |>.child "init" init
  | none => (empty .variableDeclarator).child "id" id |>.childOr "init" none

def declaration (kind : String) (id : Sketch) (init : Option Sketch) : Sketch :=
  (empty .variableDeclaration).text kind
    |>.text " "
    |>.list "declarations" [declarator id init] ", "
    |>.text ";"
    |>.labelled "kind" kind

def constDecl (id init : Sketch) : Sketch := declaration "const" id (some init)

def letDecl (id : Sketch) (init : Option Sketch) : Sketch := declaration "let" id init

/-! ## Modules -/

/-- `import { a, b as c } from "source";`, without braces when no specifier is
named. -/
def importWith (specifiers : List Sketch) (source : Sketch) : Sketch :=
  let opened := (empty .importDeclaration).text "import "
  let listed :=
    if specifiers.any (·.kind == .importSpecifier) then
      opened.text "\x7b " |>.list "specifiers" specifiers ", " |>.text " \x7d"
    else
      opened.list "specifiers" specifiers ", "
  listed.text " from " |>.child "source" source |>.text ";" |>.labelled "importKind" "value"

def importDecl (specifiers : List Sketch) (source : String) : Sketch :=
  importWith specifiers (string source)

/-- `import "source";` -/
def importBare (source : String) : Sketch :=
  (empty .importDeclaration).text "import "
    |>.list "specifiers" [] ", "
    |>.child "source" (string source)
    |>.text ";"
    |>.labelled "importKind" "value"

def importSpec (name : String) : Sketch :=
  (empty .importSpecifier).child "imported" (ident name)
    |>.twin "local" name
    |>.labelled "importKind" "value"

/-- `imported as local` -/
def importSpecAs (imported localName : String) : Sketch :=
  (empty .importSpecifier).child "imported" (ident imported)
    |>.text " as "
    |>.child "local" (ident localName)
    |>.labelled "importKind" "value"

def importDefault (localName : String) : Sketch :=
  (empty .importDefaultSpecifier).child "local" (ident localName)

/-- `* as local` -/
def importNamespace (localName : String) : Sketch :=
  (empty .importNamespaceSpecifier).text "* as " |>.child "local" (ident localName)

/-! ## Expressions -/

/-- `object.name` -/
def member (object : Sketch) (name : String) : Sketch :=
  (empty .memberExpression).child "object" object
    |>.text "."
    |>.child "property" (ident name)
    |>.flagged "computed" false
    |>.flagged "optional" false

/-- `object[property]` -/
def index (object property : Sketch) : Sketch :=
  (empty .memberExpression).child "object" object
    |>.text "["
    |>.child "property" property
    |>.text "]"
    |>.flagged "computed" true
    |>.flagged "optional" false

/-- `(a, b)` after what is called. -/
def applied (callee : Sketch) (arguments : List Sketch) : Sketch :=
  callee.text "(" |>.list "arguments" arguments ", " |>.text ")"

def call (callee : Sketch) (arguments : List Sketch) : Sketch :=
  applied ((empty .callExpression).child "callee" callee) arguments |>.flagged "optional" false

/-- `callee<T, U>(a, b)` -/
def callGeneric (callee : Sketch) (typeArguments arguments : List Sketch) : Sketch :=
  applied
    ((empty .callExpression).child "callee" callee
      |>.child "typeArguments" (typeInstantiation typeArguments))
    arguments
    |>.flagged "optional" false

/-- `object.name(a, b)` -/
def method (object : Sketch) (name : String) (arguments : List Sketch) : Sketch :=
  call (member object name) arguments

/-- `new callee(a, b)` -/
def newExpr (callee : Sketch) (arguments : List Sketch) : Sketch :=
  applied ((empty .newExpression).text "new " |>.child "callee" callee) arguments

/-- `new callee<T>(a, b)` -/
def newGeneric (callee : Sketch) (typeArguments arguments : List Sketch) : Sketch :=
  applied
    ((empty .newExpression).text "new "
      |>.child "callee" callee
      |>.child "typeArguments" (typeInstantiation typeArguments))
    arguments

/-- The marks of a function that is neither asynchronous nor a generator. -/
def plainFunction (sketch : Sketch) : Sketch :=
  sketch.flagged "async" false |>.flagged "generator" false

/-- `(a, b) => body` -/
def arrow (params : List Sketch) (body : Sketch) : Sketch :=
  plainFunction
    ((empty .arrowFunctionExpression).text "("
      |>.list "params" params ", "
      |>.text ") => "
      |>.child "body" body)
    |>.flagged "expression" (body.kind != .blockStatement)

/-- `a => body` -/
def arrowBare (param body : Sketch) : Sketch :=
  plainFunction
    ((empty .arrowFunctionExpression).list "params" [param] ""
      |>.text " => "
      |>.child "body" body)
    |>.flagged "expression" (body.kind != .blockStatement)

/-- `function (a, b) body` -/
def functionExpr (params : List Sketch) (body : Sketch) : Sketch :=
  plainFunction
    ((empty .functionExpression).text "function "
      |>.childOr "id" none
      |>.text "("
      |>.list "params" params ", "
      |>.text ") "
      |>.child "body" body)

/-- `function name(a, b) body` -/
def functionDecl (name : String) (params : List Sketch) (body : Sketch) : Sketch :=
  plainFunction
    ((empty .functionDeclaration).text "function "
      |>.child "id" (ident name)
      |>.text "("
      |>.list "params" params ", "
      |>.text ") "
      |>.child "body" body)

/-- Marks a function as asynchronous. -/
def asyncFn (function : Sketch) : Sketch :=
  (function.flagged "async" true).prepend (.text "async ")

/-- `{ a: b, c }` -/
def object (properties : List Sketch) : Sketch :=
  braced .objectExpression "properties" properties ", "

/-- `key: value` -/
def prop (key : String) (value : Sketch) : Sketch :=
  (empty .property).child "key" (ident key)
    |>.text ": "
    |>.child "value" value
    |>.labelled "kind" "init"
    |>.flagged "computed" false
    |>.flagged "method" false
    |>.flagged "shorthand" false

def propShorthand (name : String) : Sketch :=
  (empty .property).child "key" (ident name)
    |>.twin "value" name
    |>.labelled "kind" "init"
    |>.flagged "computed" false
    |>.flagged "method" false
    |>.flagged "shorthand" true

/-- `[a, b]` -/
def array (elements : List Sketch) : Sketch :=
  (empty .arrayExpression).text "[" |>.list "elements" elements ", " |>.text "]"

def binary (left : Sketch) (operator : String) (right : Sketch) : Sketch :=
  (empty .binaryExpression).child "left" left
    |>.text s!" {operator} "
    |>.child "right" right
    |>.labelled "operator" operator

/-- `left = right` -/
def assign (left right : Sketch) : Sketch :=
  (empty .assignmentExpression).child "left" left
    |>.text " = "
    |>.child "right" right
    |>.labelled "operator" "="

/-- `{ a, b }` as a binding. -/
def objectPattern (names : List String) : Sketch :=
  (empty .objectPattern).text "\x7b "
    |>.list "properties" (names.map propShorthand) ", "
    |>.text " \x7d"

/-- `[a, b]` as a binding. -/
def arrayPattern (names : List String) : Sketch :=
  (empty .arrayPattern).text "[" |>.list "elements" (names.map ident) ", " |>.text "]"

/-! ## Classes -/

def classBody (members : List Sketch) : Sketch := braced .classBody "body" members " "

/-- `class Name extends Base { members }` -/
def classDecl (name : String) (superClass : Option Sketch) (members : List Sketch) : Sketch :=
  let opened := (empty .classDeclaration).text "class " |>.child "id" (ident name)
  let extended := match superClass with
    | some base => opened.text " extends " |>.child "superClass" base
    | none => opened.childOr "superClass" none
  extended.text " " |>.child "body" (classBody members)

/-- A word of accessibility before a member. -/
def accessible (sketch : Sketch) : Option String → Sketch
  | some word => sketch.text word |>.text " " |>.labelled "accessibility" word
  | none => sketch

/-- `private name: T = value;` -/
def propertyDef (accessibility : Option String) (name : String)
    (typeNode value : Option Sketch) : Sketch :=
  let keyed := (accessible (empty .propertyDefinition) accessibility).child "key" (ident name)
  let typedKey := match typeNode with
    | some typeNode => keyed.child "typeAnnotation" (annotated typeNode)
    | none => keyed
  let valued := match value with
    | some value => typedKey.text " = " |>.child "value" value
    | none => typedKey.childOr "value" none
  valued.text ";" |>.flagged "computed" false |>.flagged "static" false

/-- `get name(): T { … }`, `set name(v) { … }` or `name(a): T { … }` -/
def methodDef (kind : String) (accessibility : Option String) (name : String)
    (params : List Sketch) (returnType : Option Sketch) (body : Sketch) : Sketch :=
  let opened := accessible (empty .methodDefinition) accessibility
  let opened := if kind = "get" ∨ kind = "set" then opened.text kind |>.text " " else opened
  let signature :=
    (empty .functionExpression).childOr "id" none
      |>.text "("
      |>.list "params" params ", "
      |>.text ")"
  let signature := match returnType with
    | some type => signature.child "returnType" (annotated type)
    | none => signature
  let function := plainFunction (signature.text " " |>.child "body" body)
  opened.child "key" (ident name)
    |>.child "value" function
    |>.labelled "kind" kind
    |>.flagged "computed" false
    |>.flagged "static" false

def constructor (params : List Sketch) : Sketch :=
  methodDef "constructor" none "constructor" params none (block [])

/-- `private name: T` among the parameters of a constructor. -/
def paramProperty (accessibility : Option String) (parameter : Sketch) : Sketch :=
  let opened := match accessibility with
    | some word => accessible (empty .tsParameterProperty) (some word)
    | none => (empty .tsParameterProperty).text "readonly " |>.flagged "readonly" true
  opened.child "parameter" parameter

/-! ## Types -/

/-- `Name` or `Name<T>` -/
def tsRef (name : String) (typeArguments : List Sketch) : Sketch :=
  let reference := (empty .tsTypeReference).child "typeName" (ident name)
  if typeArguments.isEmpty then reference
  else reference.child "typeArguments" (typeInstantiation typeArguments)

def keywordKind (keyword : String) : Kind :=
  match keyword with
  | "any" => .tsAnyKeyword
  | "unknown" => .tsUnknownKeyword
  | "number" => .tsNumberKeyword
  | "string" => .tsStringKeyword
  | "boolean" => .tsBooleanKeyword
  | "void" => .tsVoidKeyword
  | "never" => .tsNeverKeyword
  | "undefined" => .tsUndefinedKeyword
  | "null" => .tsNullKeyword
  | _ => .tsObjectKeyword

def tsKeyword (keyword : String) : Sketch := (empty (keywordKind keyword)).text keyword

/-- `A | B` -/
def tsUnion (types : List Sketch) : Sketch := (empty .tsUnionType).list "types" types " | "

def tsTypeLiteral : Sketch :=
  (empty .tsTypeLiteral).list "members" [] "; " |>.text "\x7b\x7d"

end ReactiveLint.Sketch
