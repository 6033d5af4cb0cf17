import ReactiveLint.Syntax.Query

/-!
# Bindings

What rules may ask about names: which declaration an identifier refers to, and
where a declaration is used.  The answers stand in tables, which come from the
analysis of a tree or from a host that knows better.
-/

namespace ReactiveLint

inductive BindingKind
  | varName
  | letName
  | constName
  | parameter
  | functionName
  | className
  | importName
  | catchParameter
deriving DecidableEq, Repr, Inhabited

def BindingKind.name : BindingKind → String
  | varName => "Var"
  | letName => "Let"
  | constName => "Const"
  | parameter => "Parameter"
  | functionName => "Function"
  | className => "Class"
  | importName => "Import"
  | catchParameter => "CatchParameter"

/-- A declared name. -/
structure Binding where
  name : String
  kind : BindingKind
  /-- The declaring identifier. -/
  declaration : NodeId
  /-- The module that an imported name comes from. -/
  importSource : Option String
  /-- The name under which the module exports an imported name. -/
  imported : Option String
deriving DecidableEq, Repr, Inhabited

/-- The tables of one file. -/
structure Scopes where
  bindings : List (NodeId × Binding) := []
  /-- Declaring identifiers are listed too, with themselves. -/
  resolutions : List (NodeId × NodeId) := []
  /-- Where each declaration is used, the declaration itself excluded. -/
  uses : List (NodeId × List NodeId) := []
deriving Repr, Inhabited

namespace Scopes

/-- The binding that an identifier declares. -/
def binding? (scopes : Scopes) (declaration : NodeId) : Option Binding :=
  scopes.bindings.lookup declaration

/-- The declaring identifier that an identifier refers to. -/
def resolve? (scopes : Scopes) (identifier : NodeId) : Option NodeId :=
  scopes.resolutions.lookup identifier

def references (scopes : Scopes) (declaration : NodeId) : List NodeId :=
  (scopes.uses.lookup declaration).getD []

/-- The module that an identifier was imported from. -/
def importSource? (scopes : Scopes) (identifier : NodeId) : Option String :=
  ((scopes.resolve? identifier).bind scopes.binding?).bind (·.importSource)

end Scopes

end ReactiveLint
