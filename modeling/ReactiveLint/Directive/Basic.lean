import ReactiveLint.Text.Blank

/-!
# Disable comments

A directive switches rules off for the line after its comment, for the line of its
comment, or for the whole file.  It names rules, or none to mean every rule, and
may end with a reason.  `Directives` collects them with look-up tables, which the
engine asks for every diagnostic.
-/

namespace ReactiveLint

inductive DirectiveScope
  | nextLine
  | line
  | file
deriving DecidableEq, Repr, Inhabited

def DirectiveScope.name : DirectiveScope → String
  | nextLine => "NextLine"
  | line => "Line"
  | file => "File"

structure Directive where
  scope : DirectiveScope
  /-- The line on which the comment starts. -/
  line : Nat
  /-- No names mean every rule. -/
  rules : List String
  reason : Option String
deriving DecidableEq, Repr, Inhabited

/-- The name that stands for every rule. -/
def allRules : String := "all"

namespace Directive

/-- Whether a directive applies to a line. -/
def covers (directive : Directive) (line : Nat) : Bool :=
  match directive.scope with
  | .file => true
  | .line => directive.line == line
  | .nextLine => directive.line + 1 == line

/-- Whether a directive applies to a rule. -/
def names (directive : Directive) (rule : String) : Bool :=
  directive.rules.isEmpty || directive.rules.any fun name => name == rule || name == allRules

/-- The names under which a directive is filed. -/
def filedNames (directive : Directive) : List String :=
  if directive.rules.isEmpty then [allRules] else directive.rules

end Directive

/-- The directives of a file in the order of the text, with the names that are off
in the whole file and those that are off on single lines. -/
structure Directives where
  list : List Directive := []
  fileNames : List String := []
  lineNames : List (Nat × String) := []
deriving Repr, Inhabited

namespace Directives

def add (directives : Directives) (directive : Directive) : Directives :=
  let list := directives.list ++ [directive]
  let names := directive.filedNames
  match directive.scope with
  | .file => { directives with list, fileNames := directives.fileNames ++ names }
  | .line =>
      { directives with
        list, lineNames := directives.lineNames ++ names.map (directive.line, ·) }
  | .nextLine =>
      { directives with
        list, lineNames := directives.lineNames ++ names.map (directive.line + 1, ·) }

def ofList (list : List Directive) : Directives := list.foldl add {}

def isDisabledForFile (directives : Directives) (rule : String) : Bool :=
  directives.fileNames.contains allRules || directives.fileNames.contains rule

def isDisabled (directives : Directives) (rule : String) (line : Nat) : Bool :=
  directives.isDisabledForFile rule ||
    directives.lineNames.contains (line, allRules) || directives.lineNames.contains (line, rule)

/-- The reason of the first directive that gives one for a rule on a line. -/
def reason? (directives : Directives) (rule : String) (line : Nat) : Option String :=
  (directives.list.filter fun d => d.covers line && d.names rule).findSome? (·.reason)

def isEmpty (directives : Directives) : Bool := directives.list.isEmpty

end Directives

end ReactiveLint
