import ReactiveLint.Report.Diagnostic
import ReactiveLint.Rule.Info
import ReactiveLint.Syntax.Query
import ReactiveLint.Text.Template

/-!
# Reports of rules

A rule reports a message id, a span, the data of the message, and edits.  A report
becomes a diagnostic as a whole or not at all: an id that the rule does not have,
or edits that make no fix, are faults of the rule.
-/

namespace ReactiveLint

/-- Why a rule is turned off for the rest of a file. -/
inductive RuleFault
  | unknownMessage (rule messageId : String)
  | invalidFix (rule : String) (error : FixError)
  /-- The rule was led to a node that the tree does not have. -/
  | foreignNode
  /-- The rule gave up with a message of its own. -/
  | stopped (message : String)
deriving DecidableEq, Repr

def RuleFault.message : RuleFault → String
  | unknownMessage rule messageId => s!"{rule}: no message with id '{messageId}'"
  | invalidFix rule error => s!"{rule}: invalid fix: {error.message}"
  | foreignNode => "assertion failed: id.index() < self.nodes.len()"
  | stopped message => message

structure Report where
  messageId : String
  span : Span
  data : List (String × String) := []
  fix : Option (List Edit) := none
  /-- Further fixes, each under a message id of its own. -/
  suggestions : List (String × List Edit) := []
deriving DecidableEq, Repr, Inhabited

namespace Tree

def report (tree : Tree) (messageId : String) (id : NodeId) : Report :=
  { messageId, span := tree.span id }

/-- Puts a text in the place of a node. -/
def replaceNode (tree : Tree) (id : NodeId) (text : String) : Edit := ⟨tree.span id, text⟩

def insertBefore (tree : Tree) (id : NodeId) (text : String) : Edit :=
  ⟨.point (tree.span id).start, text⟩

def insertAfter (tree : Tree) (id : NodeId) (text : String) : Edit :=
  ⟨.point (tree.span id).stop, text⟩

end Tree

namespace Report

def withEntry (report : Report) (key value : String) : Report :=
  { report with data := report.data ++ [(key, value)] }

def fixedBy (report : Report) (edits : List Edit) : Report := { report with fix := some edits }

def suggesting (report : Report) (messageId : String) (edits : List Edit) : Report :=
  { report with suggestions := report.suggestions ++ [(messageId, edits)] }

/-- A message with its data. -/
def render (info : RuleInfo) (messageId : String) (data : List (String × String)) :
    Except RuleFault String :=
  match info.message? messageId with
  | some template => .ok (fillTemplate template data)
  | none => .error (.unknownMessage info.name messageId)

def buildFix (info : RuleInfo) (source : String) (edits : List Edit) : Except RuleFault Fix :=
  match Fix.ofEdits? edits (Text.byteLength source.toList) with
  | .ok fix => .ok fix
  | .error e => .error (.invalidFix info.name e)

def buildFix? (info : RuleInfo) (source : String) :
    Option (List Edit) → Except RuleFault (Option Fix)
  | none => .ok none
  | some edits => do return some (← buildFix info source edits)

def buildSuggestion (info : RuleInfo) (source : String) (data : List (String × String))
    (messageId : String) (edits : List Edit) : Except RuleFault Suggestion := do
  let fix ← buildFix info source edits
  let message ← render info messageId data
  return { messageId, message, fix }

/-- The diagnostic of a report on a file. -/
def diagnose (report : Report) (info : RuleInfo) (severity : Severity) (path source : String) :
    Except RuleFault Diagnostic := do
  let message ← render info report.messageId report.data
  let location := Location.of path source report.span
  let fix ← buildFix? info source report.fix
  let suggestions ← report.suggestions.mapM fun (messageId, edits) =>
    buildSuggestion info source report.data messageId edits
  return {
    ruleId := info.name
    messageId := report.messageId
    severity, message, location, fix, suggestions
    data := Diagnostic.orderedData report.data
    sourceLine := Text.lineText? source location.line }

end Report

end ReactiveLint
