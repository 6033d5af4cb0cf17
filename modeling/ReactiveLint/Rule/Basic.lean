import ReactiveLint.Rule.Report
import ReactiveLint.Scope.Basic
import ReactiveLint.Selector.Parser
import ReactiveLint.Text.Quoted
import ReactiveLint.Types.Json

/-!
# Rules

A rule is a list of listeners with a state of its own.  A listener says by a
selector which nodes it is for, on entering or on leaving them, and how the rule
reacts to such a node: with a new state, reports, and perhaps a fault.  The state
starts anew in every file.
-/

namespace ReactiveLint

/-- Everything that a rule may read about a file. -/
structure FileContext where
  path : String
  tree : Tree
  types : TypeQuery
  scopes : Scopes

/-- What a rule does on a node.  Its reports count also when it ends in a fault. -/
structure Reaction (State : Type) where
  state : State
  reports : List Report := []
  fault : Option RuleFault := none

/-- How a rule reacts to a node, given what it has reported in the file so far. -/
abbrev Handler (State : Type) :=
  FileContext → List Diagnostic → State → NodeId → Reaction State

structure Listener (State : Type) where
  trigger : Trigger
  react : Handler State

structure Rule where
  info : RuleInfo
  State : Type
  start : State
  listeners : List (Listener State)

/-- What a rule without a state reports on a node. -/
abbrev Check := FileContext → NodeId → List Report

/-- A listener for the nodes of a selector. -/
def Listener.on? {State : Type} (selector : String) (react : Handler State) :
    Except SelectorError (Listener State) := do
  return ⟨← Trigger.parse selector, react⟩

/-- The handler of a check. -/
def Check.handler (check : Check) : Handler Unit := fun file _ _ node =>
  { state := (), reports := check file node }

namespace Rule

/-- A rule that reacts to the nodes of its selectors. -/
def ofHandlers? (info : RuleInfo) (State : Type) (start : State)
    (handlers : List (String × Handler State)) : Except SelectorError Rule :=
  match handlers.mapM fun (selector, react) => Listener.on? selector react with
  | .ok listeners => .ok ⟨info, State, start, listeners⟩
  | .error e => .error e

/-- A rule without a state. -/
def ofChecks? (info : RuleInfo) (checks : List (String × Check)) : Except SelectorError Rule :=
  ofHandlers? info Unit () (checks.map fun (selector, check) => (selector, check.handler))

def name (rule : Rule) : String := rule.info.name

/-- The triggers of a rule in the order of its listeners. -/
def triggers (rule : Rule) : List Trigger := rule.listeners.map (·.trigger)

/-- The selectors of a rule as they are written, in quotes. -/
def describe (rule : Rule) : String :=
  "[" ++ ", ".intercalate (rule.triggers.map fun trigger => Text.quoted trigger.source) ++ "]"

end Rule

end ReactiveLint
