import ReactiveLint.Engine.Dispatch
import ReactiveLint.Selector.Match

/-!
# Running rules over a tree

A run takes all rules through the events of one walk.  At an event it tests the
selectors of the listeners that the index gives for the kind of the node, in order,
and lets those that match react.  A rule with a fault is off for the rest of the
file; what it has reported stays, and the other rules do not notice.
-/

namespace ReactiveLint

structure ConfiguredRule where
  rule : Rule
  severity : Severity

/-- What a rule has done in a file so far. -/
structure Progress (State : Type) where
  state : State
  diagnostics : List Diagnostic := []
  /-- How often a selector has been tested. -/
  evaluationCount : Nat := 0
  /-- How often a listener has reacted. -/
  matchCount : Nat := 0
  fault : Option RuleFault := none

structure RuleRun where
  configured : ConfiguredRule
  progress : Progress configured.rule.State

/-- A reaction of a listener to an event. -/
structure Invocation extends ListenerId where
  event : Event
deriving DecidableEq, Repr

namespace Progress

variable {State : Type}

/-- Diagnoses reports in order, up to the first fault. -/
def diagnoseAll (file : FileContext) (info : RuleInfo) (severity : Severity) :
    List Report → List Diagnostic × Option RuleFault
  | [] => ([], none)
  | report :: reports =>
      match report.diagnose info severity file.path file.tree.source with
      | .error fault => ([], some fault)
      | .ok diagnostic =>
          let (diagnostics, fault) := diagnoseAll file info severity reports
          (diagnostic :: diagnostics, fault)

/-- Lets a listener react to a node. -/
def react (file : FileContext) (info : RuleInfo) (severity : Severity) (node : NodeId)
    (listener : Listener State) (progress : Progress State) : Progress State :=
  let reaction := listener.react file progress.diagnostics progress.state node
  let (diagnostics, fault) := diagnoseAll file info severity reaction.reports
  { progress with
    state := reaction.state
    diagnostics := progress.diagnostics ++ diagnostics
    matchCount := progress.matchCount + 1
    fault := fault.or reaction.fault }

/-- Tests the selector of a listener on a node and lets the listener react if it matches.
Tells whether it has. -/
def test (file : FileContext) (info : RuleInfo) (severity : Severity) (node : NodeId)
    (listener : Listener State) (progress : Progress State) : Progress State × Bool :=
  let tested := { progress with evaluationCount := progress.evaluationCount + 1 }
  if listener.trigger.selector.isMatch file.tree node then
    (tested.react file info severity node listener, true)
  else (tested, false)

end Progress

namespace RuleRun

def start (configured : ConfiguredRule) : RuleRun :=
  ⟨configured, { state := configured.rule.start }⟩

/-- Tests one listener of a rule on a node. -/
def test (file : FileContext) (node : NodeId) (listener : Nat) (run : RuleRun) :
    RuleRun × Bool :=
  match run.configured.rule.listeners[listener]? with
  | none => (run, false)
  | some listener =>
      let (progress, reacted) :=
        run.progress.test file run.configured.rule.info run.configured.severity node listener
      (⟨run.configured, progress⟩, reacted)

def info (run : RuleRun) : RuleInfo := run.configured.rule.info

def fault? (run : RuleRun) : Option RuleFault := run.progress.fault

end RuleRun

/-- A fault together with the rule that has it. -/
structure FaultyRule where
  rule : String
  fault : RuleFault
deriving DecidableEq, Repr

/-- The fault of a rule, with its name. -/
def RuleRun.faulty? (run : RuleRun) : Option FaultyRule :=
  run.fault?.map fun fault => ⟨run.info.name, fault⟩

/-- The run of several rules over the events of a file. -/
structure FileRun where
  rules : List RuleRun
  dispatch : Dispatch
  /-- Faults in the order in which they came up. -/
  faults : List FaultyRule := []
  /-- All reactions in order. -/
  invocations : List Invocation := []

namespace FileRun

/-- Tests a listener on the node of an event, unless its rule is off. -/
def offer (file : FileContext) (event : Event) (run : FileRun) (id : ListenerId) : FileRun :=
  match run.rules[id.rule]? with
  | none => run
  | some rule =>
      if rule.fault?.isSome then run
      else
        let (after, reacted) := rule.test file event.node id.listener
        { run with
          rules := run.rules.set id.rule after
          faults := run.faults ++ after.faulty?.toList
          invocations := run.invocations ++ if reacted then [{ id with event }] else [] }

/-- Takes the rules through an event. -/
def step (file : FileContext) (run : FileRun) (event : Event) : FileRun :=
  let (found, dispatch) := run.dispatch.candidates (file.tree.kind event.node) event.phase
  found.foldl (offer file event) { run with dispatch }

def start (rules : List ConfiguredRule) : FileRun :=
  { rules := rules.map RuleRun.start
    dispatch := .ofRules (rules.map (·.rule)) }

/-- Takes rules through the walk of a file. -/
def ofRules (file : FileContext) (rules : List ConfiguredRule) : FileRun :=
  file.tree.walk.foldl (step file) (start rules)

end FileRun

end ReactiveLint
