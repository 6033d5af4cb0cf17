import ReactiveLint.Directive.Reader
import ReactiveLint.Engine.Run
import ReactiveLint.Engine.Timing
import ReactiveLint.Scope.Analysis
import ReactiveLint.Settings.Config

/-!
# Linting a file

A linter is a list of rules with severities.  On a file it leaves out the rules that
need types where there are none, and those that a directive turns off for the whole
file; the others run over the tree.  Directives then hide diagnostics on their lines,
and those that remain are put in the order of their places.
-/

namespace ReactiveLint

/-- A file as it is handed over, with what is known about it. -/
structure SourceFile where
  path : String
  tree : Tree
  types : Option TypeTable := none
  /-- Scopes to be used in the place of those found in the tree. -/
  scopes : Option Scopes := none

/-- Why a rule did not run, or not to the end. -/
inductive LintError
  | typesRequired (rule file : String)
  | ruleFailed (rule file message : String)
deriving DecidableEq, Repr

def LintError.message : LintError → String
  | typesRequired rule file =>
      s!"Rule '{rule}' requires type information, which is not available for {file}"
  | ruleFailed rule file message => s!"Rule '{rule}' panicked on {file}: {message}"

namespace SourceFile

def context (file : SourceFile) : FileContext :=
  { path := file.path
    tree := file.tree
    types := ⟨file.types⟩
    scopes := file.scopes.getD (Scopes.analyze file.tree) }

/-- Whether a file has what a rule needs. -/
def suits (file : SourceFile) (rule : Rule) : Bool :=
  !rule.info.needsTypes || file.types.isSome

end SourceFile

/-- What is found in one file. -/
structure FileReport where
  path : String
  /-- In the order of their places. -/
  diagnostics : List Diagnostic := []
  errors : List LintError := []
  /-- The number of diagnostics that directives hide. -/
  suppressed : Nat := 0
  timings : Timings := []
deriving Repr

namespace FileReport

def countOf (report : FileReport) (severity : Severity) : Nat :=
  report.diagnostics.countP (·.severity == severity)

def errorCount (report : FileReport) : Nat := report.countOf .error

def warningCount (report : FileReport) : Nat := report.countOf .warning

end FileReport

/-- Whether directives hide a diagnostic. -/
def Directives.hides (directives : Directives) (diagnostic : Diagnostic) : Bool :=
  directives.isDisabled diagnostic.ruleId diagnostic.location.line

/-- The order of diagnostics in a report. -/
def Diagnostic.notAfter (left right : Diagnostic) : Bool :=
  decide (left.location.span.start ≤ right.location.span.start)

/-- Diagnostics in the order of their places; those of one place keep their order. -/
def Diagnostic.inOrder (diagnostics : List Diagnostic) : List Diagnostic :=
  StableSort.sort notAfter diagnostics

def RuleRun.timing (run : RuleRun) : RuleTiming :=
  { rule := run.info.name
    evaluationCount := run.progress.evaluationCount
    matchCount := run.progress.matchCount }

def FaultyRule.error (faulty : FaultyRule) (path : String) : LintError :=
  .ruleFailed faulty.rule path faulty.fault.message

structure Linter where
  rules : List ConfiguredRule := []

namespace Linter

/-- A rule as settings ask for it, or none when it is off. -/
def configured? (name : String) (setting : RuleSetting) :
    Except ConfigError (Option ConfiguredRule) :=
  match setting.severity name with
  | .error e => .error e
  | .ok none => .ok none
  | .ok (some severity) =>
      match RuleSet.make name setting.options with
      | .ok rule => .ok (some ⟨rule, severity⟩)
      | .error e => .error e

/-- The rules that are on, in the order of the settings, or the first error. -/
def configuredRules : List (String × RuleSetting) → Except ConfigError (List ConfiguredRule)
  | [] => .ok []
  | (name, setting) :: settings =>
      match configured? name setting with
      | .error e => .error e
      | .ok rule =>
          match configuredRules settings with
          | .ok rules => .ok (rule.toList ++ rules)
          | .error e => .error e

def ofConfig (config : Config) : Except ConfigError Linter :=
  match configuredRules config.rules.entries with
  | .ok rules => .ok { rules }
  | .error e => .error e

def addRule (linter : Linter) (rule : Rule) (severity : Severity) : Linter :=
  { linter with rules := linter.rules ++ [⟨rule, severity⟩] }

def ruleNames (linter : Linter) : List String := linter.rules.map (·.rule.name)

/-- The rules that run on a file. -/
def activeRules (linter : Linter) (directives : Directives) (file : SourceFile) :
    List ConfiguredRule :=
  linter.rules.filter fun configured =>
    file.suits configured.rule && !directives.isDisabledForFile configured.rule.name

/-- The rules that lack types on a file. -/
def missingTypes (linter : Linter) (file : SourceFile) : List LintError :=
  (linter.rules.filter fun configured => !file.suits configured.rule).map fun configured =>
    .typesRequired configured.rule.name file.path

/-- Lints a file under given directives. -/
def lintWith (linter : Linter) (directives : Directives) (file : SourceFile) : FileReport :=
  let run := FileRun.ofRules file.context (linter.activeRules directives file)
  let diagnostics := run.rules.flatMap (·.progress.diagnostics)
  { path := file.path
    diagnostics := Diagnostic.inOrder (diagnostics.filter (!directives.hides ·))
    errors := linter.missingTypes file ++ run.faults.map (·.error file.path)
    suppressed := diagnostics.countP directives.hides
    timings := .ofList (run.rules.map (·.timing)) }

/-- Lints a file under the directives of its text. -/
def lintFile (linter : Linter) (file : SourceFile) : FileReport :=
  linter.lintWith (.parse file.tree.source) file

end Linter

end ReactiveLint
