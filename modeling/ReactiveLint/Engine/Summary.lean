import ReactiveLint.Engine.Linter

/-!
# Summaries

A summary adds up what is found in several files.  Every file has a summary of its
own, and the summary of more files merges theirs in order.
-/

namespace ReactiveLint

structure LintSummary where
  diagnostics : List Diagnostic := []
  errors : List LintError := []
  files : Nat := 0
  /-- The number of files with a diagnostic that is an error. -/
  filesWithErrors : Nat := 0
  filesWithWarnings : Nat := 0
  errorCount : Nat := 0
  warningCount : Nat := 0
  infoCount : Nat := 0
  suppressed : Nat := 0
  timings : Timings := []
deriving Repr, Inhabited

namespace LintSummary

def ofFile (report : FileReport) : LintSummary :=
  { diagnostics := report.diagnostics
    errors := report.errors
    files := 1
    filesWithErrors := if 0 < report.countOf .error then 1 else 0
    filesWithWarnings := if 0 < report.countOf .warning then 1 else 0
    errorCount := report.countOf .error
    warningCount := report.countOf .warning
    infoCount := report.countOf .info
    suppressed := report.suppressed
    timings := report.timings }

def merge (summary other : LintSummary) : LintSummary :=
  { diagnostics := summary.diagnostics ++ other.diagnostics
    errors := summary.errors ++ other.errors
    files := summary.files + other.files
    filesWithErrors := summary.filesWithErrors + other.filesWithErrors
    filesWithWarnings := summary.filesWithWarnings + other.filesWithWarnings
    errorCount := summary.errorCount + other.errorCount
    warningCount := summary.warningCount + other.warningCount
    infoCount := summary.infoCount + other.infoCount
    suppressed := summary.suppressed + other.suppressed
    timings := summary.timings.merge other.timings }

def hasErrors (summary : LintSummary) : Bool := decide (0 < summary.errorCount)

def hasWarnings (summary : LintSummary) : Bool := decide (0 < summary.warningCount)

/-- Without errors and warnings; infos do not count. -/
def isClean (summary : LintSummary) : Bool :=
  summary.errorCount == 0 && summary.warningCount == 0

/-- Two for errors and for rules that did not run to the end, one for warnings. -/
def exitCode (summary : LintSummary) : Nat :=
  if 0 < summary.errorCount ∨ summary.errors ≠ [] then 2
  else if 0 < summary.warningCount then 1
  else 0

end LintSummary

/-- Lints files one after the other. -/
def Linter.lint (linter : Linter) (files : List SourceFile) : LintSummary :=
  files.foldl (fun summary file => summary.merge (.ofFile (linter.lintFile file))) {}

end ReactiveLint
