import ReactiveLint.Engine.Linter
import ReactiveLint.Proofs.Engine.Diagnosed
import ReactiveLint.Proofs.Engine.Independence
import ReactiveLint.Proofs.Fix.Merged
import ReactiveLint.Proofs.Rule.Report

/-!
# Directives only take diagnostics away

A rule that is off for the whole file does not run, and the diagnostics of the others are
hidden line by line.  Together this is one filter on what linting without directives
reports.
-/

namespace ReactiveLint

variable (directives : Directives) (file : SourceFile)

namespace ConfiguredRule

variable {configured : ConfiguredRule} {context : FileContext} {diagnostic : Diagnostic}

/-- The diagnostics of a rule bear its name. -/
theorem ruleId_of_mem_diagnosticsIn (hmem : diagnostic ∈ configured.diagnosticsIn context) :
    diagnostic.ruleId = configured.rule.name := by
  have hrules : (PlainRun.ofRules context [configured]).rules =
      [RuleRun.alone context configured] := PlainRun.rules_ofRules context [configured]
  have hconfigured := PlainRun.configured_ofRules context [configured]
  rw [hrules, List.map_singleton, List.singleton_inj] at hconfigured
  obtain ⟨report, -, hreport⟩ := PlainRun.exists_report context [configured]
    (RuleRun.alone context configured) (by simp [hrules]) diagnostic hmem
  rw [(Report.diagnose_eq_ok_iff.mp hreport).ruleId_eq, RuleRun.info, hconfigured]
  rfl

end ConfiguredRule

namespace Directives

theorem isDisabled_of_isDisabledForFile {directives : Directives} {rule : String}
    (hfile : directives.isDisabledForFile rule = true) (line : Nat) :
    directives.isDisabled rule line = true := by
  rw [isDisabled, hfile, Bool.true_or, Bool.true_or]

theorem hides_nothing (diagnostic : Diagnostic) : hides {} diagnostic = false := rfl

/-- Whether directives hide a diagnostic of a rule that is on in the file as a whole. -/
def hidesOnLine (directives : Directives) (diagnostic : Diagnostic) : Bool :=
  directives.hides diagnostic && !directives.isDisabledForFile diagnostic.ruleId

end Directives

namespace Linter

variable (linter : Linter)

theorem activeRules_eq_filter :
    linter.activeRules directives file =
      (linter.activeRules {} file).filter fun configured =>
        !directives.isDisabledForFile configured.rule.name := by
  rw [activeRules, activeRules, List.filter_filter]
  refine List.filter_congr fun configured _ => ?_
  exact (Bool.and_comm ..).trans (congrArg _ (Bool.and_true _).symm)

theorem diagnostics_lintWith_empty :
    (linter.lintWith {} file).diagnostics =
      Diagnostic.inOrder ((linter.activeRules {} file).flatMap (·.diagnosticsIn file.context)) := by
  rw [diagnostics_lintWith, ← List.filter_flatMap, List.filter_eq_self.mpr]
  exact fun diagnostic _ => congrArg not (Directives.hides_nothing diagnostic)

/-- Rules that are off for the file would have had all their diagnostics hidden. -/
theorem flatMap_activeRules {B : Type*} (gives : ConfiguredRule → List B)
    (hnothing : ∀ configured, directives.isDisabledForFile configured.rule.name = true →
      gives configured = []) :
    (linter.activeRules directives file).flatMap gives =
      (linter.activeRules {} file).flatMap gives := by
  rw [activeRules_eq_filter]
  induction linter.activeRules {} file with
  | nil => rfl
  | cons configured rules ih =>
      rw [List.filter_cons, List.flatMap_cons, ← ih]
      split
      next => rw [List.flatMap_cons]
      next hoff =>
        rw [hnothing configured (by simpa using hoff), List.nil_append]

theorem diagnostics_lintWith_eq_filter :
    (linter.lintWith directives file).diagnostics =
      (linter.lintWith {} file).diagnostics.filter (!directives.hides ·) := by
  have hoff : ∀ configured : ConfiguredRule, directives.isDisabledForFile configured.rule.name = true →
      (configured.diagnosticsIn file.context).filter (!directives.hides ·) = [] := by
    intro configured hfile
    refine List.filter_eq_nil_iff.mpr fun diagnostic hmem => ?_
    rw [Directives.hides, ConfiguredRule.ruleId_of_mem_diagnosticsIn hmem,
      Directives.isDisabled_of_isDisabledForFile hfile]
    exact Bool.false_ne_true
  rw [diagnostics_lintWith, flatMap_activeRules directives file linter _ hoff,
    ← List.filter_flatMap, diagnostics_lintWith_empty, Diagnostic.inOrder, Diagnostic.inOrder,
    StableSort.filter_sort Diagnostic.notAfter_trans Diagnostic.notAfter_total]

theorem suppressed_lintWith_eq_countP :
    (linter.lintWith directives file).suppressed =
      (linter.lintWith {} file).diagnostics.countP directives.hidesOnLine := by
  have hactive : ∀ diagnostic ∈ (linter.activeRules directives file).flatMap
      (·.diagnosticsIn file.context), directives.hides diagnostic = directives.hidesOnLine diagnostic := by
    intro diagnostic hmem
    obtain ⟨configured, hconfigured, hmem⟩ := List.mem_flatMap.mp hmem
    rw [activeRules_eq_filter, List.mem_filter] at hconfigured
    rw [Directives.hidesOnLine, ConfiguredRule.ruleId_of_mem_diagnosticsIn hmem,
      hconfigured.2, Bool.and_true]
  have hoff : ∀ configured : ConfiguredRule,
      directives.isDisabledForFile configured.rule.name = true →
        (configured.diagnosticsIn file.context).filter directives.hidesOnLine = [] := by
    intro configured hfile
    refine List.filter_eq_nil_iff.mpr fun diagnostic hmem => ?_
    rw [Directives.hidesOnLine, ConfiguredRule.ruleId_of_mem_diagnosticsIn hmem,
      hfile, Bool.not_true, Bool.and_false]
    exact Bool.false_ne_true
  have hperm := StableSort.perm_sort Diagnostic.notAfter
    ((linter.activeRules {} file).flatMap (·.diagnosticsIn file.context))
  calc (linter.lintWith directives file).suppressed
      = ((linter.activeRules directives file).flatMap
          (·.diagnosticsIn file.context)).countP directives.hidesOnLine := by
        rw [lintWith, FileRun.flatMap_diagnostics]
        exact List.countP_congr fun diagnostic hmem => by rw [hactive diagnostic hmem]
    _ = ((linter.activeRules {} file).flatMap
          (·.diagnosticsIn file.context)).countP directives.hidesOnLine := by
        rw [List.countP_eq_length_filter, List.filter_flatMap,
          flatMap_activeRules directives file linter _ hoff, ← List.filter_flatMap,
          ← List.countP_eq_length_filter]
    _ = (linter.lintWith {} file).diagnostics.countP directives.hidesOnLine := by
        rw [diagnostics_lintWith_empty, Diagnostic.inOrder, hperm.countP_eq]

/-- Linting a file reports what it would report without directives, in the same order and
with nothing else changed, except for the diagnostics of rules that are off on the line
where they start.  Of these, the ones whose rule is on in the file as a whole are counted. -/
theorem lintFile_filters (linter : Linter) (file : SourceFile) :
    (linter.lintFile file).diagnostics =
        (linter.lintWith {} file).diagnostics.filter (fun diagnostic =>
          !(Directives.parse file.tree.source).isDisabled diagnostic.ruleId
            diagnostic.location.line) ∧
      (linter.lintFile file).suppressed =
        (linter.lintWith {} file).diagnostics.countP fun diagnostic =>
          (Directives.parse file.tree.source).isDisabled diagnostic.ruleId
              diagnostic.location.line &&
            !(Directives.parse file.tree.source).isDisabledForFile diagnostic.ruleId :=
  ⟨linter.diagnostics_lintWith_eq_filter _ file, linter.suppressed_lintWith_eq_countP _ file⟩

end Linter

end ReactiveLint

/-!
## What linting a file reports

The diagnostics of a file are those that its active rules make in a run, without those
that a directive hides.  All their fixes were accepted for the text of the file.
-/

namespace ReactiveLint.Linter

variable {linter : Linter} {directives : Directives} {file : SourceFile} {diagnostic : Diagnostic}

theorem mem_lintWith_iff :
    diagnostic ∈ (linter.lintWith directives file).diagnostics ↔
      (∃ rule ∈ (PlainRun.ofRules file.context (linter.activeRules directives file)).rules,
        diagnostic ∈ rule.progress.diagnostics) ∧ directives.hides diagnostic = false := by
  rw [← FileRun.plain_ofRules, lintWith, Diagnostic.inOrder,
    (StableSort.perm_sort _ _).mem_iff, List.mem_filter, List.mem_flatMap, FileRun.plain]
  simp [RuleRun.plain]

/-- Every reported diagnostic is the diagnosis of a report. -/
theorem exists_report (hmem : diagnostic ∈ (linter.lintWith directives file).diagnostics) :
    ∃ rule ∈ (PlainRun.ofRules file.context (linter.activeRules directives file)).rules,
      diagnostic ∈ rule.progress.diagnostics ∧
        ∃ report, rule.configured.rule.MayReport file.context report ∧
          report.diagnose rule.info rule.configured.severity file.path
            file.tree.source = .ok diagnostic := by
  obtain ⟨⟨rule, hrule, hmem⟩, -⟩ := mem_lintWith_iff.mp hmem
  exact ⟨rule, hrule, hmem, PlainRun.exists_report _ _ rule hrule diagnostic hmem⟩

theorem fixesAccepted_lintWith :
    FixesAccepted file.tree.source (linter.lintWith directives file).diagnostics := by
  intro diagnostic hmem fix hfix
  obtain ⟨rule, -, -, report, -, hreport⟩ := exists_report hmem
  obtain ⟨edits, -, hmakes⟩ := (Report.diagnose_eq_ok_iff.mp hreport).exists_makes hfix
  exact ⟨edits, hmakes⟩

theorem isActive_of_mem {configured : ConfiguredRule}
    (hmem : configured ∈ linter.activeRules directives file) : configured ∈ linter.rules :=
  (List.mem_filter.mp hmem).1

end ReactiveLint.Linter
