import Mathlib.Algebra.Ring.Nat
import ReactiveLint.Engine.Linter
import ReactiveLint.Proofs.Engine.Alone
import ReactiveLint.Proofs.Order.StableSort

/-!
# Rules do not influence each other

What linting a file reports is put together from what each rule does alone.  A linter of
several rules therefore reports what linters of one rule each report, put in order.
-/

namespace ReactiveLint

/-- The diagnostics that a rule makes in a file by itself. -/
def ConfiguredRule.diagnosticsIn (configured : ConfiguredRule) (file : FileContext) :
    List Diagnostic :=
  (RuleRun.alone file configured).progress.diagnostics

/-- The fault with which a rule ends in a file by itself. -/
def ConfiguredRule.faultyIn? (configured : ConfiguredRule) (file : FileContext) :
    Option FaultyRule :=
  (RuleRun.alone file configured).faulty?

namespace FileRun

theorem plain_rules (file : FileContext) (rules : List ConfiguredRule) :
    (ofRules file rules).rules.map RuleRun.plain = rules.map (RuleRun.alone file) := by
  rw [← PlainRun.rules_ofRules, ← plain_ofRules]
  rfl

theorem flatMap_diagnostics (file : FileContext) (rules : List ConfiguredRule) :
    (ofRules file rules).rules.flatMap (·.progress.diagnostics) =
      rules.flatMap (·.diagnosticsIn file) := by
  have hplain := congrArg (List.flatMap (·.progress.diagnostics)) (plain_rules file rules)
  rwa [List.flatMap_map, List.flatMap_map] at hplain

theorem perm_faults (file : FileContext) (rules : List ConfiguredRule) :
    (ofRules file rules).faults.Perm (rules.flatMap fun rule => (rule.faultyIn? file).toList) := by
  have hfaults := PlainRun.perm_faults file rules
  rw [PlainRun.rules_ofRules, List.flatMap_map, ← plain_ofRules] at hfaults
  exact hfaults

end FileRun

namespace Linter

variable (linter : Linter) (directives : Directives) (file : SourceFile)

theorem diagnostics_lintWith :
    (linter.lintWith directives file).diagnostics =
      Diagnostic.inOrder ((linter.activeRules directives file).flatMap fun rule =>
        (rule.diagnosticsIn file.context).filter (!directives.hides ·)) := by
  rw [lintWith, FileRun.flatMap_diagnostics, List.filter_flatMap]

theorem suppressed_lintWith :
    (linter.lintWith directives file).suppressed =
      ((linter.activeRules directives file).map fun rule =>
        (rule.diagnosticsIn file.context).countP directives.hides).sum := by
  rw [lintWith, FileRun.flatMap_diagnostics, List.countP_flatMap]
  rfl

theorem perm_errors_lintWith :
    (linter.lintWith directives file).errors.Perm
      (linter.missingTypes file ++ (linter.activeRules directives file).flatMap fun rule =>
        (rule.faultyIn? file.context).toList.map (·.error file.path)) := by
  rw [lintWith, ← List.map_flatMap]
  exact ((FileRun.perm_faults file.context _).map _).append_left _

/-! ## Linters of one rule -/

/-- The linter of one of its rules. -/
def only (configured : ConfiguredRule) : Linter := ⟨[configured]⟩

theorem activeRules_eq_flatMap :
    linter.activeRules directives file =
      linter.rules.flatMap fun rule => (only rule).activeRules directives file := by
  induction hrules : linter.rules generalizing linter with
  | nil => simp [activeRules, hrules]
  | cons rule rules ih =>
      have hrest := ih ⟨rules⟩ rfl
      rw [List.flatMap_cons, ← hrest, activeRules, hrules, ← List.singleton_append,
        List.filter_append]
      rfl

theorem missingTypes_eq_flatMap :
    linter.missingTypes file = linter.rules.flatMap fun rule => (only rule).missingTypes file := by
  induction hrules : linter.rules generalizing linter with
  | nil => simp [missingTypes, hrules]
  | cons rule rules ih =>
      have hrest := ih ⟨rules⟩ rfl
      rw [List.flatMap_cons, ← hrest, missingTypes, hrules, ← List.singleton_append,
        List.filter_append, List.map_append]
      rfl

end Linter

theorem Diagnostic.notAfter_trans (first second third : Diagnostic)
    (hfirst : first.notAfter second = true) (hsecond : second.notAfter third = true) :
    first.notAfter third = true := by
  simp only [notAfter, decide_eq_true_eq] at hfirst hsecond ⊢
  exact Nat.le_trans hfirst hsecond

theorem Diagnostic.notAfter_total (left right : Diagnostic) :
    (left.notAfter right || right.notAfter left) = true := by
  simp only [notAfter, Bool.or_eq_true, decide_eq_true_eq]
  exact Nat.le_total _ _

/-- Diagnostics in order stand in the order of where they start. -/
theorem Diagnostic.pairwise_inOrder (diagnostics : List Diagnostic) :
    (inOrder diagnostics).Pairwise fun left right =>
      left.location.span.start ≤ right.location.span.start :=
  (StableSort.pairwise_sort notAfter_trans notAfter_total diagnostics).imp fun hbefore =>
    of_decide_eq_true hbefore

namespace Linter

variable (linter : Linter) (directives : Directives) (file : SourceFile)

theorem diagnostics_eq_inOrder_flatMap :
    (linter.lintWith directives file).diagnostics =
      Diagnostic.inOrder (linter.rules.flatMap fun rule =>
        ((only rule).lintWith directives file).diagnostics) := by
  simp only [diagnostics_lintWith, Diagnostic.inOrder]
  rw [StableSort.sort_flatMap_sort Diagnostic.notAfter_trans Diagnostic.notAfter_total,
    linter.activeRules_eq_flatMap, List.flatMap_assoc]

theorem suppressed_eq_sum :
    (linter.lintWith directives file).suppressed =
      (linter.rules.map fun rule => ((only rule).lintWith directives file).suppressed).sum := by
  simp only [suppressed_lintWith]
  rw [linter.activeRules_eq_flatMap, List.map_flatMap, List.flatMap, List.sum_flatten,
    List.map_map]
  rfl

theorem perm_errors_flatMap :
    (linter.lintWith directives file).errors.Perm
      (linter.rules.flatMap fun rule => ((only rule).lintWith directives file).errors) := by
  have hparts := List.flatMap_append_perm linter.rules
    (fun rule => (only rule).missingTypes file) fun rule =>
      ((only rule).activeRules directives file).flatMap fun rule =>
        (rule.faultyIn? file.context).toList.map (·.error file.path)
  rw [← linter.missingTypes_eq_flatMap, ← List.flatMap_assoc,
    ← linter.activeRules_eq_flatMap] at hparts
  have hrules := List.Perm.flatMap_left linter.rules fun rule _ =>
    ((only rule).perm_errors_lintWith directives file).symm
  exact ((linter.perm_errors_lintWith directives file).trans hparts).trans hrules

/-- Linting with several rules gives what linting with each of them alone gives: the
diagnostics in the stable order of their starts, the numbers of hidden ones added up, and
the errors together.  This is so whatever the rules do, and whichever of them end in a
fault. -/
theorem lintFile_splits :
    (linter.lintFile file).diagnostics =
      (linter.rules.flatMap fun rule => ((only rule).lintFile file).diagnostics).mergeSort
        (fun left right => decide (left.location.span.start ≤ right.location.span.start)) ∧
    (linter.lintFile file).suppressed =
      (linter.rules.map fun rule => ((only rule).lintFile file).suppressed).sum ∧
    (linter.lintFile file).errors.Perm
      (linter.rules.flatMap fun rule => ((only rule).lintFile file).errors) := by
  refine ⟨?_, linter.suppressed_eq_sum _ file, linter.perm_errors_flatMap _ file⟩
  have horder := StableSort.sort_eq_mergeSort Diagnostic.notAfter_trans Diagnostic.notAfter_total
    (linter.rules.flatMap fun rule => ((only rule).lintFile file).diagnostics)
  exact (linter.diagnostics_eq_inOrder_flatMap _ file).trans horder

end Linter

end ReactiveLint
