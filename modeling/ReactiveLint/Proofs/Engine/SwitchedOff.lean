import ReactiveLint.Engine.Summary
import ReactiveLint.Proofs.Engine.History
import ReactiveLint.Proofs.Engine.Suppression

/-!
# Rules that are off for a file

A directive that turns a rule off for the whole file keeps it from running, so it reports
nothing, ends in no fault and has no timing.  The question whether a file has the types that
a rule needs is asked before, and answered with an error for a rule that is off as well.
-/

namespace ReactiveLint

/-- The rule that an error is about. -/
def LintError.rule : LintError → String
  | typesRequired rule _ => rule
  | ruleFailed rule _ _ => rule

namespace Linter

/-- A linter without the rules of a name. -/
def without (linter : Linter) (rule : String) : Linter where
  rules := linter.rules.filter fun configured => decide (configured.rule.name ≠ rule)

/-- The rules of a name that need types which a file does not have. -/
def lacking (linter : Linter) (file : SourceFile) (rule : String) : List ConfiguredRule :=
  linter.rules.filter fun configured =>
    decide (configured.rule.name = rule) && !file.suits configured.rule

/-- Nothing in the report on a file comes from the rules of a name. -/
structure LeavesNoTrace (linter : Linter) (file : SourceFile) (rule : String) : Prop where
  diagnostics : ∀ diagnostic ∈ (linter.lintFile file).diagnostics, diagnostic.ruleId ≠ rule
  errors : ∀ error ∈ (linter.lintFile file).errors, error.rule ≠ rule
  timings : ∀ timing ∈ (linter.lintFile file).timings, timing.rule ≠ rule
  exitCode : (LintSummary.ofFile (linter.lintFile file)).exitCode =
    (LintSummary.ofFile ((linter.without rule).lintFile file)).exitCode

/-- The report on a file is the one without the rules of a name, but for an error for each
of them that lacks types. -/
structure LeavesOnlyLack (linter : Linter) (file : SourceFile) (rule : String) : Prop where
  report_without : (linter.without rule).lintFile file =
    { linter.lintFile file with
      errors := (linter.lintFile file).errors.filter fun error => decide (error.rule ≠ rule) }
  diagnostics : ∀ diagnostic ∈ (linter.lintFile file).diagnostics, diagnostic.ruleId ≠ rule
  errors : ((linter.lintFile file).errors.filter fun error => decide (error.rule = rule)) =
    (linter.lacking file rule).map fun _ => .typesRequired rule file.path
  timings : ∀ timing ∈ (linter.lintFile file).timings, timing.rule ≠ rule
  /-- A rule that lacks types fails the run, though it is off. -/
  exitCode_of_lacking : linter.lacking file rule ≠ [] →
    (LintSummary.ofFile (linter.lintFile file)).exitCode = 2

end Linter

namespace Timings

theorem mem_put {timing other : RuleTiming} {timings : Timings}
    (hmem : timing ∈ put other timings) : timing = other ∨ timing ∈ timings := by
  induction timings with
  | nil => exact .inl (List.mem_singleton.mp hmem)
  | cons first timings ih =>
      rw [put] at hmem
      split at hmem
      · exact (List.mem_cons.mp hmem).imp_right (List.mem_cons_of_mem _)
      · rcases List.mem_cons.mp hmem with rfl | hmem
        · exact .inr List.mem_cons_self
        · exact (ih hmem).imp_right (List.mem_cons_of_mem _)

/-- No timing comes from nowhere. -/
theorem mem_of_mem_ofList {timing : RuleTiming} {timings : List RuleTiming}
    (hmem : timing ∈ ofList timings) : timing ∈ timings := by
  suffices hfold : ∀ kept : Timings,
      timing ∈ timings.foldl (fun kept timing => put timing kept) kept →
        timing ∈ kept ∨ timing ∈ timings by
    exact (hfold [] hmem).resolve_left List.not_mem_nil
  intro kept hmem
  clear * - hmem
  induction timings generalizing kept with
  | nil => exact .inl hmem
  | cons first timings ih =>
      rcases ih _ hmem with hkept | hrest
      · rcases mem_put hkept with rfl | hkept
        · exact .inr List.mem_cons_self
        · exact .inl hkept
      · exact .inr (List.mem_cons_of_mem _ hrest)

end Timings

namespace Linter

variable {directives : Directives} {file : SourceFile} {linter : Linter} {rule : String}

/-! ## The rules that run -/

theorem exists_active_of_mem_timings {timing : RuleTiming}
    (hmem : timing ∈ (linter.lintWith directives file).timings) :
    ∃ configured ∈ linter.activeRules directives file, configured.rule.name = timing.rule := by
  obtain ⟨run, hrun, rfl⟩ := List.mem_map.mp (Timings.mem_of_mem_ofList hmem)
  have hplain : run.plain ∈ (linter.activeRules directives file).map (RuleRun.alone file.context) :=
    FileRun.plain_rules file.context _ ▸ List.mem_map_of_mem hrun
  obtain ⟨configured, hactive, halone⟩ := List.mem_map.mp hplain
  have hconfigured : configured = run.configured := by
    rw [← PlainRun.configured_alone configured, halone]
    rfl
  exact ⟨configured, hactive, congrArg (·.rule.name) hconfigured⟩

theorem exists_active_of_mem_diagnostics {diagnostic : Diagnostic}
    (hmem : diagnostic ∈ (linter.lintWith directives file).diagnostics) :
    ∃ configured ∈ linter.activeRules directives file, configured.rule.name = diagnostic.ruleId := by
  rw [diagnostics_lintWith, Diagnostic.inOrder, (StableSort.perm_sort _ _).mem_iff,
    List.mem_flatMap] at hmem
  obtain ⟨configured, hactive, hmem⟩ := hmem
  exact ⟨configured, hactive,
    (ConfiguredRule.ruleId_of_mem_diagnosticsIn (List.mem_filter.mp hmem).1).symm⟩

theorem errors_lintWith :
    (linter.lintWith directives file).errors = linter.missingTypes file ++
      (FileRun.ofRules file.context (linter.activeRules directives file)).faults.map
        (·.error file.path) := rfl

/-- An error that is a fault is about a rule that runs. -/
theorem exists_active_of_mem_faults {error : LintError}
    (hmem : error ∈ (FileRun.ofRules file.context (linter.activeRules directives file)).faults.map
      (·.error file.path)) :
    ∃ configured ∈ linter.activeRules directives file, configured.rule.name = error.rule := by
  obtain ⟨faulty, hfaulty, rfl⟩ := List.mem_map.mp hmem
  rw [(FileRun.perm_faults file.context _).mem_iff, List.mem_flatMap] at hfaulty
  obtain ⟨configured, hactive, hfaulty⟩ := hfaulty
  rw [Option.mem_toList, ConfiguredRule.faultyIn?, RuleRun.faulty?, Option.map_eq_some_iff]
    at hfaulty
  obtain ⟨fault, -, rfl⟩ := hfaulty
  exact ⟨configured, hactive,
    congrArg (·.rule.name) (PlainRun.configured_alone configured).symm⟩

/-! ## Rules that lack types -/

theorem missingTypes_without :
    (linter.without rule).missingTypes file =
      (linter.missingTypes file).filter fun error => decide (error.rule ≠ rule) := by
  rw [missingTypes, missingTypes, without, List.filter_map, List.filter_filter,
    List.filter_filter]
  refine congrArg _ (List.filter_congr fun configured _ => ?_)
  exact Bool.and_comm _ _

theorem filter_missingTypes :
    ((linter.missingTypes file).filter fun error => decide (error.rule = rule)) =
      (linter.lacking file rule).map fun _ => .typesRequired rule file.path := by
  rw [missingTypes, List.filter_map, List.filter_filter]
  refine List.map_congr_left fun configured hmem => ?_
  have hname := (Bool.and_eq_true_iff.mp (List.mem_filter.mp hmem).2).1
  exact congrArg (LintError.typesRequired · file.path) (of_decide_eq_true hname)

theorem lacking_eq_nil_iff :
    linter.lacking file rule = [] ↔
      ∀ configured ∈ linter.rules, configured.rule.name = rule →
        file.suits configured.rule = true := by
  simp [lacking, List.filter_eq_nil_iff]

/-! ## Rules that are off -/

section Off

variable (hoff : directives.isDisabledForFile rule = true)

include hoff

theorem name_ne_of_active {configured : ConfiguredRule}
    (hactive : configured ∈ linter.activeRules directives file) : configured.rule.name ≠ rule := by
  rintro rfl
  have hruns := (List.mem_filter.mp hactive).2
  rw [hoff, Bool.not_true, Bool.and_false] at hruns
  cases hruns

theorem activeRules_without :
    (linter.without rule).activeRules directives file = linter.activeRules directives file := by
  rw [activeRules, without, List.filter_filter, activeRules]
  refine List.filter_congr fun configured hmem => ?_
  by_cases hname : configured.rule.name = rule
  · simp [hname, hoff]
  · simp [hname]

theorem rule_ne_of_mem_faults {error : LintError}
    (hmem : error ∈ (FileRun.ofRules file.context (linter.activeRules directives file)).faults.map
      (·.error file.path)) : error.rule ≠ rule := by
  obtain ⟨configured, hactive, hname⟩ := exists_active_of_mem_faults hmem
  exact hname ▸ name_ne_of_active hoff hactive

theorem filter_errors_lintWith :
    ((linter.lintWith directives file).errors.filter fun error => decide (error.rule = rule)) =
      (linter.lacking file rule).map fun _ => .typesRequired rule file.path := by
  rw [errors_lintWith, List.filter_append, filter_missingTypes]
  refine (congrArg _ (List.filter_eq_nil_iff.mpr fun error hmem => ?_)).trans (List.append_nil _)
  exact fun hname => rule_ne_of_mem_faults hoff hmem (of_decide_eq_true hname)

theorem errors_without :
    ((linter.without rule).lintWith directives file).errors =
      (linter.lintWith directives file).errors.filter fun error => decide (error.rule ≠ rule) := by
  rw [errors_lintWith, errors_lintWith, List.filter_append, missingTypes_without,
    activeRules_without hoff]
  refine congrArg _ (List.filter_eq_self.mpr fun error hmem => ?_).symm
  exact decide_eq_true (rule_ne_of_mem_faults hoff hmem)

theorem lintWith_without :
    (linter.without rule).lintWith directives file =
      { linter.lintWith directives file with
        errors := (linter.lintWith directives file).errors.filter fun error =>
          decide (error.rule ≠ rule) } := by
  rw [← errors_without hoff, lintWith, activeRules_without hoff]
  rfl

end Off

/-- Linting with a rule that is off for the file is linting without it, except that it must
still have the types that it needs. -/
theorem leavesOnlyLack (linter : Linter) (file : SourceFile) {rule : String}
    (hoff : (Directives.parse file.tree.source).isDisabledForFile rule = true) :
    linter.LeavesOnlyLack file rule where
  report_without := lintWith_without hoff
  diagnostics diagnostic hmem := by
    obtain ⟨configured, hactive, hname⟩ := exists_active_of_mem_diagnostics hmem
    exact hname ▸ name_ne_of_active hoff hactive
  errors := filter_errors_lintWith hoff
  timings timing hmem := by
    obtain ⟨configured, hactive, hname⟩ := exists_active_of_mem_timings hmem
    exact hname ▸ name_ne_of_active hoff hactive
  exitCode_of_lacking hlacking := by
    have herrors : (linter.lintFile file).errors ≠ [] := by
      intro hnone
      have hfilter := @filter_errors_lintWith _ file linter _ hoff
      rw [← lintFile, hnone] at hfilter
      exact hlacking (List.map_eq_nil_iff.mp hfilter.symm)
    exact if_pos (.inr herrors)

/-- A rule that is off for the file does not run: it has no diagnostics, no faults and no
timings, and the report is the one without it except for an error if it lacks types.  So it
leaves no trace unless it needs types on a file that has none. -/
theorem lintFile_leavesNoTrace_iff (linter : Linter) (file : SourceFile) {rule : String}
    (hoff : (Directives.parse file.tree.source).isDisabledForFile rule = true) :
    linter.LeavesOnlyLack file rule ∧
      (linter.LeavesNoTrace file rule ↔ ∀ configured ∈ linter.rules,
        configured.rule.name = rule → file.suits configured.rule = true) := by
  have honly := linter.leavesOnlyLack file hoff
  refine ⟨honly, ?_⟩
  have hlacking : linter.lacking file rule = [] ↔
      ((linter.lintFile file).errors.filter fun error => decide (error.rule = rule)) = [] := by
    rw [honly.errors, List.map_eq_nil_iff]
  rw [← lacking_eq_nil_iff, hlacking]
  constructor
  · intro htrace
    refine List.filter_eq_nil_iff.mpr fun error hmem hname => ?_
    exact htrace.errors error hmem (of_decide_eq_true hname)
  · intro hnone
    have herrors : ∀ error ∈ (linter.lintFile file).errors, error.rule ≠ rule :=
      fun error hmem hname => List.filter_eq_nil_iff.mp hnone error hmem (decide_eq_true hname)
    refine ⟨honly.diagnostics, herrors, honly.timings, ?_⟩
    have hself : ((linter.lintFile file).errors.filter fun error => decide (error.rule ≠ rule)) =
        (linter.lintFile file).errors :=
      List.filter_eq_self.mpr fun error hmem => decide_eq_true (herrors error hmem)
    rw [honly.report_without, hself]

end Linter

/-! ## A rule that is off and lacks types -/

def subscribeText : String := "x.subscribe(); // rxlint-disable no-ignored-subscription"

def subscribeArena : List NodeDraft :=
  [ ⟨.identifier, ⟨0, 1⟩, [("name", .value (.text "x"))]⟩
  , ⟨.identifier, ⟨2, 11⟩, [("name", .value (.text "subscribe"))]⟩
  , ⟨.memberExpression, ⟨0, 11⟩, [("object", .node 0), ("property", .node 1)]⟩
  , ⟨.callExpression, ⟨0, 13⟩, [("callee", .node 2), ("arguments", .list [])]⟩
  , ⟨.expressionStatement, ⟨0, 14⟩, [("expression", .node 3)]⟩
  , ⟨.program, ⟨0, 56⟩, [("body", .list [some 4])]⟩ ]

def subscribeFile (types : Option TypeTable) : SourceFile where
  path := "a.ts"
  tree := (Tree.build? subscribeArena 5 subscribeText).toOption.getD default
  types

/-- Knows that the receiver of the call is an observable. -/
def observableTable : TypeTable := ⟨[(0, .named "Observable")]⟩

def subscriptionLinter : Linter where
  rules := [⟨(RuleSet.make "no-ignored-subscription" .null).toOption.getD ⟨default, Unit, (), []⟩,
    .warning⟩]

set_option maxRecDepth 100000 in
theorem subscribe_evaluated :
    (Tree.build? subscribeArena 5 subscribeText).isOk = true ∧
    (Directives.parse (subscribeFile none).tree.source).isDisabledForFile
      "no-ignored-subscription" = true ∧
    (subscriptionLinter.lintWith {} (subscribeFile (some observableTable))).diagnostics.map
      (·.ruleId) = ["no-ignored-subscription"] ∧
    (subscriptionLinter.lintFile (subscribeFile none)).errors =
      [.typesRequired "no-ignored-subscription" "a.ts"] := by
  decide +kernel

theorem build?_subscribeArena (types : Option TypeTable) :
    Tree.build? subscribeArena 5 subscribeText = .ok (subscribeFile types).tree :=
  eq_ok_of_isOk subscribe_evaluated.1 default

/-- With types the rule would report the call, and the directive takes it away without a trace. -/
theorem leavesNoTrace_subscribeFile :
    (subscriptionLinter.lintWith {} (subscribeFile (some observableTable))).diagnostics.map
        (·.ruleId) = ["no-ignored-subscription"] ∧
      subscriptionLinter.LeavesNoTrace (subscribeFile (some observableTable))
        "no-ignored-subscription" := by
  obtain ⟨-, hoff, hreports, -⟩ := subscribe_evaluated
  have htrace := Linter.lintFile_leavesNoTrace_iff subscriptionLinter
    (subscribeFile (some observableTable)) hoff
  refine ⟨hreports, htrace.2.mpr fun configured _ _ => ?_⟩
  rw [SourceFile.suits, subscribeFile, Option.isSome_some, Bool.or_true]

/-- A rule that is off for a file can leave an error in its report. -/
theorem not_forall_leavesNoTrace :
    ¬ ∀ (linter : Linter) (file : SourceFile) (drafts : List NodeDraft) (root : NodeId)
        (source rule : String), Tree.build? drafts root source = .ok file.tree →
      (Directives.parse file.tree.source).isDisabledForFile rule = true →
      linter.LeavesNoTrace file rule := by
  intro hall
  obtain ⟨-, hoff, -, herrors⟩ := subscribe_evaluated
  have htrace := hall subscriptionLinter (subscribeFile none) _ _ _ _
    (build?_subscribeArena none) hoff
  apply htrace.errors (.typesRequired "no-ignored-subscription" "a.ts")
  · rw [herrors]
    exact List.mem_singleton_self _
  · rfl

end ReactiveLint
