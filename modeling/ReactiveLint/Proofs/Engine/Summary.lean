import Mathlib.Algebra.Order.BigOperators.Group.List
import Mathlib.Data.List.Nodup
import ReactiveLint.Engine.Summary
import ReactiveLint.Proofs.Engine.Isolation

/-!
# What summaries add up to

The summaries of files can be merged in any bracketing.  What comes out is the same totals: the
lists are the concatenations in the order of the files, the numbers are counts of what is in
the lists or sums over the files, and the counts of a rule are those of its runs.
-/

namespace ReactiveLint

/-!
## Tables of timings

A table has at most one timing a rule.  What has been added to a table for a rule is what the
table has for it in the end, in whatever order and bracketing tables are merged.
-/

/-- A quantity of timings that adds up when timings are added. -/
def RuleTiming.IsAdditive (count : RuleTiming → Nat) : Prop :=
  ∀ timing other : RuleTiming, count (timing.add other) = count timing + count other

namespace Timings

variable {count : RuleTiming → Nat} {timing : RuleTiming} {timings other : Timings}
  {rule : String}

/-- The rules that a table has timings of. -/
def rules (timings : Timings) : List String := timings.map (·.rule)

@[simp]
theorem rules_nil : rules [] = [] := rfl

@[simp]
theorem rules_cons (timing : RuleTiming) (timings : Timings) :
    rules (timing :: timings) = timing.rule :: rules timings := rfl

@[simp]
theorem rules_append (timings other : Timings) :
    rules (timings ++ other) = rules timings ++ rules other := List.map_append

/-- What the timings of a rule count together. -/
def sumFor (count : RuleTiming → Nat) (rule : String) (timings : Timings) : Nat :=
  ((timings.filter (·.rule == rule)).map count).sum

@[simp]
theorem sumFor_nil : sumFor count rule [] = 0 := rfl

theorem sumFor_cons (timing : RuleTiming) (timings : Timings) :
    sumFor count rule (timing :: timings) =
      (if timing.rule = rule then count timing else 0) + sumFor count rule timings := by
  by_cases hrule : timing.rule = rule <;> simp [sumFor, hrule]

theorem sumFor_eq_zero (hrule : rule ∉ rules timings) : sumFor count rule timings = 0 := by
  have hnone : timings.filter (·.rule == rule) = [] := by
    refine List.filter_eq_nil_iff.mpr fun timing htiming hsame => hrule ?_
    exact List.mem_map.mpr ⟨timing, htiming, eq_of_beq hsame⟩
  rw [sumFor, hnone]
  rfl

/-- In a table a timing counts alone for its rule. -/
theorem sumFor_eq_find? (hnodup : (rules timings).Nodup) (rule : String) :
    sumFor count rule timings = (timings.find? (·.rule == rule)).elim 0 count := by
  induction timings with
  | nil => rfl
  | cons first rest ih =>
      obtain ⟨hfirst, hrest⟩ := List.nodup_cons.mp hnodup
      rw [sumFor_cons, List.find?_cons]
      by_cases hrule : first.rule = rule
      · subst hrule
        rw [if_pos rfl, sumFor_eq_zero hfirst, beq_self_eq_true]
        rfl
      · rw [if_neg hrule, ih hrest, beq_false_of_ne hrule, Nat.zero_add]

theorem sumFor_of_mem (count : RuleTiming → Nat) (hnodup : (rules timings).Nodup)
    (htiming : timing ∈ timings) :
    sumFor count timing.rule timings = count timing := by
  induction timings with
  | nil => cases htiming
  | cons first rest ih =>
      obtain ⟨hfirst, hrest⟩ := List.nodup_cons.mp hnodup
      rw [sumFor_cons]
      rcases List.mem_cons.mp htiming with rfl | htiming
      · rw [if_pos rfl, sumFor_eq_zero hfirst, Nat.add_zero]
      · have hne : first.rule ≠ timing.rule :=
          fun heq => hfirst (List.mem_map.mpr ⟨timing, htiming, heq.symm⟩)
        rw [if_neg hne, ih hrest htiming, Nat.zero_add]

/-! ## Adding a timing -/

theorem rules_add (timing : RuleTiming) (timings : Timings) :
    rules (add timing timings) =
      if timing.rule ∈ rules timings then rules timings else rules timings ++ [timing.rule] := by
  induction timings with
  | nil => rfl
  | cons first rest ih =>
      rw [add]
      by_cases hrule : first.rule = timing.rule
      · simp [hrule, RuleTiming.add]
      · rw [if_neg hrule, rules_cons, rules_cons, ih]
        by_cases hmem : timing.rule ∈ rules rest <;> simp [hmem, Ne.symm hrule]

theorem mem_rules_add : rule ∈ rules (add timing timings) ↔
    rule = timing.rule ∨ rule ∈ rules timings := by
  rw [rules_add]
  split
  next hmem =>
    refine ⟨.inr, fun hrule => hrule.elim (fun heq => heq ▸ hmem) id⟩
  next => rw [List.mem_append, List.mem_singleton, or_comm]

theorem nodup_rules_add (hnodup : (rules timings).Nodup) :
    (rules (add timing timings)).Nodup := by
  rw [rules_add]
  split
  next => exact hnodup
  next hnot => exact List.concat_eq_append .. ▸ hnodup.concat hnot

theorem sumFor_add (hadditive : RuleTiming.IsAdditive count) (timing : RuleTiming)
    (timings : Timings) :
    sumFor count rule (add timing timings) =
      sumFor count rule timings + if timing.rule = rule then count timing else 0 := by
  induction timings with
  | nil => rw [add, sumFor_cons, sumFor_nil, Nat.zero_add, Nat.add_zero]
  | cons first rest ih =>
      rw [add]
      split
      next hsame =>
        have hrule : (first.add timing).rule = first.rule := rfl
        rw [sumFor_cons, sumFor_cons, hrule, hsame, hadditive]
        split <;> omega
      next => rw [sumFor_cons, sumFor_cons, ih, Nat.add_assoc]

/-! ## Merging tables -/

theorem merge_cons (timings : Timings) (first : RuleTiming) (rest : Timings) :
    merge timings (first :: rest) = merge (add first timings) rest := rfl

theorem mem_rules_merge : rule ∈ rules (merge timings other) ↔
    rule ∈ rules timings ∨ rule ∈ rules other := by
  induction other generalizing timings with
  | nil => simp [merge]
  | cons first rest ih =>
      rw [merge_cons, ih, mem_rules_add, rules_cons, List.mem_cons, or_right_comm, or_comm]

theorem nodup_rules_merge (hnodup : (rules timings).Nodup) (other : Timings) :
    (rules (merge timings other)).Nodup := by
  induction other generalizing timings with
  | nil => exact hnodup
  | cons first rest ih => exact ih (nodup_rules_add hnodup)

theorem sumFor_merge (hadditive : RuleTiming.IsAdditive count) (timings other : Timings) :
    sumFor count rule (merge timings other) =
      sumFor count rule timings + sumFor count rule other := by
  induction other generalizing timings with
  | nil => rfl
  | cons first rest ih =>
      rw [merge_cons, ih, sumFor_add hadditive, sumFor_cons, Nat.add_assoc]

/-! ## Timings of different rules -/

theorem put_eq_append (hrule : timing.rule ∉ rules timings) :
    put timing timings = timings ++ [timing] := by
  induction timings with
  | nil => rfl
  | cons first rest ih =>
      rw [rules_cons, List.mem_cons, not_or] at hrule
      rw [put, if_neg (Ne.symm hrule.1), ih hrule.2, List.cons_append]

/-- Timings of different rules are a table as they are. -/
theorem ofList_eq_self (hnodup : (rules timings).Nodup) : ofList timings = timings := by
  suffices hfold : ∀ before : Timings, (rules (before ++ timings)).Nodup →
      timings.foldl (fun kept timing => put timing kept) before = before ++ timings by
    exact hfold [] hnodup
  clear hnodup
  induction timings with
  | nil => exact fun before _ => (List.append_nil before).symm
  | cons first rest ih =>
      intro before hnodup
      rw [List.append_cons] at hnodup ⊢
      have hfirst : first.rule ∉ rules before := by
        rw [rules_append, rules_append] at hnodup
        have hdisjoint := List.disjoint_of_nodup_append (List.nodup_append.mp hnodup).1
        exact fun hmem => hdisjoint hmem List.mem_cons_self
      rw [List.foldl_cons, put_eq_append hfirst]
      exact ih _ hnodup

end Timings

/-! ## Summaries -/

variable {linter : Linter} {files : List SourceFile} {reports others : List FileReport}
  {summary other : LintSummary}

namespace LintSummary

/-- Summaries that are merged from the reports of files, in their order and in some bracketing. -/
inductive IsMerged : List FileReport → LintSummary → Prop
  | empty : IsMerged [] {}
  | file (report : FileReport) : IsMerged [report] (.ofFile report)
  | merge {reports others : List FileReport} {summary other : LintSummary}
      (hsummary : IsMerged reports summary) (hother : IsMerged others other) :
      IsMerged (reports ++ others) (summary.merge other)

/-- The number of the diagnostics of a severity. -/
def countOf (summary : LintSummary) (severity : Severity) : Nat :=
  summary.diagnostics.countP (·.severity == severity)

/-- What the summary of files has of their reports. -/
structure SumsUp (reports : List FileReport) (summary : LintSummary) : Prop where
  diagnostics_eq : summary.diagnostics = reports.flatMap (·.diagnostics)
  errors_eq : summary.errors = reports.flatMap (·.errors)
  files_eq : summary.files = reports.length
  filesWithErrors_eq : summary.filesWithErrors =
    reports.countP fun report => report.diagnostics.any (·.severity == .error)
  filesWithWarnings_eq : summary.filesWithWarnings =
    reports.countP fun report => report.diagnostics.any (·.severity == .warning)
  errorCount_eq : summary.errorCount = summary.countOf .error
  warningCount_eq : summary.warningCount = summary.countOf .warning
  infoCount_eq : summary.infoCount = summary.countOf .info
  suppressed_eq : summary.suppressed = (reports.map (·.suppressed)).sum
  mem_rules_iff : ∀ rule, rule ∈ Timings.rules summary.timings ↔
    ∃ report ∈ reports, rule ∈ Timings.rules report.timings
  sumFor_eq : ∀ count, RuleTiming.IsAdditive count → ∀ rule,
    Timings.sumFor count rule summary.timings =
      (reports.map fun report => Timings.sumFor count rule report.timings).sum

theorem countOf_merge (summary other : LintSummary) (severity : Severity) :
    (summary.merge other).countOf severity = summary.countOf severity + other.countOf severity :=
  List.countP_append

namespace SumsUp

theorem empty : SumsUp [] {} where
  diagnostics_eq := rfl
  errors_eq := rfl
  files_eq := rfl
  filesWithErrors_eq := rfl
  filesWithWarnings_eq := rfl
  errorCount_eq := rfl
  warningCount_eq := rfl
  infoCount_eq := rfl
  suppressed_eq := rfl
  mem_rules_iff := by simp
  sumFor_eq := by simp

/-- A file counts once among those with a severity when it has a diagnostic of it. -/
theorem countP_singleton_eq (report : FileReport) (severity : Severity) :
    [report].countP (fun report => report.diagnostics.any (·.severity == severity)) =
      if 0 < report.countOf severity then 1 else 0 := by
  rw [List.countP_singleton, FileReport.countOf]
  simp only [List.countP_pos_iff, List.any_eq_true]

theorem file (report : FileReport) : SumsUp [report] (.ofFile report) where
  diagnostics_eq := (List.flatMap_singleton ..).symm
  errors_eq := (List.flatMap_singleton ..).symm
  files_eq := rfl
  filesWithErrors_eq := (countP_singleton_eq report .error).symm
  filesWithWarnings_eq := (countP_singleton_eq report .warning).symm
  errorCount_eq := rfl
  warningCount_eq := rfl
  infoCount_eq := rfl
  suppressed_eq := (List.sum_singleton).symm
  mem_rules_iff := by simp [ofFile]
  sumFor_eq := by simp [ofFile]

theorem merge (hsummary : SumsUp reports summary) (hother : SumsUp others other) :
    SumsUp (reports ++ others) (summary.merge other) where
  diagnostics_eq := by
    rw [List.flatMap_append, ← hsummary.diagnostics_eq, ← hother.diagnostics_eq]
    rfl
  errors_eq := by
    rw [List.flatMap_append, ← hsummary.errors_eq, ← hother.errors_eq]
    rfl
  files_eq := by
    rw [List.length_append, ← hsummary.files_eq, ← hother.files_eq]
    rfl
  filesWithErrors_eq := by
    rw [List.countP_append, ← hsummary.filesWithErrors_eq, ← hother.filesWithErrors_eq]
    rfl
  filesWithWarnings_eq := by
    rw [List.countP_append, ← hsummary.filesWithWarnings_eq, ← hother.filesWithWarnings_eq]
    rfl
  errorCount_eq := by
    rw [countOf_merge, ← hsummary.errorCount_eq, ← hother.errorCount_eq]
    rfl
  warningCount_eq := by
    rw [countOf_merge, ← hsummary.warningCount_eq, ← hother.warningCount_eq]
    rfl
  infoCount_eq := by
    rw [countOf_merge, ← hsummary.infoCount_eq, ← hother.infoCount_eq]
    rfl
  suppressed_eq := by
    rw [List.map_append, List.sum_append, ← hsummary.suppressed_eq, ← hother.suppressed_eq]
    rfl
  mem_rules_iff rule := by
    have hmerge : rule ∈ Timings.rules (summary.merge other).timings ↔
        rule ∈ Timings.rules summary.timings ∨ rule ∈ Timings.rules other.timings :=
      Timings.mem_rules_merge
    rw [hmerge, hsummary.mem_rules_iff, hother.mem_rules_iff]
    simp only [List.mem_append, or_and_right, exists_or]
  sumFor_eq count hadditive rule := by
    rw [List.map_append, List.sum_append, ← hsummary.sumFor_eq count hadditive,
      ← hother.sumFor_eq count hadditive]
    exact Timings.sumFor_merge hadditive ..

end SumsUp

theorem IsMerged.sumsUp (hmerged : IsMerged reports summary) : SumsUp reports summary := by
  induction hmerged with
  | empty => exact .empty
  | file report => exact .file report
  | merge _ _ hsummary hother => exact hsummary.merge hother

/-- A summary has one timing a rule if the reports have. -/
theorem IsMerged.nodup_rules (hmerged : IsMerged reports summary)
    (hreports : ∀ report ∈ reports, (Timings.rules report.timings).Nodup) :
    (Timings.rules summary.timings).Nodup := by
  induction hmerged with
  | empty => exact .nil
  | file report => exact hreports report List.mem_cons_self
  | merge _ _ hsummary _ =>
      obtain ⟨hreports, -⟩ := List.forall_mem_append.mp hreports
      exact Timings.nodup_rules_merge (hsummary hreports) _

/-- Every diagnostic has one of the three severities. -/
theorem countOf_add_countOf (summary : LintSummary) :
    summary.countOf .error + summary.countOf .warning + summary.countOf .info =
      summary.diagnostics.length := by
  rw [countOf, countOf, countOf]
  induction summary.diagnostics with
  | nil => rfl
  | cons diagnostic diagnostics ih =>
      rw [List.length_cons, ← ih]
      cases hseverity : diagnostic.severity <;> simp [hseverity] <;> omega

theorem SumsUp.exitCode_eq (hsums : SumsUp reports summary) :
    summary.exitCode =
      if (∃ diagnostic ∈ summary.diagnostics, diagnostic.severity = .error) ∨ summary.errors ≠ []
      then 2
      else if ∃ diagnostic ∈ summary.diagnostics, diagnostic.severity = .warning then 1
      else 0 := by
  have hcount : ∀ severity, 0 < summary.countOf severity ↔
      ∃ diagnostic ∈ summary.diagnostics, diagnostic.severity = severity := by
    simp [countOf, List.countP_pos_iff]
  simp only [exitCode, hsums.errorCount_eq, hsums.warningCount_eq, hcount]

end LintSummary

namespace Linter

/-- What the run of a rule on a file counts, zero where the rule does not run. -/
def countIn (linter : Linter) (count : RuleTiming → Nat) (rule : String) (file : SourceFile) : Nat :=
  ((linter.runOn file).rules.find? (·.info.name == rule)).elim 0 fun run => count run.timing

/-- What the summary of files has of the files and of the runs of the rules on them. -/
structure Tallies (linter : Linter) (files : List SourceFile) (summary : LintSummary) : Prop
    extends LintSummary.SumsUp (files.map linter.lintFile) summary where
  counts_eq : summary.errorCount + summary.warningCount + summary.infoCount =
    summary.diagnostics.length
  nodup_rules : (Timings.rules summary.timings).Nodup
  mem_runs_iff : ∀ rule, rule ∈ Timings.rules summary.timings ↔
    ∃ file ∈ files, ∃ run ∈ (linter.runOn file).rules, run.info.name = rule
  evaluationCount_eq : ∀ timing ∈ summary.timings, timing.evaluationCount =
    (files.map (linter.countIn (·.evaluationCount) timing.rule)).sum
  matchCount_eq : ∀ timing ∈ summary.timings, timing.matchCount =
    (files.map (linter.countIn (·.matchCount) timing.rule)).sum
  exitCode_eq : summary.exitCode =
    if (∃ diagnostic ∈ summary.diagnostics, diagnostic.severity = .error) ∨ summary.errors ≠ []
    then 2
    else if ∃ diagnostic ∈ summary.diagnostics, diagnostic.severity = .warning then 1
    else 0

theorem rules_runOn (linter : Linter) (file : SourceFile) :
    Timings.rules ((linter.runOn file).rules.map (·.timing)) =
      (linter.activeRules (.parse file.tree.source) file).map (·.rule.name) := by
  have hplain := PlainRun.configured_ofRules file.context
    (linter.activeRules (.parse file.tree.source) file)
  rw [← FileRun.plain_ofRules] at hplain
  rw [← hplain, FileRun.plain, List.map_map, List.map_map, Timings.rules, List.map_map]
  rfl

section Names

variable (hnames : linter.ruleNames.Nodup)

include hnames

theorem nodup_rules_runOn (file : SourceFile) :
    (Timings.rules ((linter.runOn file).rules.map (·.timing))).Nodup := by
  rw [rules_runOn]
  exact hnames.sublist (List.filter_sublist.map _)

/-- Rules of different names each keep the timing of their run. -/
theorem timings_lintFile (file : SourceFile) :
    (linter.lintFile file).timings = (linter.runOn file).rules.map (·.timing) :=
  Timings.ofList_eq_self (nodup_rules_runOn hnames file)

theorem sumFor_lintFile (count : RuleTiming → Nat) (rule : String) (file : SourceFile) :
    Timings.sumFor count rule (linter.lintFile file).timings = linter.countIn count rule file := by
  have hnodup := nodup_rules_runOn hnames file
  rw [timings_lintFile hnames, Timings.sumFor_eq_find? hnodup, List.find?_map, countIn]
  have hname : ((fun timing : RuleTiming => timing.rule == rule) ∘ fun run : RuleRun => run.timing) =
      fun run => run.info.name == rule := rfl
  rw [hname]
  cases (linter.runOn file).rules.find? (fun run => run.info.name == rule) <;> rfl

theorem tallies_of_isMerged (hmerged : LintSummary.IsMerged (files.map linter.lintFile) summary) :
    linter.Tallies files summary := by
  have hsums := hmerged.sumsUp
  have hnodup : (Timings.rules summary.timings).Nodup := by
    refine hmerged.nodup_rules (List.forall_mem_map.mpr fun file _ => ?_)
    rw [timings_lintFile hnames]
    exact nodup_rules_runOn hnames file
  have hcounts : ∀ count, RuleTiming.IsAdditive count → ∀ timing ∈ summary.timings,
      count timing = (files.map (linter.countIn count timing.rule)).sum := by
    intro count hadditive timing htiming
    rw [← Timings.sumFor_of_mem count hnodup htiming, hsums.sumFor_eq count hadditive, List.map_map]
    exact congrArg List.sum (List.map_congr_left fun file _ => sumFor_lintFile hnames ..)
  refine { hsums with
    counts_eq := ?_, nodup_rules := hnodup, mem_runs_iff := fun rule => ?_
    evaluationCount_eq := hcounts _ fun _ _ => rfl, matchCount_eq := hcounts _ fun _ _ => rfl
    exitCode_eq := hsums.exitCode_eq }
  · rw [hsums.errorCount_eq, hsums.warningCount_eq, hsums.infoCount_eq,
      LintSummary.countOf_add_countOf]
  · have hrules : ∀ file, rule ∈ Timings.rules (linter.lintFile file).timings ↔
        ∃ run ∈ (linter.runOn file).rules, run.info.name = rule := by
      intro file
      rw [timings_lintFile hnames, Timings.rules, List.map_map]
      exact List.mem_map
    simp only [hsums.mem_rules_iff, List.mem_map, exists_exists_and_eq_and, hrules]

end Names

theorem isMerged_lint (linter : Linter) (files : List SourceFile) :
    LintSummary.IsMerged (files.map linter.lintFile) (linter.lint files) := by
  induction files using List.reverseRecOn with
  | nil => exact .empty
  | append_singleton files file ih =>
      rw [lint, List.foldl_append, List.map_append]
      exact ih.merge (.file (linter.lintFile file))

/-- What linting files finds, and what the summaries of the files come to when they are merged
in any other bracketing, is what the files have together. -/
theorem lint_tallies (linter : Linter) (hnames : linter.ruleNames.Nodup) (files : List SourceFile) :
    linter.Tallies files (linter.lint files) ∧
      ∀ summary, LintSummary.IsMerged (files.map linter.lintFile) summary →
        linter.Tallies files summary :=
  ⟨tallies_of_isMerged hnames (isMerged_lint linter files), fun _ => tallies_of_isMerged hnames⟩

/-- The summary of one file merged with that of two more, for rules of which one ends in a
fault. -/
theorem lint_tallies_callFile :
    let linter : Linter := ⟨[⟨countingRule, .warning⟩, ⟨wearyRule, .error⟩]⟩
    let found := LintSummary.ofFile (linter.lintFile callFile)
    linter.ruleNames.Nodup ∧
      LintSummary.IsMerged ([callFile, callFile, callFile].map linter.lintFile)
        (found.merge (found.merge found)) ∧
      linter.Tallies [callFile, callFile, callFile] (found.merge (found.merge found)) := by
  intro linter found
  have hnames : linter.ruleNames.Nodup := by decide
  have hfound : LintSummary.IsMerged [linter.lintFile callFile] found := .file _
  have hmerged : LintSummary.IsMerged ([callFile, callFile, callFile].map linter.lintFile)
      (found.merge (found.merge found)) := hfound.merge (hfound.merge hfound)
  exact ⟨hnames, hmerged, (lint_tallies linter hnames _).2 _ hmerged⟩

end Linter

end ReactiveLint
