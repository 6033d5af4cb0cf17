import ReactiveLint.Proofs.Engine.Offers

/-!
# Where diagnostics come from

Every diagnostic of a run is the diagnosis of a report under the description of its
rule.  For a rule whose reports depend on the node alone, the diagnostics can be read
off its reactions.
-/

namespace ReactiveLint

variable {file : FileContext} {rules : List ConfiguredRule} {info : RuleInfo}
  {severity : Severity} {diagnostic : Diagnostic}

theorem Progress.mem_diagnoseAll {reports : List Report}
    (hmem : diagnostic ∈ (diagnoseAll file info severity reports).1) :
    ∃ report ∈ reports,
      report.diagnose info severity file.path file.tree.source = .ok diagnostic := by
  induction reports with
  | nil => simp [diagnoseAll] at hmem
  | cons report reports ih =>
      rw [diagnoseAll] at hmem
      split at hmem
      next => simp at hmem
      next first hfirst =>
        rcases List.mem_cons.mp hmem with rfl | hmem
        · exact ⟨report, by simp, hfirst⟩
        · obtain ⟨report, hreport, hdiagnose⟩ := ih hmem
          exact ⟨report, List.mem_cons_of_mem _ hreport, hdiagnose⟩

/-- A report that a listener of a rule makes, whatever the rule has seen before. -/
def Rule.MayReport (rule : Rule) (file : FileContext) (report : Report) : Prop :=
  ∃ listener ∈ rule.listeners, ∃ earlier state node,
    report ∈ (listener.react file earlier state node).reports

namespace PlainRun

/-- Every diagnostic of a rule is the diagnosis of a report that the rule makes. -/
theorem exists_report (file : FileContext) (rules : List ConfiguredRule) :
    ∀ rule ∈ (ofRules file rules).rules, ∀ diagnostic ∈ rule.progress.diagnostics,
      ∃ report, rule.configured.rule.MayReport file report ∧
        report.diagnose rule.info rule.configured.severity file.path
          file.tree.source = .ok diagnostic := by
  refine forall_rules ?_ ?_
  · simp [RuleRun.start]
  · intro rule node listener hlistener hrule diagnostic hmem
    rcases List.mem_append.mp hmem with hmem | hmem
    · exact hrule diagnostic hmem
    · obtain ⟨report, hreport, hdiagnose⟩ := Progress.mem_diagnoseAll hmem
      exact ⟨report, ⟨listener, hlistener, _, _, node, hreport⟩, hdiagnose⟩

end PlainRun

/-- The reports of a rule on a file depend on the listener and the node alone. -/
def Rule.ReportsBy (rule : Rule) (file : FileContext) (reports : Nat → NodeId → List Report) :
    Prop :=
  ∀ index listener, rule.listeners[index]? = some listener →
    ∀ earlier state node, (listener.react file earlier state node).reports = reports index node

namespace PlainRun

/-- The diagnostics of the reports that reactions of a rule make. -/
def reported (file : FileContext) (reports : Nat → NodeId → List Report) (rule : RuleRun)
    (invocations : List Invocation) : List Diagnostic :=
  invocations.flatMap fun invocation =>
    (Progress.diagnoseAll file rule.info rule.configured.severity
      (reports invocation.listener invocation.event.node)).1

theorem diagnostics_reacted {rule : RuleRun} {listener : Listener rule.configured.rule.State}
    {reports : Nat → NodeId → List Report} (hrule : rule.configured.rule.ReportsBy file reports)
    {invocation : Invocation}
    (hlistener : rule.configured.rule.listeners[invocation.listener]? = some listener) :
    (rule.reacted file invocation.event.node listener).progress.diagnostics =
      rule.progress.diagnostics ++ reported file reports rule [invocation] := by
  simp [RuleRun.reacted, Progress.react, hrule _ _ hlistener, reported, RuleRun.info]

/-- Where a rule reports by the node alone, its diagnostics are those of its reactions, in
order. -/
theorem diagnostics_eq {index : Nat} {reports : Nat → NodeId → List Report}
    (hreports : ∀ configured, rules[index]? = some configured →
      configured.rule.ReportsBy file reports) :
    ∀ rule, (ofRules file rules).rules[index]? = some rule →
      rule.progress.diagnostics = reported file reports rule
        ((ofRules file rules).invocations.filter (·.rule == index)) := by
  refine (ofRules_induction (P := fun _ run => run.rules.map (·.configured) = rules ∧
    ∀ rule, run.rules[index]? = some rule → rule.progress.diagnostics =
      reported file reports rule (run.invocations.filter (·.rule == index))) ⟨?_, ?_⟩ ?_).2
  · simp [RuleRun.start, Function.comp_def]
  · intro rule hrule
    rw [List.getElem?_map, Option.map_eq_some_iff] at hrule
    obtain ⟨configured, -, rfl⟩ := hrule
    rfl
  · rintro seen run invocation ⟨hconfigured, hrun⟩
    refine ⟨(configured_listen ..).trans hconfigured, ?_⟩
    rcases listen_cases file run invocation.event invocation.toListenerId with
      ⟨hsame, -⟩ | ⟨rule, hrule, -, listener, hlistener, -, hreacts⟩
    · rwa [hsame]
    rw [hreacts]
    intro after hafter
    change (run.rules.set invocation.rule _)[index]? = some after at hafter
    rw [record, List.filter_append]
    by_cases hindex : invocation.rule = index
    · subst hindex
      have hgiven := RuleRun.getElem?_configured hconfigured hrule
      rw [List.getElem?_set_self (List.getElem?_eq_some_iff.mp hrule).1] at hafter
      obtain rfl := Option.some.inj hafter
      rw [diagnostics_reacted (hreports _ hgiven) hlistener, hrun rule hrule]
      simp [reported, RuleRun.reacted, RuleRun.info]
    · rw [List.getElem?_set_ne hindex] at hafter
      simp [hrun after hafter, hindex]

end PlainRun

end ReactiveLint
