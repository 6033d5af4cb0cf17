import Mathlib.Data.List.Infix
import ReactiveLint.Proofs.Engine.Alone
import ReactiveLint.Proofs.Rule.Report

/-!
# The history of a rule

A run puts down every reaction.  The reactions of one rule, made once more from its start,
lead to where the rule ends, and none but the last of them can have ended in a fault.
-/

namespace ReactiveLint

variable {file : FileContext} {info : RuleInfo} {severity : Severity} {rules : List ConfiguredRule}

/-! ## How a reaction ends -/

/-- The reports of a reaction up to its end: all of them have become diagnostics, or one of
them is refused and nothing behind it counts. -/
inductive Reaction.Ends {State : Type} (file : FileContext) (info : RuleInfo)
    (severity : Severity) (reaction : Reaction State) : List Diagnostic → Option RuleFault → Prop
  | reported {made : List Diagnostic}
      (hmade : List.Forall₂ (fun report diagnostic => report.IsDiagnosis info severity file.path
        file.tree.source diagnostic) reaction.reports made) :
      reaction.Ends file info severity made reaction.fault
  | refused {before after : List Report} {report : Report} {made : List Diagnostic}
      {fault : RuleFault} (hreports : reaction.reports = before ++ report :: after)
      (hmade : List.Forall₂ (fun report diagnostic => report.IsDiagnosis info severity file.path
        file.tree.source diagnostic) before made)
      (hrefused : report.diagnose info severity file.path file.tree.source = .error fault) :
      reaction.Ends file info severity made (some fault)

namespace Progress

/-- One more report adds its diagnostic, or ends all in a fault and adds nothing. -/
theorem diagnoseAll_append_singleton {reports : List Report} {made : List Diagnostic}
    (hmade : diagnoseAll file info severity reports = (made, none)) (report : Report) :
    diagnoseAll file info severity (reports ++ [report]) =
      match report.diagnose info severity file.path file.tree.source with
      | .ok diagnostic => (made ++ [diagnostic], none)
      | .error fault => (made, some fault) := by
  induction reports generalizing made with
  | nil =>
      obtain rfl : [] = made := congrArg Prod.fst hmade
      simp only [List.nil_append, diagnoseAll]
      cases report.diagnose info severity file.path file.tree.source <;> rfl
  | cons first reports ih =>
      rw [diagnoseAll] at hmade
      rw [List.cons_append, diagnoseAll]
      cases hfirst : first.diagnose info severity file.path file.tree.source with
      | error fault => simp [hfirst] at hmade
      | ok diagnostic =>
          cases hrest : diagnoseAll file info severity reports with
          | mk rest fault =>
              simp only [hfirst, hrest, Prod.mk.injEq] at hmade
              obtain ⟨rfl, rfl⟩ := hmade
              simp only [ih hrest]
              cases report.diagnose info severity file.path file.tree.source <;> rfl

/-- Behind a refused report nothing is made. -/
theorem diagnoseAll_append_of_fault {reports : List Report} {made : List Diagnostic}
    {fault : RuleFault} (hmade : diagnoseAll file info severity reports = (made, some fault))
    (more : List Report) :
    diagnoseAll file info severity (reports ++ more) = (made, some fault) := by
  induction reports generalizing made with
  | nil => simp [diagnoseAll] at hmade
  | cons first reports ih =>
      rw [diagnoseAll] at hmade
      rw [List.cons_append, diagnoseAll]
      cases hfirst : first.diagnose info severity file.path file.tree.source with
      | error other => simpa [hfirst] using hmade
      | ok diagnostic =>
          cases hrest : diagnoseAll file info severity reports with
          | mk rest other =>
              simp only [hfirst, hrest, Prod.mk.injEq] at hmade
              obtain ⟨rfl, rfl⟩ := hmade
              simp only [ih hrest]

theorem diagnoseAll_eq_none_iff {reports : List Report} {made : List Diagnostic} :
    diagnoseAll file info severity reports = (made, none) ↔
      List.Forall₂ (fun report diagnostic => report.IsDiagnosis info severity file.path
        file.tree.source diagnostic) reports made := by
  simp only [← Report.diagnose_eq_ok_iff]
  induction reports generalizing made with
  | nil => simp [diagnoseAll, eq_comm]
  | cons report reports ih =>
      rw [diagnoseAll, List.forall₂_cons_left_iff]
      cases hreport : report.diagnose info severity file.path file.tree.source with
      | error fault => simp
      | ok diagnostic =>
          cases hrest : diagnoseAll file info severity reports with
          | mk rest fault =>
              have hiff := fun made => (@ih made).symm
              simp only [hrest, Prod.mk.injEq] at hiff
              simp only [hiff, Prod.mk.injEq, Except.ok.injEq]
              constructor
              · rintro ⟨rfl, rfl⟩
                exact ⟨_, _, rfl, ⟨rfl, rfl⟩, rfl⟩
              · rintro ⟨_, _, rfl, ⟨rfl, rfl⟩, rfl⟩
                exact ⟨rfl, rfl⟩

/-- A fault is that of the first refused report. -/
theorem exists_of_diagnoseAll_eq_some {reports : List Report} {made : List Diagnostic}
    {fault : RuleFault} (hmade : diagnoseAll file info severity reports = (made, some fault)) :
    ∃ before report after, reports = before ++ report :: after ∧
      diagnoseAll file info severity before = (made, none) ∧
        report.diagnose info severity file.path file.tree.source = .error fault := by
  induction reports generalizing made with
  | nil => simp [diagnoseAll] at hmade
  | cons first reports ih =>
      rw [diagnoseAll] at hmade
      cases hfirst : first.diagnose info severity file.path file.tree.source with
      | error other =>
          simp only [hfirst, Prod.mk.injEq, Option.some.injEq] at hmade
          obtain ⟨rfl, rfl⟩ := hmade
          exact ⟨[], first, reports, rfl, rfl, hfirst⟩
      | ok diagnostic =>
          cases hrest : diagnoseAll file info severity reports with
          | mk rest other =>
              simp only [hfirst, hrest, Prod.mk.injEq] at hmade
              obtain ⟨rfl, rfl⟩ := hmade
              obtain ⟨before, report, after, rfl, hbefore, hreport⟩ := ih hrest
              refine ⟨first :: before, report, after, rfl, ?_, hreport⟩
              simp only [diagnoseAll, hfirst, hbefore]

end Progress

/-- A reaction ends as the diagnoses of its reports say. -/
theorem Reaction.ends_iff {State : Type} {reaction : Reaction State} {made : List Diagnostic}
    {fault : Option RuleFault} :
    reaction.Ends file info severity made fault ↔
      (Progress.diagnoseAll file info severity reaction.reports).1 = made ∧
        (Progress.diagnoseAll file info severity reaction.reports).2.or reaction.fault = fault := by
  constructor
  · intro hends
    cases hends with
    | reported hmade =>
        rw [Progress.diagnoseAll_eq_none_iff.mpr hmade]
        exact ⟨rfl, rfl⟩
    | @refused before after report made fault hreports hmade hrefused =>
        have hbefore := Progress.diagnoseAll_eq_none_iff.mpr hmade
        have hreport := Progress.diagnoseAll_append_singleton hbefore report
        rw [hrefused] at hreport
        have hall := Progress.diagnoseAll_append_of_fault hreport after
        rw [List.append_assoc, List.singleton_append, ← hreports] at hall
        rw [hall]
        exact ⟨rfl, rfl⟩
  · rintro ⟨rfl, rfl⟩
    cases hall : Progress.diagnoseAll file info severity reaction.reports with
    | mk made fault =>
        cases fault with
        | none => exact .reported (Progress.diagnoseAll_eq_none_iff.mp hall)
        | some fault =>
            obtain ⟨before, report, after, hreports, hbefore, hrefused⟩ :=
              Progress.exists_of_diagnoseAll_eq_some hall
            exact .refused hreports (Progress.diagnoseAll_eq_none_iff.mp hbefore) hrefused

/-- How a reaction ends is what a rule takes from it. -/
theorem Reaction.Ends.react {State : Type} {progress : Progress State} {node : NodeId}
    {listener : Listener State} {made : List Diagnostic} {fault : Option RuleFault}
    (hends : (listener.react file progress.diagnostics progress.state node).Ends file info severity
      made fault) :
    (progress.react file info severity node listener).diagnostics =
        progress.diagnostics ++ made ∧
      (progress.react file info severity node listener).fault = fault := by
  obtain ⟨hmade, hfault⟩ := Reaction.ends_iff.mp hends
  exact ⟨congrArg (progress.diagnostics ++ ·) hmade, hfault⟩

/-! ## Reactions once more -/

namespace RuleRun

/-- Lets the listener of an invocation react. -/
def invoke (file : FileContext) (run : RuleRun) (invocation : Invocation) : RuleRun :=
  match run.configured.rule.listeners[invocation.listener]? with
  | none => run
  | some listener => run.reacted file invocation.event.node listener

/-- A rule that has reacted in these invocations. -/
def replay (file : FileContext) (configured : ConfiguredRule) (invocations : List Invocation) :
    RuleRun :=
  invocations.foldl (invoke file) (.start configured)

theorem replay_append_singleton (configured : ConfiguredRule) (earlier : List Invocation)
    (last : Invocation) :
    replay file configured (earlier ++ [last]) =
      (replay file configured earlier).invoke file last := by
  rw [replay, List.foldl_append]
  rfl

theorem configured_invoke (run : RuleRun) (invocation : Invocation) :
    (run.invoke file invocation).configured = run.configured := by
  rw [invoke]
  split <;> rfl

theorem configured_replay (configured : ConfiguredRule) (invocations : List Invocation) :
    (replay file configured invocations).configured = configured := by
  induction invocations using List.reverseRecOn with
  | nil => rfl
  | append_singleton earlier last ih =>
      rw [replay_append_singleton, configured_invoke, ih]

/-- The handler that an invocation calls makes these diagnostics and ends in a fault. -/
def Faults (file : FileContext) (run : RuleRun) (invocation : Invocation)
    (made : List Diagnostic) (fault : RuleFault) : Prop :=
  ∃ listener, run.configured.rule.listeners[invocation.listener]? = some listener ∧
    (listener.react file run.progress.diagnostics run.progress.state invocation.event.node).Ends
      file run.info run.configured.severity made (some fault)

theorem Faults.invoke {run : RuleRun} {invocation : Invocation} {made : List Diagnostic}
    {fault : RuleFault} (hfaults : run.Faults file invocation made fault) :
    (run.invoke file invocation).progress.diagnostics = run.progress.diagnostics ++ made ∧
      (run.invoke file invocation).fault? = some fault := by
  obtain ⟨listener, hlistener, hends⟩ := hfaults
  have hinvoke : run.invoke file invocation =
      run.reacted file invocation.event.node listener := by
    rw [RuleRun.invoke]
    simp only [hlistener]
  rw [hinvoke]
  exact hends.react

end RuleRun

namespace PlainRun

variable {run : PlainRun}

/-- The invocations of one rule, in order. -/
def invocationsOf (run : PlainRun) (index : Nat) : List Invocation :=
  run.invocations.filter (·.rule == index)

theorem mem_invocationsOf_iff {index : Nat} {invocation : Invocation} :
    invocation ∈ run.invocationsOf index ↔
      invocation ∈ run.invocations ∧ invocation.rule = index := by
  rw [invocationsOf, List.mem_filter, beq_iff_eq]

/-- What holds between the rules of a run and what it has put down. -/
structure Recalls (file : FileContext) (rules : List ConfiguredRule) (run : PlainRun) : Prop where
  rules_eq : ∀ index configured, rules[index]? = some configured →
    run.rules[index]? = some (RuleRun.replay file configured (run.invocationsOf index))
  /-- Before each of its reactions a rule has no fault. -/
  faultless : ∀ index configured, rules[index]? = some configured →
    ∀ earlier last, earlier ++ [last] <+: run.invocationsOf index →
      (RuleRun.replay file configured earlier).fault? = none

theorem recalls_start (file : FileContext) (rules : List ConfiguredRule) :
    Recalls file rules { rules := rules.map RuleRun.start } where
  rules_eq index configured hconfigured := by
    rw [List.getElem?_map, hconfigured]
    rfl
  faultless index configured _ earlier last hinitial := by
    have hlength := hinitial.length_le
    simp [invocationsOf] at hlength

theorem Recalls.record (hrecalls : Recalls file rules run) {invocation : Invocation}
    {rule : RuleRun} (hrule : run.rules[invocation.rule]? = some rule)
    (hfault : rule.fault? = none) {listener : Listener rule.configured.rule.State}
    (hlistener : rule.configured.rule.listeners[invocation.listener]? = some listener) :
    Recalls file rules (run.record invocation.event invocation.toListenerId
      (rule.reacted file invocation.event.node listener)) := by
  have hinvocations : ∀ index, (run.record invocation.event invocation.toListenerId
      (rule.reacted file invocation.event.node listener)).invocationsOf index =
        run.invocationsOf index ++ if invocation.rule = index then [invocation] else [] := by
    intro index
    rw [invocationsOf, PlainRun.record, List.filter_append]
    by_cases hindex : invocation.rule = index <;> simp [invocationsOf, hindex]
  have hown : ∀ configured, rules[invocation.rule]? = some configured →
      rule = RuleRun.replay file configured (run.invocationsOf invocation.rule) := by
    intro configured hconfigured
    exact Option.some.inj (hrule.symm.trans (hrecalls.rules_eq _ configured hconfigured))
  constructor
  · intro index configured hconfigured
    rw [hinvocations]
    by_cases hindex : invocation.rule = index
    · subst hindex
      have hlt := (List.getElem?_eq_some_iff.mp hrule).1
      rw [if_pos rfl, RuleRun.replay_append_singleton, ← hown configured hconfigured,
        RuleRun.invoke]
      simp only [hlistener]
      exact List.getElem?_set_self hlt
    · rw [if_neg hindex, List.append_nil, ← hrecalls.rules_eq index configured hconfigured]
      exact List.getElem?_set_ne hindex
  · intro index configured hconfigured earlier last hinitial
    rw [hinvocations] at hinitial
    by_cases hindex : invocation.rule = index
    · subst hindex
      rw [if_pos rfl] at hinitial
      -- the new invocation is the last one, or the prefix was there before
      rcases List.prefix_concat_iff.mp hinitial with heq | hinitial
      · have hearlier := (List.append_inj' heq rfl).1
        rw [hearlier, ← hown configured hconfigured]
        exact hfault
      · exact hrecalls.faultless _ configured hconfigured earlier last hinitial
    · rw [if_neg hindex, List.append_nil] at hinitial
      exact hrecalls.faultless index configured hconfigured earlier last hinitial

theorem recalls_ofRules (file : FileContext) (rules : List ConfiguredRule) :
    Recalls file rules (ofRules file rules) := by
  refine ofRules_induction (P := fun _ run => Recalls file rules run)
    (recalls_start file rules) ?_
  intro seen run invocation hrecalls
  rcases listen_cases file run invocation.event invocation.toListenerId with
    ⟨hsame, -⟩ | ⟨rule, hrule, hfault, listener, hlistener, -, hreacts⟩
  · rwa [hsame]
  · rw [hreacts]
    exact hrecalls.record hrule hfault hlistener

/-- A rule alone ends where its reactions in a run lead it. -/
theorem alone_eq_replay {index : Nat} {configured : ConfiguredRule}
    (hconfigured : rules[index]? = some configured) :
    RuleRun.alone file configured =
      RuleRun.replay file configured ((ofRules file rules).invocationsOf index) := by
  have hreplay := (recalls_ofRules file rules).rules_eq index configured hconfigured
  rw [rules_ofRules, List.getElem?_map, hconfigured] at hreplay
  exact Option.some.inj hreplay

theorem configured_alone (configured : ConfiguredRule) :
    (RuleRun.alone file configured).configured = configured := by
  have hconfigured : [configured][0]? = some configured := rfl
  rw [alone_eq_replay hconfigured, RuleRun.configured_replay]

/-- A reaction that ends in a fault is the last one of its rule. -/
theorem eq_of_fault?_ne_none {index : Nat} {configured : ConfiguredRule}
    (hconfigured : rules[index]? = some configured) {reached : List Invocation}
    (hinitial : reached <+: (ofRules file rules).invocationsOf index)
    (hfault : (RuleRun.replay file configured reached).fault? ≠ none) :
    (ofRules file rules).invocationsOf index = reached := by
  obtain ⟨rest, hrest⟩ := hinitial
  cases rest with
  | nil => rw [← hrest, List.append_nil]
  | cons next rest =>
      have hnext : reached ++ [next] <+: (ofRules file rules).invocationsOf index :=
        ⟨rest, by rw [← hrest, List.append_assoc, List.singleton_append]⟩
      exact absurd
        ((recalls_ofRules file rules).faultless index configured hconfigured _ _ hnext) hfault

end PlainRun

end ReactiveLint
