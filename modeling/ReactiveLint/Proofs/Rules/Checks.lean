import ReactiveLint.Proofs.Engine.Course
import ReactiveLint.Proofs.Engine.Position
import ReactiveLint.Proofs.Engine.Suppression

/-!
# Rules of one check

A rule without a state has reported, at every point of a walk, what its check writes for the
nodes that have been met.
-/

namespace ReactiveLint

variable {file : FileContext} {info : RuleInfo} {trigger : Trigger} {check : Check}

theorem Check.isForgetful_handler (check : Check) : Handler.IsForgetful check.handler :=
  fun _ _ _ _ => rfl

/-- A rule without a state that has one listener. -/
def Rule.ofCheck (info : RuleInfo) (trigger : Trigger) (check : Check) : Rule :=
  ⟨info, Unit, (), [⟨trigger, check.handler⟩]⟩

/-- A check is made a rule by reading its selector. -/
theorem Rule.ofChecks?_singleton {selector : String} (htrigger : Trigger.parse selector = .ok trigger) :
    Rule.ofChecks? info [(selector, check)] = .ok (.ofCheck info trigger check) := by
  simp only [ofChecks?, ofHandlers?, List.map_cons, List.map_nil, List.mapM_cons, List.mapM_nil,
    Listener.on?, htrigger]
  rfl

theorem Rule.isForgetful_ofCheck : (Rule.ofCheck info trigger check).IsForgetful := by
  have hall : ∀ listener ∈ [(⟨trigger, check.handler⟩ : Listener Unit)],
      Handler.IsForgetful listener.react :=
    List.forall_mem_singleton.mpr check.isForgetful_handler
  exact hall

/-- A check whose reports at an event are those of its node, if the event passes a test. -/
def Check.Writes (check : Check) (file : FileContext) (trigger : Trigger) (test : Event → Bool)
    (write : NodeId → List Report) : Prop :=
  ∀ event, (if trigger.fires file.tree event then check file event.node else []) =
    if test event then write event.node else []

/-- The course of a rule of one check is told by the events that pass the test. -/
theorem Course.after_ofCheck {test : Event → Bool} {write : NodeId → List Report}
    (hwrites : check.Writes file trigger test write) (seen : List Event) :
    Course.after file (.ofCheck info trigger check) seen =
      ⟨(), (Event.nodesOn test seen).flatMap write⟩ := by
  induction seen using List.reverseRecOn with
  | nil => rfl
  | append_singleton seen event ih =>
      have hattend : Course.attend file (Rule.ofCheck info trigger check).listeners
          ⟨(), (Event.nodesOn test seen).flatMap write⟩ event =
            ⟨(), (Event.nodesOn test seen).flatMap write ++
              if trigger.fires file.tree event then check file event.node else []⟩ := by
        simp only [Rule.ofCheck, attend_cons, attend_nil]
        split
        · rfl
        · rw [List.append_nil]
      rw [after_append_singleton, ih, hattend, hwrites event, Event.flatMap_nodesOn_append]

/-- Without directives, a linter of one such rule reports what the check writes for the nodes that
pass the test. -/
theorem Linter.exists_areDiagnosed_ofCheck {file : SourceFile} (htree : file.tree.IsBuilt)
    (hsound : (Rule.ofCheck info trigger check).IsSound) (htypes : info.needsTypes = false)
    {test : Event → Bool} {write : NodeId → List Report}
    (hwrites : check.Writes file.context trigger test write) (severity : Severity) :
    ∃ diagnostics, Report.AreDiagnosed file.context info severity
        ((Event.nodesOn test file.tree.walk).flatMap write) diagnostics ∧
      ((only ⟨.ofCheck info trigger check, severity⟩).lintWith {} file).diagnostics =
        Diagnostic.inOrder diagnostics := by
  have hcontext : file.context.tree.IsBuilt := htree
  obtain ⟨progress, hrun, hfollows⟩ := RuleRun.exists_follows_foldl hcontext hsound
    Rule.isForgetful_ofCheck severity file.tree.walk
  rw [Course.after_ofCheck hwrites] at hfollows
  have hactive : (only ⟨.ofCheck info trigger check, severity⟩).activeRules {} file =
      [⟨.ofCheck info trigger check, severity⟩] := by
    have hsuits : file.suits (.ofCheck info trigger check) = true := by
      rw [SourceFile.suits, Rule.ofCheck, htypes]
      rfl
    rw [only, activeRules, List.filter_cons_of_pos (by rw [hsuits]; rfl), List.filter_nil]
  refine ⟨progress.diagnostics, hfollows.diagnosed, ?_⟩
  have halone : RuleRun.alone file.context ⟨.ofCheck info trigger check, severity⟩ =
      ⟨⟨.ofCheck info trigger check, severity⟩, progress⟩ := hrun
  rw [diagnostics_lintWith_empty, hactive, List.flatMap_singleton, ConfiguredRule.diagnosticsIn,
    halone]

namespace BuiltInRule

variable {Settings : Type} {settings : Json → Except ConfigError Settings}
  {checks : Settings → List (String × Check)} {options : Json} {rule : Rule} {given : Settings}

/-- A rule that was made from options was made from settings that these give. -/
theorem exists_settings_of_make
    (hmake : (ofSettings info settings checks).make options = .ok rule) :
    ∃ given, settings options = .ok given ∧
      Rule.ofChecks? info (checks given) = .ok rule := by
  simp only [ofSettings] at hmake
  split at hmake
  next given hgiven => exact ⟨given, hgiven, Options.makeRule_eq_ok hmake⟩
  next => cases hmake

theorem ofSettings_make (hgiven : settings options = .ok given)
    (hrule : Rule.ofChecks? info (checks given) = .ok rule) :
    (ofSettings info settings checks).make options = .ok rule := by
  simp only [ofSettings, hgiven, hrule]
  rfl

end BuiltInRule

end ReactiveLint
