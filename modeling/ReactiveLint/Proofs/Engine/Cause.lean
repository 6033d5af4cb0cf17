import ReactiveLint.Proofs.Engine.History
import ReactiveLint.Proofs.Engine.Invocations

/-!
# What the fault of a rule is due to

A rule ends in a fault when one of its reactions does.  For a rule of which the listener
and the node alone decide whether a reaction ends in a fault, the history of the rule does
not matter: it ends in a fault exactly when the walk has an event for such a reaction.
-/

namespace ReactiveLint

variable {file : FileContext} {fault : RuleFault} {due : Nat → NodeId → RuleFault → Prop}

/-- The fault in which a reaction ends. -/
def Reaction.fault? {State : Type} (reaction : Reaction State) (file : FileContext)
    (info : RuleInfo) (severity : Severity) : Option RuleFault :=
  (Progress.diagnoseAll file info severity reaction.reports).2.or reaction.fault

/-- Whether a reaction of a rule ends in a fault, and in which, is decided by the listener
and the node. -/
def Rule.FaultsBy (rule : Rule) (file : FileContext) (due : Nat → NodeId → RuleFault → Prop) :
    Prop :=
  ∀ index listener, rule.listeners[index]? = some listener →
    ∀ severity earlier state node fault,
      (listener.react file earlier state node).fault? file rule.info severity = some fault ↔
        due index node fault

/-- The walk has an event for which a reaction of a rule is due to end in a fault. -/
def Rule.IsDue (rule : Rule) (file : FileContext) (due : Nat → NodeId → RuleFault → Prop)
    (fault : RuleFault) : Prop :=
  ∃ event ∈ file.tree.walk, ∃ index listener, rule.listeners[index]? = some listener ∧
    listener.trigger.fires file.tree event = true ∧ due index event.node fault

namespace RuleRun

theorem fault?_invoke {run : RuleRun} (hdue : run.configured.rule.FaultsBy file due)
    {invocation : Invocation} {listener : Listener run.configured.rule.State}
    (hlistener : run.configured.rule.listeners[invocation.listener]? = some listener) :
    (run.invoke file invocation).fault? = some fault ↔
      due invocation.listener invocation.event.node fault := by
  rw [← hdue _ _ hlistener run.configured.severity run.progress.diagnostics run.progress.state,
    invoke]
  simp only [hlistener]
  rfl

theorem fault?_replay_append_singleton {configured : ConfiguredRule}
    (hdue : configured.rule.FaultsBy file due) {earlier : List Invocation} {last : Invocation}
    (hlast : last.listener < configured.rule.listeners.length) :
    (replay file configured (earlier ++ [last])).fault? = some fault ↔
      due last.listener last.event.node fault := by
  rw [replay_append_singleton]
  have hconfigured : (replay file configured earlier).configured = configured :=
    configured_replay configured earlier
  generalize replay file configured earlier = run at hconfigured
  subst hconfigured
  exact fault?_invoke hdue (List.getElem?_eq_getElem hlast)

end RuleRun

section Alone

variable {configured : ConfiguredRule} (hdue : configured.rule.FaultsBy file due)

include hdue

/-- A rule by itself can have no other fault than one that is due. -/
theorem isDue_of_fault?_alone (hfault : (RuleRun.alone file configured).fault? = some fault) :
    configured.rule.IsDue file due fault := by
  have haccounts := PlainRun.accounts_ofRules file [configured]
  have hconfigured : [configured][0]? = some configured := rfl
  have hreplay : RuleRun.alone file configured = _ := PlainRun.alone_eq_replay hconfigured
  cases hinvocations : (PlainRun.ofRules file [configured]).invocationsOf 0
    using List.reverseRecOn with
  | nil =>
      rw [hreplay, hinvocations] at hfault
      cases hfault
  | append_singleton earlier last =>
      have hlast : last ∈ (PlainRun.ofRules file [configured]).invocationsOf 0 := by
        simp [hinvocations]
      obtain ⟨hmem, hrule⟩ := PlainRun.mem_invocationsOf_iff.mp hlast
      obtain ⟨found, hfound, listener, hlistener, hfires⟩ := haccounts.fires last hmem
      rw [hrule] at hfound
      obtain rfl : configured = found := Option.some.inj hfound
      have hlt := (List.getElem?_eq_some_iff.mp hlistener).1
      rw [hreplay, hinvocations, RuleRun.fault?_replay_append_singleton hdue hlt] at hfault
      exact ⟨last.event, event_mem_walk (haccounts.sublist.subset hmem), last.listener, listener,
        hlistener, hfires, hfault⟩

/-- A rule by itself for which a fault is due ends in a fault. -/
theorem fault?_alone_ne_none (hisDue : configured.rule.IsDue file due fault) :
    (RuleRun.alone file configured).fault? ≠ none := by
  intro hnone
  obtain ⟨event, hevent, index, listener, hlistener, hfires, hfault⟩ := hisDue
  let invocation : Invocation := ⟨⟨0, index⟩, event⟩
  have hinvocationFires : invocation.Fires [configured] file.tree :=
    ⟨configured, rfl, listener, hlistener, hfires⟩
  have hmem : invocation ∈ (PlainRun.ofRules file [configured]).invocations := by
    apply (PlainRun.accounts_ofRules file [configured]).complete invocation
      (mem_offers hevent hinvocationFires) hinvocationFires
    intro rule hrule
    rw [PlainRun.rules_ofRules] at hrule
    obtain rfl : RuleRun.alone file configured = rule := Option.some.inj hrule
    exact hnone
  obtain ⟨earlier, rest, hsplit⟩ :=
    List.append_of_mem (PlainRun.mem_invocationsOf_iff.mpr ⟨hmem, rfl⟩)
  have hinitial : earlier ++ [invocation] <+:
      (PlainRun.ofRules file [configured]).invocationsOf 0 := by
    rw [hsplit]
    exact ⟨rest, by rw [List.append_assoc, List.singleton_append]⟩
  have hlt := (List.getElem?_eq_some_iff.mp hlistener).1
  have hended : (RuleRun.replay file configured (earlier ++ [invocation])).fault? = some fault :=
    (RuleRun.fault?_replay_append_singleton hdue hlt).mpr hfault
  have hne : (RuleRun.replay file configured (earlier ++ [invocation])).fault? ≠ none := by
    rw [hended]
    exact Option.some_ne_none fault
  have hconfigured : [configured][0]? = some configured := rfl
  have hlast := PlainRun.eq_of_fault?_ne_none hconfigured hinitial hne
  rw [PlainRun.alone_eq_replay hconfigured, hlast, hended] at hnone
  cases hnone

end Alone

end ReactiveLint
