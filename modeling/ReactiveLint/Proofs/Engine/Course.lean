import ReactiveLint.Proofs.Engine.Independence
import ReactiveLint.Proofs.Rules.Sound

/-!
# The course of a rule

A rule that never ends in a fault, and that does not look at what it has reported, goes
through a file by its state.  `Course` has this state and the reports that the rule has made;
a run of rules has, at every point of the walk, this state and the diagnoses of these reports
for the rule, whatever the other rules are.
-/

namespace ReactiveLint

variable {State : Type} {file : FileContext} {info : RuleInfo} {severity : Severity}
  {rule : Rule} {event : Event}

/-- A handler that does not look at what its rule has reported before. -/
def Handler.IsForgetful (react : Handler State) : Prop :=
  ∀ file earlier state node, react file earlier state node = react file [] state node

def Rule.IsForgetful (rule : Rule) : Prop :=
  ∀ listener ∈ rule.listeners, Handler.IsForgetful listener.react

/-- The state of a rule in a file, and what the rule has reported in it. -/
structure Course (State : Type) where
  state : State
  reports : List Report := []

namespace Course

/-- What a reaction of a listener to a node makes of a course. -/
def react (file : FileContext) (node : NodeId) (course : Course State)
    (listener : Listener State) : Course State :=
  let reaction := listener.react file [] course.state node
  { state := reaction.state, reports := course.reports ++ reaction.reports }

/-- Takes a course through an event: those listeners react whose triggers fire, in order. -/
def attend (file : FileContext) (listeners : List (Listener State)) (course : Course State)
    (event : Event) : Course State :=
  (listeners.filter (·.trigger.fires file.tree event)).foldl (react file event.node) course

/-- The course of a rule after some events of a file. -/
def after (file : FileContext) (rule : Rule) (seen : List Event) : Course rule.State :=
  seen.foldl (attend file rule.listeners) ⟨rule.start, []⟩

@[simp]
theorem attend_nil (course : Course State) : attend file [] course event = course := rfl

/-- Listeners attend one after another. -/
theorem attend_cons (listener : Listener State) (listeners : List (Listener State))
    (course : Course State) :
    attend file (listener :: listeners) course event =
      attend file listeners
        (if listener.trigger.fires file.tree event then course.react file event.node listener
          else course) event := by
  rw [attend, List.filter_cons]
  split <;> rfl

theorem after_append_singleton (file : FileContext) (rule : Rule) (seen : List Event)
    (event : Event) :
    after file rule (seen ++ [event]) =
      attend file rule.listeners (after file rule seen) event := by
  rw [after, List.foldl_append]
  rfl

end Course

/-- Diagnostics of reports, one of each, in order. -/
def Report.AreDiagnosed (file : FileContext) (info : RuleInfo) (severity : Severity) :
    List Report → List Diagnostic → Prop :=
  List.Forall₂ fun report diagnostic =>
    report.IsDiagnosis info severity file.path file.tree.source diagnostic

/-- Diagnostics of plain reports, one for each of some nodes, on a place that the node has. -/
def Diagnostic.AreOn (file : FileContext) (info : RuleInfo) (severity : Severity)
    (messageId : String) (place : NodeId → Option NodeId) :
    List NodeId → List Diagnostic → Prop :=
  List.Forall₂ fun node diagnostic => ∃ spot, place node = some spot ∧
    (file.tree.report messageId spot).IsDiagnosis info severity file.path file.tree.source diagnostic

/-- Reports on the places of some nodes are diagnosed on these. -/
theorem Report.AreDiagnosed.areOn {messageId : String} {place : NodeId → Option NodeId}
    {nodes : List NodeId} {diagnostics : List Diagnostic}
    (hplaces : ∀ node ∈ nodes, (place node).isSome)
    (hdiagnosed : Report.AreDiagnosed file info severity
      (nodes.flatMap fun node => (place node).toList.map (file.tree.report messageId))
      diagnostics) :
    Diagnostic.AreOn file info severity messageId place nodes diagnostics := by
  induction nodes generalizing diagnostics with
  | nil =>
      cases hdiagnosed
      exact .nil
  | cons node nodes ih =>
      obtain ⟨hnode, hnodes⟩ := List.forall_mem_cons.mp hplaces
      obtain ⟨spot, hspot⟩ := Option.isSome_iff_exists.mp hnode
      rw [List.flatMap_cons, hspot] at hdiagnosed
      cases hdiagnosed with
      | cons hfirst hrest => exact .cons ⟨spot, hspot, hfirst⟩ (ih hnodes hrest)

/-- Reports that start at different places, in this order, have their diagnostics in order. -/
theorem Report.AreDiagnosed.inOrder {reports sorted : List Report} {diagnostics : List Diagnostic}
    (hdiagnosed : AreDiagnosed file info severity reports diagnostics)
    (hperm : reports.Perm sorted)
    (hsorted : sorted.Pairwise fun left right => left.span.start < right.span.start) :
    AreDiagnosed file info severity sorted (Diagnostic.inOrder diagnostics) := by
  obtain ⟨found, hfound, hfoundPerm⟩ :=
    List.perm_comp_forall₂ (StableSort.perm_sort Diagnostic.notAfter diagnostics) hdiagnosed.flip
  have hstarts : List.Forall₂ (fun start start' => start = start')
      ((Diagnostic.inOrder diagnostics).map (·.location.span.start))
      (found.map (·.span.start)) := by
    rw [List.forall₂_map_left_iff, List.forall₂_map_right_iff]
    refine hfound.imp fun diagnostic report hdiagnosis => ?_
    rw [hdiagnosis.location_eq]
    rfl
  rw [List.forall₂_eq_eq_eq] at hstarts
  have hordered : found.Pairwise fun left right => left.span.start ≤ right.span.start := by
    rw [← List.pairwise_map (f := fun report : Report => report.span.start), ← hstarts,
      List.pairwise_map]
    exact Diagnostic.pairwise_inOrder diagnostics
  have hstartsApart : (sorted.map (·.span.start)).Nodup :=
    List.pairwise_map.mpr (hsorted.imp Nat.ne_of_lt)
  have hsame := hfoundPerm.trans hperm
  obtain rfl : found = sorted := by
    refine hsame.eq_of_pairwise ?_ hordered (hsorted.imp Nat.le_of_lt)
    intro left right hleft hright hle hge
    exact List.inj_on_of_nodup_map hstartsApart (hsame.subset hleft) hright (Nat.le_antisymm hle hge)
  exact hfound.flip

theorem Diagnostic.AreOn.exists_mem {messageId : String} {place : NodeId → Option NodeId}
    {nodes : List NodeId} {diagnostics : List Diagnostic} {node spot : NodeId}
    (hon : AreOn file info severity messageId place nodes diagnostics) (hnode : node ∈ nodes)
    (hspot : place node = some spot) :
    ∃ diagnostic ∈ diagnostics, (file.tree.report messageId spot).IsDiagnosis info severity
      file.path file.tree.source diagnostic := by
  induction hon with
  | nil => cases hnode
  | @cons first diagnostic nodes diagnostics hfirst _ ih =>
      rcases List.mem_cons.mp hnode with rfl | hnode
      · obtain ⟨spot', hspot', hdiagnosis⟩ := hfirst
        obtain rfl := Option.some.inj (hspot.symm.trans hspot')
        exact ⟨diagnostic, List.mem_cons_self, hdiagnosis⟩
      · obtain ⟨other, hother, hdiagnosis⟩ := ih hnode
        exact ⟨other, List.mem_cons_of_mem _ hother, hdiagnosis⟩

/-- What a rule has done without a fault, as its course has it. -/
structure Progress.Follows (progress : Progress State) (course : Course State)
    (file : FileContext) (info : RuleInfo) (severity : Severity) : Prop where
  state_eq : progress.state = course.state
  fault_eq : progress.fault = none
  diagnosed : Report.AreDiagnosed file info severity course.reports progress.diagnostics

namespace Progress.Follows

variable {progress : Progress State} {course : Course State}

theorem react (htree : file.tree.IsBuilt) {listener : Listener State}
    (hsound : Handler.IsSound listener.react info)
    (hforgetful : Handler.IsForgetful listener.react)
    (hfollows : progress.Follows course file info severity) (node : NodeId) :
    (progress.react file info severity node listener).Follows
      (course.react file node listener) file info severity := by
  have hreaction : listener.react file progress.diagnostics progress.state node =
      listener.react file [] course.state node := by
    rw [hforgetful file progress.diagnostics, hfollows.state_eq]
  obtain ⟨hfault, hreports⟩ := hsound file htree [] course.state node
  have haccepted := fun report hreport => (hreports report hreport).toIsAccepted
  obtain ⟨made, hmade⟩ : ∃ made, diagnoseAll file info severity
      (listener.react file [] course.state node).reports = (made, none) :=
    ⟨_, Prod.ext rfl (diagnoseAll_snd_eq_none haccepted)⟩
  refine ⟨?_, ?_, ?_⟩
  · simp only [Progress.react, hreaction, Course.react]
  · simp only [Progress.react, hreaction, hmade, hfault, Option.none_or]
  · simp only [Progress.react, hreaction, hmade, Course.react]
    exact List.rel_append hfollows.diagnosed (diagnoseAll_eq_none_iff.mp hmade)

theorem plain (hfollows : progress.Follows course file info severity) (evaluationCount : Nat) :
    ({ progress with evaluationCount } : Progress State).Follows course file info severity :=
  ⟨hfollows.state_eq, hfollows.fault_eq, hfollows.diagnosed⟩

end Progress.Follows

section Rules

variable (htree : file.tree.IsBuilt) (hsound : rule.IsSound) (hforgetful : rule.IsForgetful)

include htree hsound hforgetful

/-- An event takes a rule as far as it takes its course. -/
theorem RuleRun.exists_follows_attend {progress : Progress rule.State} {course : Course rule.State}
    (hfollows : progress.Follows course file rule.info severity) (event : Event) :
    ∃ next : Progress rule.State,
      RuleRun.attend file ⟨⟨rule, severity⟩, progress⟩ event = ⟨⟨rule, severity⟩, next⟩ ∧
        next.Follows (course.attend file rule.listeners event) file rule.info severity := by
  suffices hentries : ∀ (entries : List (Listener rule.State × Nat)),
      (∀ entry ∈ entries, rule.listeners[entry.2]? = some entry.1) →
      ∀ (progress : Progress rule.State) (course : Course rule.State),
        progress.Follows course file rule.info severity →
        ∃ next : Progress rule.State,
          entries.foldl (fun run entry => run.listen file event entry.2)
              (⟨⟨rule, severity⟩, progress⟩ : RuleRun) = ⟨⟨rule, severity⟩, next⟩ ∧
            next.Follows (((entries.map Prod.fst).filter (·.trigger.fires file.tree event)).foldl
              (Course.react file event.node) course) file rule.info severity by
    have hall := hentries rule.listeners.zipIdx
      (fun _ hentry => List.mem_zipIdx_iff_getElem?.mp hentry) progress course hfollows
    rwa [List.zipIdx_map_fst] at hall
  intro entries
  induction entries with
  | nil => exact fun _ progress course hfollows => ⟨progress, rfl, hfollows⟩
  | cons entry entries ih =>
      intro hentries progress course hfollows
      obtain ⟨hentry, hentries⟩ := List.forall_mem_cons.mp hentries
      have hlisten : RuleRun.listen file event ⟨⟨rule, severity⟩, progress⟩ entry.2 =
          if entry.1.trigger.fires file.tree event then
            ⟨⟨rule, severity⟩, progress.react file rule.info severity event.node entry.1⟩
          else ⟨⟨rule, severity⟩, progress⟩ := by
        simp only [RuleRun.listen, RuleRun.fault?, hentry, hfollows.fault_eq]
        rfl
      rw [List.foldl_cons, hlisten, List.map_cons, List.filter_cons]
      split
      · have hmem := List.mem_of_getElem? hentry
        exact ih hentries _ _
          (hfollows.react htree (hsound entry.1 hmem) (hforgetful entry.1 hmem) event.node)
      · exact ih hentries _ _ hfollows

theorem RuleRun.exists_follows_foldl (severity : Severity) (seen : List Event) :
    ∃ progress : Progress rule.State,
      seen.foldl (RuleRun.attend file) (.start ⟨rule, severity⟩) = ⟨⟨rule, severity⟩, progress⟩ ∧
        progress.Follows (.after file rule seen) file rule.info severity := by
  induction seen using List.reverseRecOn with
  | nil => exact ⟨_, rfl, rfl, rfl, .nil⟩
  | append_singleton seen event ih =>
      obtain ⟨progress, hprogress, hfollows⟩ := ih
      rw [List.foldl_append, hprogress, Course.after_append_singleton]
      exact exists_follows_attend htree hsound hforgetful hfollows event

/-- In a run of rules a rule has done, at every point, what its course has. -/
theorem FileRun.exists_follows {rules : List ConfiguredRule} {index : Nat}
    (hrule : rules[index]? = some ⟨rule, severity⟩) (seen : List Event) :
    ∃ progress : Progress rule.State,
      (seen.foldl (FileRun.step file) (.start rules)).rules[index]? =
          some ⟨⟨rule, severity⟩, progress⟩ ∧
        progress.Follows (.after file rule seen) file rule.info severity := by
  obtain ⟨alone, halone, hfollows⟩ :=
    RuleRun.exists_follows_foldl htree hsound hforgetful severity seen
  have hplain : ((seen.foldl (FileRun.step file) (.start rules)).rules.map RuleRun.plain)[index]? =
      some ⟨⟨rule, severity⟩, alone⟩ := by
    have hrun := (FileRun.serves_start rules).foldl file seen
    rw [FileRun.plain_start] at hrun
    have hrules := congrArg PlainRun.rules hrun
    rw [PlainRun.rules_foldl (PlainRun.configured_start rules), List.map_map] at hrules
    change (FileRun.plain _).rules[index]? = _
    rw [hrules, List.getElem?_map, hrule, ← halone]
    rfl
  rw [List.getElem?_map, Option.map_eq_some_iff] at hplain
  obtain ⟨⟨configured, progress⟩, hrun, hplain⟩ := hplain
  obtain ⟨rfl, hprogress⟩ := RuleRun.mk.inj hplain
  obtain rfl := eq_of_heq hprogress
  exact ⟨progress, hrun, hfollows.plain progress.evaluationCount⟩

/-- A rule whose course has come to plain reports on the places of some nodes has diagnosed
these, whatever the other rules of its run are. -/
theorem FileRun.exists_areOn {rules : List ConfiguredRule} {index : Nat}
    (hrule : rules[index]? = some ⟨rule, severity⟩) {state : rule.State} {nodes : List NodeId}
    {messageId : String} {place : NodeId → Option NodeId}
    (hafter : Course.after file rule file.tree.walk =
      ⟨state, nodes.flatMap fun node => (place node).toList.map (file.tree.report messageId)⟩)
    (hplaces : ∀ node ∈ nodes, (place node).isSome) :
    ∃ progress : Progress rule.State,
      (FileRun.ofRules file rules).rules[index]? = some ⟨⟨rule, severity⟩, progress⟩ ∧
        progress.fault = none ∧
        Diagnostic.AreOn file rule.info severity messageId place nodes progress.diagnostics := by
  obtain ⟨progress, hrun, hfollows⟩ :=
    exists_follows htree hsound hforgetful hrule file.tree.walk
  rw [hafter] at hfollows
  exact ⟨progress, hrun, hfollows.fault_eq, hfollows.diagnosed.areOn hplaces⟩

end Rules

end ReactiveLint
