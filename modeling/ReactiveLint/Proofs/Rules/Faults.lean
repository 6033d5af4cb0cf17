import ReactiveLint.Proofs.Engine.Independence
import ReactiveLint.Proofs.Rules.Alias
import ReactiveLint.Proofs.Rules.Fixing
import ReactiveLint.Proofs.Rules.Plain

/-!
# Faults of the rule set

A rule of the rule set ends in a fault in two ways only.  `prefer-observer` does on
separate handlers of which the last one ends before the first one, since it takes them to
be in the order of the text.  `just` does when scopes from outside lead it to a use that
the tree does not have.
-/

namespace ReactiveLint

open Rules

variable {rule : Rule} {file : FileContext} {fault : RuleFault}

/-- A listener that reports a node, whatever its rule has seen before. -/
def Listener.Reports {State : Type} (listener : Listener State) (file : FileContext)
    (node : NodeId) : Prop :=
  ∀ earlier state, (listener.react file earlier state node).reports ≠ []

/-- How a reaction of a rule of the rule set ends in a fault. -/
inductive Rule.Trips (rule : Rule) (file : FileContext) (index : Nat) (node : NodeId) :
    RuleFault → Prop
  /-- Separate handlers are reported that run backward. -/
  | backward {listener : Listener rule.State} {first last : NodeId}
      (hname : rule.name = preferObserverInfo.name)
      (hlistener : rule.listeners[index]? = some listener) (hreports : listener.Reports file node)
      (hback : RunsBackward file.tree node first last) :
      rule.Trips file index node (backwardFault file.tree first last)
  /-- An alias has a use outside of the tree. -/
  | foreign {uses : List NodeId} {use : NodeId} (hname : rule.name = justInfo.name)
      (huses : aliasUses? file node = some uses) (huse : use ∈ uses)
      (hforeign : file.tree.size ≤ use) :
      rule.Trips file index node .foreignNode

theorem name_preferObserver_ne_just : preferObserverInfo.name ≠ justInfo.name := by decide

/-! ## The alias of `of` -/

theorem length_takeWhile_contains_lt_iff {tree : Tree} {uses : List NodeId} :
    (uses.takeWhile tree.contains).length < uses.length ↔ ∃ use ∈ uses, tree.size ≤ use := by
  have hinitial : uses.takeWhile tree.contains <+: uses := List.takeWhile_prefix _
  rw [← not_iff_not, Nat.not_lt]
  push Not
  constructor
  · intro hlength use huse
    have hall := List.takeWhile_eq_self_iff.mp (hinitial.eq_of_length_le hlength)
    exact of_decide_eq_true (hall use huse)
  · intro hall
    have hself : uses.takeWhile tree.contains = uses :=
      List.takeWhile_eq_self_iff.mpr fun use huse => decide_eq_true (hall use huse)
    rw [hself]

theorem fault_checkAlias_iff {specifier : NodeId} (earlier : List Diagnostic) (state : Unit) :
    (checkAlias file earlier state specifier).fault = some fault ↔
      fault = .foreignNode ∧ ∃ uses, aliasUses? file specifier = some uses ∧
        ∃ use ∈ uses, file.tree.size ≤ use := by
  rw [checkAlias, aliasUses?]
  cases file.tree.child? specifier "imported" with
  | none => simp
  | some imported =>
      cases file.tree.child? specifier "local" with
      | none => simp
      | some localId =>
          simp only
          split
          · simp only [length_takeWhile_contains_lt_iff, Option.some.injEq, exists_eq_left']
            split <;> simp_all [eq_comm]
          · simp

theorem isSound_checkAlias (htree : file.tree.IsBuilt) (earlier : List Diagnostic) (state : Unit)
    (node : NodeId) : ∀ report ∈ (checkAlias file earlier state node).reports,
      report.IsSound justInfo file.tree := by
  rw [reports_checkAlias]
  refine List.forall_mem_map.mpr fun rename _ => ?_
  have hplain : (file.tree.report "forbidden" rename.node).IsSound justInfo file.tree :=
    Report.isSound_report htree (by decide) rename.node
  exact hplain.fixedBy rfl (htree.makes_replaceNode ..)

theorem faultsBy_just (hjust : rule.IsBuiltIn) (hname : rule.name = justInfo.name)
    (htree : file.tree.IsBuilt) : rule.FaultsBy file (rule.Trips file) := by
  obtain ⟨trigger, rfl⟩ := Rules.exists_trigger hjust hname
  intro index listener hlistener severity earlier state node fault
  obtain rfl : ⟨trigger, checkAlias⟩ = listener := by
    cases index with
    | zero => exact Option.some.inj hlistener
    | succ index => cases hlistener
  have haccepted : ∀ report ∈ (checkAlias file earlier state node).reports,
      report.IsAccepted justInfo file.tree.source := fun report hreport =>
    (isSound_checkAlias htree earlier state node report hreport).toIsAccepted
  rw [Reaction.fault?, Progress.diagnoseAll_snd_eq_none haccepted, Option.none_or,
    fault_checkAlias_iff]
  constructor
  · rintro ⟨rfl, uses, huses, use, huse, hforeign⟩
    exact .foreign rfl huses huse hforeign
  · intro htrips
    cases htrips with
    | backward hname => exact absurd hname.symm name_preferObserver_ne_just
    | foreign _ huses huse hforeign => exact ⟨rfl, _, huses, _, huse, hforeign⟩

/-! ## Observers -/

theorem checkHandlers_of_mem {allowNext : Bool} {check : Check}
    (hcheck : check ∈ [checkTapHandlers allowNext, checkSubscribeHandlers allowNext])
    (file : FileContext) (call : NodeId) :
    check file call = [] ∨
      ∃ reported, check file call = checkHandlers allowNext file call reported := by
  simp only [List.mem_cons, List.not_mem_nil, or_false] at hcheck
  rcases hcheck with rfl | rfl
  · simp only [checkTapHandlers]
    split
    next callee _ => exact .inr ⟨callee, rfl⟩
    · exact .inl rfl
  · simp only [checkSubscribeHandlers]
    split
    · split
      next property _ _ => exact .inr ⟨property, rfl⟩
      · exact .inl rfl
    · exact .inl rfl

/-- The listeners of the rule check handlers for one value of its option. -/
theorem exists_listeners_preferObserver {options : Json}
    (hrule : preferObserver.make options = .ok rule) :
    ∃ allowNext, ∃ listeners : List (Listener Unit),
      rule = ⟨preferObserverInfo, Unit, (), listeners⟩ ∧ ∀ listener ∈ listeners,
        ∃ check ∈ [checkTapHandlers allowNext, checkSubscribeHandlers allowNext],
          check.handler = listener.react := by
  simp only [preferObserver, BuiltInRule.ofSettings] at hrule
  split at hrule
  · next allowNext _ =>
    obtain ⟨listeners, rfl, hreacts⟩ := Rule.exists_listeners (Options.makeRule_eq_ok hrule)
    refine ⟨allowNext, listeners, rfl, fun listener hlistener => ?_⟩
    have hreact : listener.react ∈ listeners.map (·.react) := List.mem_map_of_mem hlistener
    rw [hreacts, List.map_map] at hreact
    simpa [eq_comm] using hreact
  · cases hrule

theorem faultsBy_preferObserver {options : Json} (hrule : preferObserver.make options = .ok rule)
    (htree : file.tree.IsBuilt) : rule.FaultsBy file (rule.Trips file) := by
  obtain ⟨allowNext, listeners, rfl, hchecks⟩ := exists_listeners_preferObserver hrule
  intro index listener hlistener severity earlier state call fault
  obtain ⟨check, hcheck, hreact⟩ := hchecks listener (List.mem_of_getElem? hlistener)
  have hreports : listener.Reports file call ↔ check file call ≠ [] := by
    rw [Listener.Reports, ← hreact]
    exact ⟨fun hall => hall [] (), fun hne _ _ => hne⟩
  have hfault : (listener.react file earlier state call).fault? file preferObserverInfo severity =
      some fault ↔ check file call ≠ [] ∧ ∃ first last, RunsBackward file.tree call first last ∧
        fault = backwardFault file.tree first last := by
    rw [← hreact, Reaction.fault?]
    change Option.or (Progress.diagnoseAll file preferObserverInfo severity
      (check file call)).2 none = some fault ↔ _
    rw [Option.or_none]
    rcases checkHandlers_of_mem hcheck file call with hnone | ⟨reported, hcheck⟩
    · simp [hnone, Progress.diagnoseAll]
    · rw [hcheck]
      exact diagnoseAll_checkHandlers_iff htree
  rw [hfault]
  constructor
  · rintro ⟨hne, first, last, hback, rfl⟩
    exact .backward rfl hlistener (hreports.mpr hne) hback
  · intro htrips
    cases htrips with
    | backward _ hother hother' hback =>
        obtain rfl := Option.some.inj (hlistener.symm.trans hother)
        exact ⟨hreports.mp hother', _, _, hback, rfl⟩
    | foreign hname => exact absurd hname name_preferObserver_ne_just

/-! ## All rules -/

theorem eq_or_isSound_of_mem {entry : BuiltInRule} (hentry : entry ∈ ruleSet) :
    entry = just ∨ entry = preferObserver ∨ entry.IsSound := by
  have hall : ∀ entry ∈ ruleSet, entry = just ∨ entry = preferObserver ∨ entry.IsSound := by
    simp [ruleSet]
  exact hall entry hentry

/-- The two rules that need a look of their own, and the others. -/
theorem Rule.IsBuiltIn.cases (hbuiltIn : rule.IsBuiltIn) :
    rule.name = justInfo.name ∨ (∃ options, preferObserver.make options = .ok rule) ∨
      rule.name ≠ justInfo.name ∧ rule.name ≠ preferObserverInfo.name ∧ rule.IsSound := by
  obtain ⟨entry, options, hfind, hmake⟩ := hbuiltIn.exists_entry
  have hname : entry.info.name = rule.name := congrArg RuleInfo.name (entry.info_eq hmake).symm
  by_cases hjust : rule.name = justInfo.name
  · exact .inl hjust
  by_cases hobserver : rule.name = preferObserverInfo.name
  · rw [hobserver] at hfind
    obtain rfl : preferObserver = entry := Option.some.inj (Eq.trans rfl hfind)
    exact .inr (.inl ⟨options, hmake⟩)
  rcases eq_or_isSound_of_mem (List.mem_of_find?_eq_some hfind) with rfl | rfl | hsound
  · exact absurd hname.symm hjust
  · exact absurd hname.symm hobserver
  · exact .inr (.inr ⟨hjust, hobserver, hsound options rule hmake⟩)

/-- The history of a rule of the rule set does not matter to its faults. -/
theorem Rule.IsBuiltIn.faultsBy (hbuiltIn : rule.IsBuiltIn) (htree : file.tree.IsBuilt) :
    rule.FaultsBy file (rule.Trips file) := by
  rcases hbuiltIn.cases with hjust | ⟨options, hmake⟩ | ⟨hjust, hobserver, hsound⟩
  · exact faultsBy_just hbuiltIn hjust htree
  · exact faultsBy_preferObserver hmake htree
  · intro index listener hlistener severity earlier state node fault
    rw [hsound.faultsBy htree index listener hlistener, false_iff]
    intro htrips
    cases htrips with
    | backward hname => exact hobserver hname
    | foreign hname => exact hjust hname

/-! ## Faults among the errors -/

namespace Linter

variable {linter : Linter} {file : SourceFile}

theorem ruleFailed_mem_iff {name path message : String} :
    .ruleFailed name path message ∈ (linter.lintFile file).errors ↔
      path = file.path ∧ ∃ configured ∈ activeOn linter file, configured.rule.name = name ∧
        ∃ fault, fault.message = message ∧
          (RuleRun.alone file.context configured).fault? = some fault := by
  rw [lintFile, (linter.perm_errors_lintWith _ file).mem_iff]
  have hmissing : .ruleFailed name path message ∉ linter.missingTypes file := by
    simp [missingTypes]
  have hinfo : ∀ configured, (RuleRun.alone file.context configured).info.name =
      configured.rule.name := fun configured =>
    congrArg (·.rule.name) (PlainRun.configured_alone configured)
  rw [List.mem_append, or_iff_right hmissing]
  simp only [List.mem_flatMap, List.mem_map, Option.mem_toList, ConfiguredRule.faultyIn?,
    RuleRun.faulty?, Option.map_eq_some_iff, FaultyRule.error, hinfo]
  constructor
  · rintro ⟨configured, hconfigured, _, ⟨fault, hfault, rfl⟩, herror⟩
    obtain ⟨hname, hpath, hmessage⟩ := LintError.ruleFailed.inj herror
    exact ⟨hpath.symm, configured, hconfigured, hname, fault, hmessage, hfault⟩
  · rintro ⟨rfl, configured, hconfigured, rfl, fault, rfl, hfault⟩
    exact ⟨configured, hconfigured, _, ⟨fault, hfault, rfl⟩, rfl⟩

end Linter

/-- The errors of linting a file with rules of the rule set.  Each of the faults among them
was due in one of the two ways, and every active rule for which a fault is due has one.
Where the scopes are those of the tree, no rule fails exactly when `prefer-observer`
reports no separate handlers that run backward. -/
theorem lintFile_faults (file : SourceFile) {drafts : List NodeDraft} {root : NodeId}
    {source : String} (hbuild : Tree.build? drafts root source = .ok file.tree) (linter : Linter)
    (hbuiltIn : ∀ configured ∈ linter.rules, configured.rule.IsBuiltIn) :
    (∀ name path message, .ruleFailed name path message ∈ (linter.lintFile file).errors →
      path = file.path ∧ ∃ configured ∈ activeOn linter file, configured.rule.name = name ∧
        ∃ fault, fault.message = message ∧
          configured.rule.IsDue file.context (configured.rule.Trips file.context) fault) ∧
    (∀ configured ∈ activeOn linter file, ∀ fault,
      configured.rule.IsDue file.context (configured.rule.Trips file.context) fault →
        ∃ message,
          .ruleFailed configured.rule.name file.path message ∈ (linter.lintFile file).errors) ∧
    (file.scopes = none →
      ((∀ name path message, .ruleFailed name path message ∉ (linter.lintFile file).errors) ↔
        ∀ configured ∈ activeOn linter file, configured.rule.name = preferObserverInfo.name →
          ∀ event ∈ file.tree.walk, ∀ listener ∈ configured.rule.listeners,
            listener.trigger.fires file.tree event = true →
              listener.Reports file.context event.node →
                ∀ first last, ¬ RunsBackward file.tree event.node first last)) := by
  have htree := Tree.isBuilt_of_build? hbuild
  have hdue : ∀ configured ∈ activeOn linter file, configured.rule.FaultsBy file.context
      (configured.rule.Trips file.context) := fun configured hmem =>
    (hbuiltIn configured (Linter.isActive_of_mem hmem)).faultsBy htree
  have hfaults : ∀ name path message,
      .ruleFailed name path message ∈ (linter.lintFile file).errors →
        path = file.path ∧ ∃ configured ∈ activeOn linter file, configured.rule.name = name ∧
          ∃ fault, fault.message = message ∧
            configured.rule.IsDue file.context (configured.rule.Trips file.context) fault := by
    intro name path message hmem
    obtain ⟨hpath, configured, hconfigured, hname, fault, hmessage, hfault⟩ :=
      Linter.ruleFailed_mem_iff.mp hmem
    exact ⟨hpath, configured, hconfigured, hname, fault, hmessage,
      isDue_of_fault?_alone (hdue configured hconfigured) hfault⟩
  have herrors : ∀ configured ∈ activeOn linter file, ∀ fault,
      configured.rule.IsDue file.context (configured.rule.Trips file.context) fault →
        ∃ message,
          .ruleFailed configured.rule.name file.path message ∈ (linter.lintFile file).errors := by
    intro configured hconfigured fault hisDue
    obtain ⟨other, hother⟩ :=
      Option.ne_none_iff_exists'.mp (fault?_alone_ne_none (hdue configured hconfigured) hisDue)
    exact ⟨other.message, Linter.ruleFailed_mem_iff.mpr
      ⟨rfl, configured, hconfigured, rfl, other, rfl, hother⟩⟩
  refine ⟨hfaults, herrors, fun hscopes => ⟨?_, ?_⟩⟩
  · intro hnone configured hconfigured hname event hevent listener hlistener hfires hreports first
      last hback
    obtain ⟨index, hindex⟩ := List.mem_iff_getElem?.mp hlistener
    obtain ⟨message, hmem⟩ := herrors configured hconfigured _
      ⟨event, hevent, index, listener, hindex, hfires, .backward hname hindex hreports hback⟩
    exact hnone _ _ _ hmem
  · intro hforward name path message hmem
    obtain ⟨-, configured, hconfigured, -, fault, -, hisDue⟩ := hfaults name path message hmem
    obtain ⟨event, hevent, index, listener, hindex, hfires, htrips⟩ := hisDue
    cases htrips with
    | backward hname hother hreports hback =>
        obtain rfl := Option.some.inj (hindex.symm.trans hother)
        exact hforward configured hconfigured hname event hevent listener
          (List.mem_of_getElem? hindex) hfires hreports _ _ hback
    | foreign _ huses huse hforeign =>
        exact absurd (lt_size_of_mem_aliasUses hscopes huses huse) (Nat.not_lt_of_le hforeign)

/-! ## Arguments that run backward -/

/-- The arena of `backwardText`, with the arguments of `tap` in the other order. -/
def backwardArena : List NodeDraft :=
  [ ⟨.identifier, ⟨0, 1⟩, [("name", .value (.text "x"))]⟩
  , ⟨.identifier, ⟨2, 6⟩, [("name", .value (.text "pipe"))]⟩
  , ⟨.memberExpression, ⟨0, 6⟩, [("object", .node 0), ("property", .node 1)]⟩
  , ⟨.identifier, ⟨7, 10⟩, [("name", .value (.text "tap"))]⟩
  , ⟨.identifier, ⟨11, 12⟩, [("name", .value (.text "f"))]⟩
  , ⟨.identifier, ⟨14, 15⟩, [("name", .value (.text "g"))]⟩
  , ⟨.callExpression, ⟨7, 16⟩, [("callee", .node 3), ("arguments", .list [some 5, some 4])]⟩
  , ⟨.callExpression, ⟨0, 17⟩, [("callee", .node 2), ("arguments", .list [some 6])]⟩
  , ⟨.expressionStatement, ⟨0, 18⟩, [("expression", .node 7)]⟩
  , ⟨.program, ⟨0, 18⟩, [("body", .list [some 8])]⟩ ]

def backwardText : String := "x.pipe(tap(f, g));"

def backwardFile : SourceFile where
  path := "a.ts"
  tree := (Tree.build? backwardArena 9 backwardText).toOption.getD default
  types := some {}

def backwardMessage : String :=
  "prefer-observer: invalid fix: Edit Span \x7b start: 15, end: 12 \x7d is outside the source " ++
    "text (18 bytes)"

set_option maxRecDepth 100000 in
theorem backward_evaluated :
    (Tree.build? backwardArena 9 backwardText).isOk = true ∧
    ((defaultLinter ["prefer-observer"]).lintFile backwardFile).errors =
      [.ruleFailed "prefer-observer" "a.ts" backwardMessage] := by
  decide +kernel

theorem build?_backwardArena :
    Tree.build? backwardArena 9 backwardText = .ok backwardFile.tree :=
  eq_ok_of_isOk backward_evaluated.1 default

theorem isBuiltIn_of_mem_observerLinter :
    ∀ configured ∈ (defaultLinter ["prefer-observer"]).rules, configured.rule.IsBuiltIn :=
  isBuiltIn_of_mem_defaultLinter (by simp [overlapNames])

theorem isDue_backwardFile :
    ∃ configured ∈ activeOn (defaultLinter ["prefer-observer"]) backwardFile,
      configured.rule.name = "prefer-observer" ∧
        ∃ fault, fault.message = backwardMessage ∧ configured.rule.IsDue backwardFile.context
          (configured.rule.Trips backwardFile.context) fault := by
  have hfaults := lintFile_faults backwardFile build?_backwardArena
    (defaultLinter ["prefer-observer"]) isBuiltIn_of_mem_observerLinter
  have herror : LintError.ruleFailed "prefer-observer" "a.ts" backwardMessage ∈
      ((defaultLinter ["prefer-observer"]).lintFile backwardFile).errors := by
    rw [backward_evaluated.2]
    exact List.mem_singleton_self _
  exact (hfaults.1 _ _ _ herror).2

/-- Linting with rules of the rule set can have an error that is a fault. -/
theorem not_forall_ruleFailed_not_mem :
    ¬ ∀ (file : SourceFile) (drafts : List NodeDraft) (root : NodeId) (source : String),
      Tree.build? drafts root source = .ok file.tree → file.scopes = none →
      ∀ linter : Linter, (∀ configured ∈ linter.rules, configured.rule.IsBuiltIn) →
      ∀ name path message, .ruleFailed name path message ∉ (linter.lintFile file).errors := by
  intro hall
  apply hall backwardFile backwardArena 9 backwardText build?_backwardArena rfl
    (defaultLinter ["prefer-observer"]) isBuiltIn_of_mem_observerLinter "prefer-observer" "a.ts"
    backwardMessage
  rw [backward_evaluated.2]
  exact List.mem_singleton_self _

end ReactiveLint
