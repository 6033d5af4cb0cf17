import ReactiveLint.Proofs.Data.Result
import ReactiveLint.Proofs.Pattern.Words
import ReactiveLint.Proofs.Rules.Calling
import ReactiveLint.Proofs.Rules.Checks
import ReactiveLint.Proofs.Rules.Plain

/-!
# Operators behind the last one

The rule about `takeUntil` reads the arguments of `pipe` from the back, once for each operator.
What it finds is the last argument that ends the stream: no other operator of the same `pipe` is
reported, and this one only if some argument behind it may not follow.
-/

namespace ReactiveLint.Rules

variable {file : FileContext} {tree : Tree} {settings : TakeUntilSettings}
  {pipe operator other argument : NodeId} {arguments after after' behind : List NodeId}
  {refused : Bool} {severity : Severity} {rule : Rule} {options : Json}

/-! ## The last ending operator -/

/-- Whether the name of an operator is among those that end a stream. -/
def endsStream (settings : TakeUntilSettings) (tree : Tree) (argument : NodeId) : Bool :=
  (operatorName? tree argument).any settings.ending.isMatch

/-- Whether an argument is a call of an operator that may come behind the last one. -/
def mayFollow (settings : TakeUntilSettings) (tree : Tree) (argument : NodeId) : Bool :=
  (operatorName? tree argument).any settings.allow.contains

/-- An operator ends the stream, and none of the arguments after it does. -/
structure IsLastEnding (settings : TakeUntilSettings) (tree : Tree) (arguments : List NodeId)
    (operator : NodeId) (after : List NodeId) : Prop where
  exists_split : ∃ before, arguments = before ++ operator :: after
  ends : endsStream settings tree operator = true
  none_after : ∀ argument ∈ after, endsStream settings tree argument = false

namespace IsLastEnding

theorem find?_reverse (hlast : IsLastEnding settings tree arguments operator after) :
    arguments.reverse.find? (endsStream settings tree) = some operator := by
  obtain ⟨before, rfl⟩ := hlast.exists_split
  rw [List.find?_eq_some_iff_append]
  refine ⟨hlast.ends, after.reverse, before.reverse, by simp, fun argument hargument => ?_⟩
  rw [hlast.none_after argument (List.mem_reverse.mp hargument)]
  rfl

/-- A list of arguments has one last ending operator at most. -/
theorem operator_eq (hlast : IsLastEnding settings tree arguments operator after)
    (hother : IsLastEnding settings tree arguments other after') : operator = other :=
  Option.some.inj (hlast.find?_reverse.symm.trans hother.find?_reverse)

theorem is_callExpression (hlast : IsLastEnding settings tree arguments operator after) :
    tree.is operator .callExpression = true := by
  have hends := hlast.ends
  rw [endsStream, operatorName?] at hends
  split at hends
  next hcall => exact hcall
  next => cases hends

theorem mem (hlast : IsLastEnding settings tree arguments operator after) :
    operator ∈ arguments := by
  obtain ⟨before, rfl⟩ := hlast.exists_split
  exact List.mem_append_right before List.mem_cons_self

end IsLastEnding

/-! ## Reading from the back -/

theorem isFollowed_cons_of_ends (hends : endsStream settings tree argument = true) :
    isFollowed settings tree operator refused (argument :: behind) =
      (refused && argument == operator) := by
  rw [isFollowed]
  rw [endsStream] at hends
  cases hname : operatorName? tree argument with
  | none => simp [hname] at hends
  | some name =>
      have hname : settings.ending.isMatch name = true := by simpa [hname] using hends
      simp [hname]

theorem isFollowed_cons_of_not_ends (hends : endsStream settings tree argument = false) :
    isFollowed settings tree operator refused (argument :: behind) =
      isFollowed settings tree operator (refused || !mayFollow settings tree argument) behind := by
  rw [isFollowed, mayFollow]
  rw [endsStream] at hends
  cases hname : operatorName? tree argument with
  | none => simp
  | some name =>
      have hname : settings.ending.isMatch name = false := by simpa [hname] using hends
      simp [hname]

/-- The last argument is the last ending operator if it ends the stream. -/
theorem isLastEnding_append_singleton_of_ends (hends : endsStream settings tree argument = true) :
    IsLastEnding settings tree (arguments ++ [argument]) operator after ↔
      argument = operator ∧ after = [] := by
  constructor
  · rintro ⟨⟨before, hsplit⟩, hoperator, hnone⟩
    rcases List.eq_nil_or_concat' after with rfl | ⟨behind, last, rfl⟩
    · exact ⟨List.singleton_inj.mp (List.append_inj_right' hsplit rfl), rfl⟩
    · rw [← List.cons_append, ← List.append_assoc] at hsplit
      obtain rfl := List.singleton_inj.mp (List.append_inj_right' hsplit rfl)
      rw [hnone argument (by simp)] at hends
      cases hends
  · rintro ⟨rfl, rfl⟩
    exact ⟨⟨arguments, rfl⟩, hends, List.forall_mem_nil _⟩

/-- A last argument that does not end the stream is after the last ending operator. -/
theorem isLastEnding_append_singleton_of_not_ends
    (hends : endsStream settings tree argument = false) :
    IsLastEnding settings tree (arguments ++ [argument]) operator after ↔
      ∃ others, after = others ++ [argument] ∧
        IsLastEnding settings tree arguments operator others := by
  constructor
  · rintro ⟨⟨before, hsplit⟩, hoperator, hnone⟩
    rcases List.eq_nil_or_concat' after with rfl | ⟨others, last, rfl⟩
    · obtain rfl := List.singleton_inj.mp (List.append_inj_right' hsplit rfl)
      rw [hoperator] at hends
      cases hends
    · rw [← List.cons_append, ← List.append_assoc] at hsplit
      obtain ⟨harguments, hlast⟩ := List.append_inj' hsplit rfl
      obtain rfl := List.singleton_inj.mp hlast
      exact ⟨others, rfl, ⟨before, harguments⟩, hoperator, fun other hother =>
        hnone other (List.mem_append_left _ hother)⟩
  · rintro ⟨others, rfl, ⟨before, rfl⟩, hoperator, hnone⟩
    refine ⟨⟨before, by simp⟩, hoperator, fun other hother => ?_⟩
    rcases List.mem_append.mp hother with hother | hother
    · exact hnone other hother
    · rw [List.mem_singleton.mp hother, hends]

/-- The scan stops at the first ending operator from the back.  By then it has seen the arguments
after this operator, and what it carries along is whether one of them may not follow. -/
theorem isFollowed_iff :
    isFollowed settings tree operator refused behind = true ↔
      ∃ after, IsLastEnding settings tree behind.reverse operator after ∧
        (refused = true ∨ ∃ argument ∈ after, mayFollow settings tree argument = false) := by
  induction behind generalizing refused with
  | nil =>
      constructor
      · intro hfollowed
        cases hfollowed
      · rintro ⟨after, hlast, -⟩
        cases hlast.mem
  | cons argument behind ih =>
      rw [List.reverse_cons]
      cases hends : endsStream settings tree argument with
      | true =>
          simp only [isFollowed_cons_of_ends hends, isLastEnding_append_singleton_of_ends hends]
          constructor
          · intro hfollowed
            obtain ⟨hrefused, hself⟩ := Bool.and_eq_true_iff.mp hfollowed
            exact ⟨[], ⟨beq_iff_eq.mp hself, rfl⟩, .inl hrefused⟩
          · rintro ⟨_, ⟨rfl, rfl⟩, hrefused⟩
            simpa using hrefused
      | false =>
          have hcarry (after : List NodeId) :
              ((refused || !mayFollow settings tree argument) = true ∨
                ∃ other ∈ after, mayFollow settings tree other = false) ↔
              (refused = true ∨
                ∃ other ∈ after ++ [argument], mayFollow settings tree other = false) := by
            simp only [Bool.or_eq_true, Bool.not_eq_true', List.mem_append, List.mem_singleton,
              or_and_right, exists_or, exists_eq_left]
            exact or_assoc.trans (or_congr_right or_comm)
          simp only [isFollowed_cons_of_not_ends hends, ih, hcarry,
            isLastEnding_append_singleton_of_not_ends hends]
          constructor
          · rintro ⟨after, hlast, hrefused⟩
            exact ⟨after ++ [argument], ⟨after, rfl, hlast⟩, hrefused⟩
          · rintro ⟨_, ⟨after, rfl, hlast⟩, hrefused⟩
            exact ⟨after, hlast, hrefused⟩

/-! ## The check -/

/-- An operator in a call of `pipe` on an observable that ends the stream by its own name, with no
other such operator after it, but an argument that is no call of an operator that may follow. -/
structure IsFollowedEnding (file : FileContext) (settings : TakeUntilSettings)
    (pipe operator : NodeId) : Prop where
  isPipe : (calling file pipe).isPipe = true
  isNamed : ∃ callee name, file.tree.child? operator "callee" = some callee ∧
    file.tree.kind callee = .identifier ∧ file.tree.name? callee = some name ∧
      settings.ending.isMatch name = true
  isLast : ∃ after,
    IsLastEnding settings file.tree (file.tree.arguments pipe).ids operator after ∧
      ∃ argument ∈ after, mayFollow settings file.tree argument = false

/-- A call of `pipe` has at most one such operator. -/
theorem IsFollowedEnding.operator_eq (hoperator : IsFollowedEnding file settings pipe operator)
    (hother : IsFollowedEnding file settings pipe other) : operator = other := by
  obtain ⟨after, hlast, -⟩ := hoperator.isLast
  obtain ⟨after', hlast', -⟩ := hother.isLast
  exact hlast.operator_eq hlast'

theorem IsFollowedEnding.parent?_eq (hoperator : IsFollowedEnding file settings pipe operator)
    (htree : file.tree.IsBuilt) : file.tree.parent? operator = some pipe := by
  obtain ⟨after, hlast, -⟩ := hoperator.isLast
  exact htree.parent?_of_mem_list hlast.mem

/-- The selector of the rule, as it is read. -/
def endingSelector : Selector := .combine .child pipeSelector (.kind .callExpression)

/-- The name of an operator that is called by an identifier. -/
def plainName? (tree : Tree) (operator : NodeId) : Option String :=
  (tree.child? operator "callee").bind fun callee =>
    if tree.is callee .identifier then tree.name? callee else none

/-- What the check asks of an operator, beside the selector. -/
def endsUnsafely (file : FileContext) (settings : TakeUntilSettings) (operator : NodeId) : Bool :=
  (plainName? file.tree operator).any settings.ending.isMatch &&
    (file.tree.parent? operator).any fun pipe =>
      (file.tree.receiver? pipe).any (couldBe "Observable" file) &&
        isFollowed settings file.tree operator false (file.tree.arguments pipe).ids.reverse

theorem plainName?_eq_some_iff {name : String} :
    plainName? tree operator = some name ↔ ∃ callee, tree.child? operator "callee" = some callee ∧
      tree.kind callee = .identifier ∧ tree.name? callee = some name := by
  simp only [plainName?, Option.bind_eq_some_iff, Option.ite_none_right_eq_some, Tree.is,
    beq_iff_eq]

theorem checkEnding_eq :
    checkEnding settings file operator =
      if endsUnsafely file settings operator then
        (file.tree.child? operator "callee").toList.map (file.tree.report "forbidden")
      else [] := by
  cases hcallee : file.tree.child? operator "callee" with
  | none => simp [checkEnding, hcallee]
  | some callee =>
      cases hkind : file.tree.is callee .identifier with
      | false => simp [checkEnding, endsUnsafely, plainName?, hcallee, hkind]
      | true =>
          cases hname : file.tree.name? callee with
          | none => simp [checkEnding, endsUnsafely, plainName?, hcallee, hkind, hname]
          | some name =>
              cases hparent : file.tree.parent? operator <;>
                simp [checkEnding, endsUnsafely, plainName?, hcallee, hkind, hname, hparent,
                  and_assoc, apply_ite Option.toList]

theorem isMatch_and_endsUnsafely_iff (htree : file.tree.IsBuilt) :
    (endingSelector.isMatch file.tree operator && endsUnsafely file settings operator) = true ↔
      ∃ pipe, IsFollowedEnding file settings pipe operator := by
  have hfollowed (pipe : NodeId) :
      isFollowed settings file.tree operator false (file.tree.arguments pipe).ids.reverse = true ↔
        ∃ after, IsLastEnding settings file.tree (file.tree.arguments pipe).ids operator after ∧
          ∃ argument ∈ after, mayFollow settings file.tree argument = false := by
    simp only [isFollowed_iff, List.reverse_reverse, Bool.false_eq_true, false_or]
  simp only [endingSelector, endsUnsafely, Bool.and_eq_true, Selector.isMatch_child_iff,
    Selector.isMatch_kind, isMatch_pipeSelector, Option.any_eq_true, plainName?_eq_some_iff,
    hfollowed]
  constructor
  · rintro ⟨⟨-, pipe, hparent, hpipe⟩, ⟨name, ⟨callee, hcallee, hkind, hname⟩, hmatch⟩, pipe',
      hparent', htyped, hlast⟩
    obtain rfl := Option.some.inj (hparent.symm.trans hparent')
    have htyped : (calling file pipe).onObservable = true := by
      rw [calling, Option.any_eq_true]
      exact htyped
    exact ⟨pipe, Bool.and_eq_true_iff.mpr ⟨hpipe, htyped⟩,
      ⟨callee, name, hcallee, hkind, hname, hmatch⟩, hlast⟩
  · rintro ⟨pipe, hpipe, ⟨callee, name, hcallee, hkind, hname, hmatch⟩, hlast⟩
    obtain ⟨hpipe, htyped⟩ := Bool.and_eq_true_iff.mp hpipe
    rw [calling, Option.any_eq_true] at htyped
    obtain ⟨after, hending, -⟩ := id hlast
    have hparent := htree.parent?_of_mem_list hending.mem
    have hcall : file.tree.is operator .callExpression = true := hending.is_callExpression
    exact ⟨⟨hcall, pipe, hparent, hpipe⟩, ⟨name, ⟨callee, hcallee, hkind, hname⟩, hmatch⟩, pipe,
      hparent, htyped, hlast⟩

/-! ## The rule -/

def endingTrigger : Trigger :=
  ⟨"CallExpression[callee.property.name='pipe'] > CallExpression", endingSelector, false, _, rfl⟩

def takeUntilRule (settings : TakeUntilSettings) : Rule :=
  .ofCheck noUnsafeTakeuntilInfo endingTrigger (checkEnding settings)

/-- The aliases and the operators that may follow, as options spell them. -/
def takeUntilLists? (json : Json) : Option (List String × List String) := do
  match ← Json.recordFields? ["alias", "allow"] true json with
  | [aliases, allow] =>
      return (← Json.fieldOr? (Json.listOf? Json.asString?) [] aliases,
        ← Json.fieldOr? (Json.listOf? Json.asString?) harmlessOperators allow)
  | _ => none

/-- Options are read as lists of aliases and of operators that may follow. -/
def readTakeUntilLists (options : Json) : Except ConfigError (List String × List String) :=
  Options.read noUnsafeTakeuntilInfo.name takeUntilLists? ([], harmlessOperators) options

/-- Options are accepted if their lists can be read and their aliases make a pattern. -/
theorem TakeUntilSettings.read_eq_ok_iff :
    read options = .ok settings ↔ ∃ aliases,
      readTakeUntilLists options = .ok (aliases, settings.allow) ∧
        Pattern.parse? (endingText aliases) = some settings.ending := by
  have hread : read options = do
      let lists ← readTakeUntilLists options
      let ending ← Options.compile noUnsafeTakeuntilInfo.name (endingText lists.1)
      return { ending, allow := lists.2 } := rfl
  obtain ⟨ending, allow⟩ := settings
  simp only [hread, bind_eq_ok_iff, Options.compile]
  constructor
  · rintro ⟨⟨aliases, _⟩, hlists, pattern, hcompile, hsettings⟩
    obtain ⟨rfl, rfl⟩ := TakeUntilSettings.mk.inj (Except.ok.inj hsettings)
    refine ⟨aliases, hlists, ?_⟩
    cases hpattern : Pattern.parse? (endingText aliases) with
    | none => simp [hpattern] at hcompile
    | some read =>
        rw [hpattern] at hcompile
        exact congrArg some (Except.ok.inj hcompile)
  · rintro ⟨aliases, hlists, hpattern⟩
    exact ⟨(aliases, allow), hlists, ending, by rw [hpattern], rfl⟩

set_option maxRecDepth 4000 in
theorem ofChecks?_takeUntilRule : Rule.ofChecks? noUnsafeTakeuntilInfo
    [("CallExpression[callee.property.name='pipe'] > CallExpression", checkEnding settings)] =
      .ok (takeUntilRule settings) := by
  have htrigger : Trigger.parse "CallExpression[callee.property.name='pipe'] > CallExpression" =
      .ok endingTrigger :=
    Trigger.parse_eq_ok (by decide +kernel) (by decide +kernel) rfl
  exact Rule.ofChecks?_singleton htrigger

/-- The rule is made from options that are accepted, and from no others. -/
theorem make_noUnsafeTakeuntil_iff :
    noUnsafeTakeuntil.make options = .ok rule ↔
      ∃ settings, TakeUntilSettings.read options = .ok settings ∧
        rule = takeUntilRule settings := by
  constructor
  · intro hmake
    obtain ⟨settings, hread, hrule⟩ := BuiltInRule.exists_settings_of_make hmake
    exact ⟨settings, hread, Except.ok.inj (hrule.symm.trans ofChecks?_takeUntilRule)⟩
  · rintro ⟨settings, hread, rfl⟩
    exact BuiltInRule.ofSettings_make hread ofChecks?_takeUntilRule

/-- Whether the rule reports at an event. -/
def isFollowedOn (file : FileContext) (settings : TakeUntilSettings) (event : Event) : Bool :=
  event.phase == .enter &&
    (endingSelector.isMatch file.tree event.node && endsUnsafely file settings event.node)

theorem phase_eq_of_isFollowedOn {phase phase' : Phase}
    (hleft : isFollowedOn file settings ⟨operator, phase⟩ = true)
    (hright : isFollowedOn file settings ⟨operator, phase'⟩ = true) : phase = phase' := by
  simp only [isFollowedOn, Bool.and_eq_true, beq_iff_eq] at hleft hright
  rw [hleft.1, hright.1]

theorem writes_checkEnding :
    (checkEnding settings).Writes file endingTrigger (isFollowedOn file settings) fun operator =>
      (file.tree.child? operator "callee").toList.map (file.tree.report "forbidden") := by
  rintro ⟨operator, phase⟩
  rw [checkEnding_eq]
  cases phase with
  | exit => rfl
  | enter =>
      have hfires : endingTrigger.fires file.tree ⟨operator, .enter⟩ =
          endingSelector.isMatch file.tree operator := rfl
      rw [hfires, isFollowedOn]
      cases endingSelector.isMatch file.tree operator <;> simp

/-- Diagnostics on the callees of exactly the operators that end a stream and are followed, one
each, and no two for the same call of `pipe`. -/
structure AreOfFollowed (file : FileContext) (settings : TakeUntilSettings) (severity : Severity)
    (operators : List NodeId) (diagnostics : List Diagnostic) : Prop where
  nodup : operators.Nodup
  mem_iff : ∀ operator,
    operator ∈ operators ↔ ∃ pipe, IsFollowedEnding file settings pipe operator
  operator_eq : ∀ pipe, ∀ operator ∈ operators, ∀ other ∈ operators,
    file.tree.parent? operator = some pipe → file.tree.parent? other = some pipe → operator = other
  areOn : Diagnostic.AreOn file noUnsafeTakeuntilInfo severity "forbidden"
    (file.tree.child? · "callee") operators diagnostics

section Walk

variable (htree : file.tree.IsBuilt)

include htree

theorem mem_nodesOn_isFollowedOn_iff :
    operator ∈ Event.nodesOn (isFollowedOn file settings) file.tree.walk ↔
      ∃ pipe, IsFollowedEnding file settings pipe operator := by
  rw [Event.mem_nodesOn_iff, ← isMatch_and_endsUnsafely_iff htree]
  simp only [htree.mem_walk_iff, isFollowedOn, Bool.and_eq_true, beq_iff_eq]
  constructor
  · rintro ⟨phase, -, -, hfollowed⟩
    exact hfollowed
  · intro hfollowed
    obtain ⟨pipe, hoperator⟩ :=
      (isMatch_and_endsUnsafely_iff htree).mp (Bool.and_eq_true_iff.mpr hfollowed)
    exact ⟨.enter, htree.lt_of_parent? (hoperator.parent?_eq htree), rfl, hfollowed⟩

/-- What the rule has reported by the end of a walk, in a run of any rules. -/
theorem exists_areOfFollowed {rules : List ConfiguredRule} {index : Nat}
    (hmake : noUnsafeTakeuntil.make options = .ok (takeUntilRule settings))
    (hrule : rules[index]? = some ⟨takeUntilRule settings, severity⟩) :
    ∃ (progress : Progress Unit) (operators : List NodeId),
      (FileRun.ofRules file rules).rules[index]? =
          some ⟨⟨takeUntilRule settings, severity⟩, progress⟩ ∧
        progress.fault = none ∧
        AreOfFollowed file settings severity operators progress.diagnostics := by
  have hplaces : ∀ operator ∈ Event.nodesOn (isFollowedOn file settings) file.tree.walk,
      (file.tree.child? operator "callee").isSome := by
    intro operator hmem
    obtain ⟨pipe, hoperator⟩ := (mem_nodesOn_isFollowedOn_iff htree).mp hmem
    obtain ⟨callee, name, hcallee, -⟩ := hoperator.isNamed
    rw [hcallee]
    rfl
  obtain ⟨progress, hrun, hfault, hon⟩ := FileRun.exists_areOn htree
    (isSound_noUnsafeTakeuntil options _ hmake) Rule.isForgetful_ofCheck hrule
    (Course.after_ofCheck writes_checkEnding file.tree.walk) hplaces
  have hnodup : (Event.nodesOn (isFollowedOn file settings) file.tree.walk).Nodup :=
    Event.nodup_nodesOn htree.nodup_walk fun _ _ _ => phase_eq_of_isFollowedOn
  refine ⟨progress, _, hrun, hfault, hnodup, fun _ => mem_nodesOn_isFollowedOn_iff htree, ?_, hon⟩
  intro pipe operator hmem other hmem' hparent hparent'
  obtain ⟨pipe', hoperator⟩ := (mem_nodesOn_isFollowedOn_iff htree).mp hmem
  obtain ⟨pipe'', hother⟩ := (mem_nodesOn_isFollowedOn_iff htree).mp hmem'
  obtain rfl := Option.some.inj (hparent.symm.trans (hoperator.parent?_eq htree))
  obtain rfl := Option.some.inj (hparent'.symm.trans (hother.parent?_eq htree))
  exact hoperator.operator_eq hother

end Walk

/-- The rule about `takeUntil`, made from any options that it accepts and run with other rules over
a built tree, reports in each call of `pipe` on an observable at most one operator.  It is the last
argument whose name the pattern of `takeUntil` and its aliases matches, and it is reported if it
is called by an identifier and some argument after it is no call of an operator that may follow. -/
theorem noUnsafeTakeuntil_reportsFollowed {drafts : List NodeDraft} {root : NodeId}
    {source : String} (hbuild : Tree.build? drafts root source = .ok file.tree) {options : Json}
    (hmake : noUnsafeTakeuntil.make options = .ok rule) {rules : List ConfiguredRule} {index : Nat}
    (hrule : rules[index]? = some ⟨rule, severity⟩) :
    ∃ (aliases : List String) (settings : TakeUntilSettings),
      readTakeUntilLists options = .ok (aliases, settings.allow) ∧
        Pattern.parse? (endingText aliases) = some settings.ending ∧
        ∃ (progress : Progress Unit) (operators : List NodeId),
          (FileRun.ofRules file rules).rules[index]? =
              some ⟨⟨takeUntilRule settings, severity⟩, progress⟩ ∧
            progress.fault = none ∧
            AreOfFollowed file settings severity operators progress.diagnostics := by
  have htree := Tree.isBuilt_of_build? hbuild
  obtain ⟨settings, hread, rfl⟩ := make_noUnsafeTakeuntil_iff.mp hmake
  obtain ⟨aliases, hlists, hpattern⟩ := TakeUntilSettings.read_eq_ok_iff.mp hread
  exact ⟨aliases, settings, hlists, hpattern, exists_areOfFollowed htree hmake hrule⟩

/-- The arena of `pipedText`. -/
def pipedArena : List NodeDraft :=
  [ ⟨.identifier, ⟨0, 1⟩, [("name", .value (.text "a"))]⟩
  , ⟨.identifier, ⟨2, 6⟩, [("name", .value (.text "pipe"))]⟩
  , ⟨.memberExpression, ⟨0, 6⟩, [("object", .node 0), ("property", .node 1)]⟩
  , ⟨.identifier, ⟨7, 8⟩, [("name", .value (.text "b"))]⟩
  , ⟨.identifier, ⟨9, 18⟩, [("name", .value (.text "takeUntil"))]⟩
  , ⟨.memberExpression, ⟨7, 18⟩, [("object", .node 3), ("property", .node 4)]⟩
  , ⟨.callExpression, ⟨7, 20⟩, [("callee", .node 5)]⟩
  , ⟨.identifier, ⟨22, 36⟩, [("name", .value (.text "untilDestroyed"))]⟩
  , ⟨.callExpression, ⟨22, 38⟩, [("callee", .node 7)]⟩
  , ⟨.identifier, ⟨42, 43⟩, [("name", .value (.text "c"))]⟩
  , ⟨.identifier, ⟨45, 48⟩, [("name", .value (.text "tap"))]⟩
  , ⟨.callExpression, ⟨45, 50⟩, [("callee", .node 10)]⟩
  , ⟨.callExpression, ⟨0, 51⟩, [("callee", .node 2),
      ("arguments", .list [some 6, some 8, none, some 9, some 11])]⟩
  , ⟨.expressionStatement, ⟨0, 52⟩, [("expression", .node 12)]⟩
  , ⟨.program, ⟨0, 52⟩, [("body", .list [some 13])]⟩ ]

/-- Two operators end the stream, and `c` is no call behind the second one. -/
def pipedText : String := "a.pipe(b.takeUntil(), untilDestroyed(), , c, tap());"

def pipedFile : SourceFile where
  path := "a.ts"
  tree := (Tree.build? pipedArena 14 pipedText).toOption.getD default
  types := some ⟨[(0, .named "Observable")]⟩

def pipedOptions : Json :=
  .object [("alias", .list [.str "untilDestroyed"]), ("allow", .list [.str "tap"])]

def pipedSettings : TakeUntilSettings := ⟨.oneOf "takeUntil" ["untilDestroyed"], ["tap"]⟩

def pipedRules : List ConfiguredRule := [⟨takeUntilRule pipedSettings, .warning⟩]

set_option maxRecDepth 100000 in
theorem piped_evaluated :
    (Tree.build? pipedArena 14 pipedText).isOk = true ∧
    endingSelector.isMatch pipedFile.tree 8 = true ∧
    endsUnsafely pipedFile.context pipedSettings 8 = true ∧
    pipedFile.tree.parent? 6 = some 12 ∧ pipedFile.tree.parent? 8 = some 12 := by
  decide +kernel

theorem build?_pipedArena : Tree.build? pipedArena 14 pipedText = .ok pipedFile.tree :=
  eq_ok_of_isOk piped_evaluated.1 default

theorem make_pipedOptions :
    noUnsafeTakeuntil.make pipedOptions = .ok (takeUntilRule pipedSettings) := by
  have hread : TakeUntilSettings.read pipedOptions = .ok pipedSettings :=
    TakeUntilSettings.read_eq_ok_iff.mpr ⟨["untilDestroyed"], rfl, rfl⟩
  exact make_noUnsafeTakeuntil_iff.mpr ⟨pipedSettings, hread, rfl⟩

theorem noUnsafeTakeuntil_reportsFollowed_pipedFile :
    Tree.build? pipedArena 14 pipedText = .ok pipedFile.tree ∧
      noUnsafeTakeuntil.make pipedOptions = .ok (takeUntilRule pipedSettings) ∧
      ∃ (progress : Progress Unit) (operators : List NodeId),
        (FileRun.ofRules pipedFile.context pipedRules).rules[0]? =
            some ⟨⟨takeUntilRule pipedSettings, .warning⟩, progress⟩ ∧
          AreOfFollowed pipedFile.context pipedSettings .warning operators progress.diagnostics ∧
          8 ∈ operators ∧ 6 ∉ operators := by
  obtain ⟨-, hmatch, hends, hparents⟩ := piped_evaluated
  have hrule : pipedRules[0]? = some ⟨takeUntilRule pipedSettings, .warning⟩ := rfl
  have htree : pipedFile.context.tree.IsBuilt := Tree.isBuilt_of_build? build?_pipedArena
  obtain ⟨aliases, settings, hlists, hpattern, progress, operators, hrun, -, hoperators⟩ :=
    noUnsafeTakeuntil_reportsFollowed
      (show Tree.build? pipedArena 14 pipedText = .ok pipedFile.context.tree from
        build?_pipedArena) make_pipedOptions hrule
  obtain rfl : settings = pipedSettings := by
    obtain ⟨ending, allow⟩ := settings
    obtain ⟨rfl, rfl⟩ := Prod.mk.inj (Except.ok.inj hlists)
    exact congrArg (TakeUntilSettings.mk · _) (Option.some.inj hpattern).symm
  have hreported : 8 ∈ operators := (hoperators.mem_iff 8).mpr
    ((isMatch_and_endsUnsafely_iff htree).mp (Bool.and_eq_true_iff.mpr ⟨hmatch, hends⟩))
  refine ⟨build?_pipedArena, make_pipedOptions, progress, operators, hrun, hoperators, hreported,
    fun hfirst => ?_⟩
  have heq := hoperators.operator_eq 12 6 hfirst 8 hreported hparents.1 hparents.2
  cases heq

end ReactiveLint.Rules
