import ReactiveLint.Proofs.Rules.Notifier

/-!
# Ignored notifiers

In a run of rules over a built tree, the rule against ignored notifiers has exactly the open
tracked calls on its stack at every point, and it reports exactly the calls that ignore their
notifier.  A reported call may still use its notifier, but only inside a tracked call in its
function, which takes the sightings for itself.
-/

namespace ReactiveLint.Rules

variable {file : FileContext} {call callback parameter id : NodeId} {name : String}
  {seen rest : List Event} {event : Event} {severity : Severity} {rule : Rule}

/-- A stack with the tracked calls that have been entered and not left, the innermost on top,
each with the number of its sightings that have been entered. -/
structure IsExactStack (file : FileContext) (seen : List Event) (stack : List Notifier) :
    Prop where
  exists_mem_iff : ∀ call name,
    (∃ notifier ∈ stack, notifier.call = call ∧ notifier.parameter = name) ↔
      trackedName? file call = some name ∧ ⟨call, .enter⟩ ∈ seen ∧ ⟨call, .exit⟩ ∉ seen
  pairwise : stack.Pairwise fun inner outer => file.tree.Above inner.call outer.call
  sightings_eq : ∀ notifier ∈ stack,
    notifier.sightings = seen.countP (isSighted file notifier.call notifier.parameter)

/-- Diagnostics on the callees of exactly the calls that ignore their notifier, one each. -/
structure AreOfIgnored (file : FileContext) (severity : Severity) (calls : List NodeId)
    (diagnostics : List Diagnostic) : Prop where
  nodup : calls.Nodup
  mem_iff : ∀ call, call ∈ calls ↔ ignoresNotifier file call = true
  areOn : Diagnostic.AreOn file noIgnoredNotifierInfo severity "forbidden"
    (file.tree.child? · "callee") calls diagnostics

theorem isNotifierCall_of_ignoresNotifier (hignores : ignoresNotifier file call = true) :
    isNotifierCall file.tree call = true := by
  rw [ignoresNotifier, Bool.or_eq_true, Option.any_eq_true] at hignores
  rcases hignores with hlacks | ⟨name, htracked, -⟩
  · exact isNotifierCall_of_lacksParameter hlacks
  · exact isNotifierCall_of_trackedName? htracked

section Walk

variable (htree : file.tree.IsBuilt)

include htree

theorem isExactStack_stackAt (hsplit : file.tree.walk = seen ++ event :: rest) :
    IsExactStack file seen (stackAt file seen (file.tree.openBefore event)) where
  exists_mem_iff call name := by
    rw [← htree.mem_open_iff hsplit]
    simp only [stackAt, List.mem_filterMap, Option.map_eq_some_iff]
    constructor
    · rintro ⟨_, ⟨call, hopen, name, htracked, rfl⟩, rfl, rfl⟩
      exact ⟨htracked, hopen⟩
    · rintro ⟨htracked, hopen⟩
      exact ⟨_, ⟨call, hopen, name, htracked, rfl⟩, rfl, rfl⟩
  pairwise := by
    have hpairwise := htree.pairwise_ancestors (htree.lt_size_of_split hsplit)
    have hopen : (file.tree.openBefore event).Pairwise file.tree.Above := by
      obtain ⟨node, phase⟩ := event
      cases phase with
      | enter => exact (List.pairwise_cons.mp hpairwise).2
      | exit => exact hpairwise
    refine hopen.filterMap _ fun inner outer habove notifier hnotifier other hother => ?_
    obtain ⟨_, -, rfl⟩ := Option.map_eq_some_iff.mp hnotifier
    obtain ⟨_, -, rfl⟩ := Option.map_eq_some_iff.mp hother
    exact habove
  sightings_eq notifier hmem := by
    obtain ⟨call, -, hnotifier⟩ := List.mem_filterMap.mp hmem
    obtain ⟨name, -, rfl⟩ := Option.map_eq_some_iff.mp hnotifier
    rfl

theorem lt_size_of_isNotifierCall (hcall : isNotifierCall file.tree call = true) :
    call < file.tree.size := by
  obtain ⟨callee, hcallee⟩ := exists_callee_of_isNotifierCall hcall
  exact htree.parent?_lt (htree.parent?_of_child? hcallee)

/-- By the end of the walk the rule has reported each call that ignores its notifier. -/
theorem mem_nodesOn_isReportedOn_iff :
    call ∈ Event.nodesOn (isReportedOn file) file.tree.walk ↔
      ignoresNotifier file call = true := by
  simp only [Event.mem_nodesOn_iff, htree.mem_walk_iff]
  constructor
  · rintro ⟨phase, -, hon⟩
    cases phase with
    | enter => exact Bool.or_eq_true_iff.mpr (.inl hon)
    | exit => exact Bool.or_eq_true_iff.mpr (.inr hon)
  · intro hignores
    have hcall := lt_size_of_isNotifierCall htree (isNotifierCall_of_ignoresNotifier hignores)
    rcases Bool.or_eq_true_iff.mp hignores with hlacks | htracked
    · exact ⟨.enter, hcall, hlacks⟩
    · exact ⟨.exit, hcall, htracked⟩

omit htree in
/-- No call is reported on both of its events. -/
theorem phase_eq_of_isReportedOn {phase phase' : Phase}
    (hleft : isReportedOn file ⟨call, phase⟩ = true)
    (hright : isReportedOn file ⟨call, phase'⟩ = true) : phase = phase' := by
  have hboth (hlacks : isReportedOn file ⟨call, .enter⟩ = true) :
      ¬ isReportedOn file ⟨call, .exit⟩ = true := by
    simp [isReportedOn, trackedName?_of_lacksParameter hlacks]
  cases phase <;> cases phase'
  · rfl
  · exact absurd hright (hboth hleft)
  · exact absurd hleft (hboth hright)
  · rfl

/-- What the rule has done by the end of a walk, in a run of any rules. -/
theorem exists_follows_notifierRule {rules : List ConfiguredRule} {index : Nat}
    (hrule : rules[index]? = some ⟨notifierRule, severity⟩) :
    ∃ (progress : Progress (List Notifier)) (calls : List NodeId),
      (FileRun.ofRules file rules).rules[index]? = some ⟨⟨notifierRule, severity⟩, progress⟩ ∧
        progress.state = [] ∧ progress.fault = none ∧
        AreOfIgnored file severity calls progress.diagnostics := by
  obtain ⟨progress, hrun, hfollows⟩ := FileRun.exists_follows htree isSound_notifierRule
    isForgetful_notifierRule hrule file.tree.walk
  rw [(after_notifierRule htree).1] at hfollows
  have hcallee : ∀ call ∈ Event.nodesOn (isReportedOn file) file.tree.walk,
      (file.tree.child? call "callee").isSome := by
    intro call hcall
    obtain ⟨callee, hcallee⟩ := exists_callee_of_isNotifierCall
      (isNotifierCall_of_ignoresNotifier ((mem_nodesOn_isReportedOn_iff htree).mp hcall))
    exact Option.isSome_of_eq_some hcallee
  exact ⟨progress, _, hrun, hfollows.state_eq, hfollows.fault_eq,
    Event.nodup_nodesOn htree.nodup_walk fun _ _ _ => phase_eq_of_isReportedOn,
    fun _ => mem_nodesOn_isReportedOn_iff htree,
    hfollows.diagnosed.areOn hcallee⟩

end Walk

/-- The rule against ignored notifiers, in a run of rules over a built tree: before each event
its stack is exact, so that a tracked call is on top when it is left, with all its sightings;
at the end the stack is empty, and the calls that ignore their notifier are reported. -/
theorem noIgnoredNotifier_isExact {drafts : List NodeDraft} {root : NodeId} {source : String}
    (hbuild : Tree.build? drafts root source = .ok file.tree) {options : Json}
    (hmake : noIgnoredNotifier.make options = .ok rule) {rules : List ConfiguredRule}
    {index : Nat} (hrule : rules[index]? = some ⟨rule, severity⟩) :
    (∀ seen event rest, file.tree.walk = seen ++ event :: rest →
      ∃ progress : Progress (List Notifier),
        (seen.foldl (FileRun.step file) (.start rules)).rules[index]? =
            some ⟨⟨notifierRule, severity⟩, progress⟩ ∧
          IsExactStack file seen progress.state ∧
          ∀ call name, event = ⟨call, .exit⟩ → trackedName? file call = some name →
            progress.state.head? = some ⟨call, name, (sightings file call name).length⟩) ∧
      ∃ (progress : Progress (List Notifier)) (calls : List NodeId),
        (FileRun.ofRules file rules).rules[index]? = some ⟨⟨notifierRule, severity⟩, progress⟩ ∧
          progress.state = [] ∧ progress.fault = none ∧
          AreOfIgnored file severity calls progress.diagnostics := by
  have htree := Tree.isBuilt_of_build? hbuild
  obtain rfl := eq_notifierRule hmake
  refine ⟨fun seen event rest hsplit => ?_, exists_follows_notifierRule htree hrule⟩
  obtain ⟨progress, hrun, hfollows⟩ := FileRun.exists_follows htree isSound_notifierRule
    isForgetful_notifierRule hrule seen
  have hstate : progress.state = stackAt file seen (file.tree.openBefore event) := by
    rw [hfollows.state_eq, (after_notifierRule htree).2 seen event rest hsplit]
  refine ⟨progress, hrun, hstate ▸ isExactStack_stackAt htree hsplit, ?_⟩
  rintro call name rfl htracked
  rw [hstate, Tree.openBefore, stackAt_cons_of_some htracked,
    countP_isSighted_exit htree hsplit]
  rfl

/-- The arena of `takenText`. -/
def takenArena : List NodeDraft :=
  [ ⟨.identifier, ⟨0, 9⟩, [("name", .value (.text "retryWhen"))]⟩
  , ⟨.identifier, ⟨11, 17⟩, [("name", .value (.text "errors"))]⟩
  , ⟨.identifier, ⟨22, 28⟩, [("name", .value (.text "source"))]⟩
  , ⟨.identifier, ⟨29, 33⟩, [("name", .value (.text "pipe"))]⟩
  , ⟨.memberExpression, ⟨22, 33⟩, [("object", .node 2), ("property", .node 3)]⟩
  , ⟨.identifier, ⟨34, 44⟩, [("name", .value (.text "repeatWhen"))]⟩
  , ⟨.identifier, ⟨46, 47⟩, [("name", .value (.text "x"))]⟩
  , ⟨.identifier, ⟨52, 56⟩, [("name", .value (.text "race"))]⟩
  , ⟨.identifier, ⟨57, 63⟩, [("name", .value (.text "errors"))]⟩
  , ⟨.identifier, ⟨65, 66⟩, [("name", .value (.text "x"))]⟩
  , ⟨.callExpression, ⟨52, 67⟩, [("callee", .node 7), ("arguments", .list [some 8, some 9])]⟩
  , ⟨.arrowFunctionExpression, ⟨45, 67⟩, [("params", .list [some 6]), ("body", .node 10)]⟩
  , ⟨.callExpression, ⟨34, 68⟩, [("callee", .node 5), ("arguments", .list [some 11])]⟩
  , ⟨.callExpression, ⟨22, 69⟩, [("callee", .node 4), ("arguments", .list [some 12])]⟩
  , ⟨.arrowFunctionExpression, ⟨10, 69⟩, [("params", .list [some 1]), ("body", .node 13)]⟩
  , ⟨.callExpression, ⟨0, 70⟩, [("callee", .node 0), ("arguments", .list [some 14])]⟩
  , ⟨.expressionStatement, ⟨0, 71⟩, [("expression", .node 15)]⟩
  , ⟨.program, ⟨0, 71⟩, [("body", .list [some 16])]⟩ ]

/-- What the outer call ignores is used in the inner one. -/
def takenText : String := "retryWhen((errors) => source.pipe(repeatWhen((x) => race(errors, x))));"

def operatorType : Ty := .object "MonoTypeOperatorFunction" none [] [] [] [] []

def takenFile : SourceFile where
  path := "a.ts"
  tree := (Tree.build? takenArena 17 takenText).toOption.getD default
  types := some ⟨[(12, operatorType), (15, operatorType)]⟩

def takenRules : List ConfiguredRule := [⟨notifierRule, .warning⟩]

set_option maxRecDepth 100000 in
theorem taken_evaluated :
    (Tree.build? takenArena 17 takenText).isOk = true ∧
    ignoresNotifier takenFile.context 15 = true ∧
    ignoresNotifier takenFile.context 12 = false ∧
    callback? takenFile.tree 15 = some 14 ∧ parameter? takenFile.tree 14 = some 1 ∧
    takenFile.tree.name? 1 = some "errors" ∧ takenFile.tree.isIdentifier 1 "errors" = true ∧
    takenFile.tree.isIdentifier 8 "errors" = true ∧ 14 ∈ takenFile.tree.ancestors 8 ∧
    8 < takenFile.tree.size ∧ takenFile.tree.child? 15 "callee" = some 0 := by
  decide +kernel

theorem build?_takenArena : Tree.build? takenArena 17 takenText = .ok takenFile.tree :=
  eq_ok_of_isOk taken_evaluated.1 default

theorem noIgnoredNotifier_isExact_takenFile :
    Tree.build? takenArena 17 takenText = .ok takenFile.tree ∧
      noIgnoredNotifier.make .null = .ok notifierRule ∧
      ∃ (progress : Progress (List Notifier)) (calls : List NodeId),
        (FileRun.ofRules takenFile.context takenRules).rules[0]? =
            some ⟨⟨notifierRule, .warning⟩, progress⟩ ∧
          progress.state = [] ∧ 15 ∈ calls ∧ 12 ∉ calls ∧
          AreOfIgnored takenFile.context .warning calls progress.diagnostics := by
  have hrule : takenRules[0]? = some ⟨notifierRule, .warning⟩ := rfl
  obtain ⟨-, progress, calls, hrun, hstate, -, hcalls⟩ := noIgnoredNotifier_isExact
    (show Tree.build? takenArena 17 takenText = .ok takenFile.context.tree from build?_takenArena)
    make_noIgnoredNotifier hrule
  obtain ⟨-, houter, hinner, -⟩ := taken_evaluated
  refine ⟨build?_takenArena, make_noIgnoredNotifier, progress, calls, hrun, hstate,
    (hcalls.mem_iff 15).mpr houter, fun hmem => ?_, hcalls⟩
  rw [(hcalls.mem_iff 12).mp hmem] at hinner
  cases hinner

/-! ## Notifiers that are used -/

/-- A function that is given to a call is no call itself. -/
theorem trackedName?_callback (hcallback : callback? file.tree call = some callback) :
    trackedName? file callback = none := by
  have hfunction := (Option.filter_eq_some_iff.mp hcallback).2
  refine Option.eq_none_iff_forall_ne_some.mpr fun name htracked => ?_
  have hkind := kind_of_isNotifierCall (isNotifierCall_of_trackedName? htracked)
  simp [Tree.isFunctionExpression, Tree.is, hkind] at hfunction

theorem parent?_callback (htree : file.tree.IsBuilt)
    (hcallback : callback? file.tree call = some callback) :
    file.tree.parent? callback = some call :=
  htree.parent?_of_mem_list (List.mem_of_head? (Option.filter_eq_some_iff.mp hcallback).1)

/-- A tracked call is watched under the name of the parameter of its function. -/
theorem isIdentifier_parameter (htracked : trackedName? file call = some name)
    (hcallback : callback? file.tree call = some callback)
    (hparameter : parameter? file.tree callback = some parameter) :
    file.tree.isIdentifier parameter name = true := by
  obtain ⟨given, first, hgiven, hfirst, hkind, hname⟩ := trackedName?_eq_some_iff.mp htracked
  have hgiven := (notifierCallback?_eq_some_iff.mp hgiven).2.2
  obtain rfl : callback = given := Option.some.inj (hcallback.symm.trans hgiven)
  obtain rfl : parameter = first := Option.some.inj (hparameter.symm.trans hfirst)
  simp [Tree.isIdentifier, hkind, hname]

/-- A call with a named parameter that ignores its notifier is tracked. -/
theorem tracked_of_ignoresNotifier (hignores : ignoresNotifier file call = true)
    (hcallback : callback? file.tree call = some callback)
    (hparameter : parameter? file.tree callback = some parameter)
    (hname : file.tree.name? parameter = some name) :
    trackedName? file call = some name ∧ (sightings file call name).length < 2 := by
  rw [ignoresNotifier, Bool.or_eq_true, Option.any_eq_true] at hignores
  rcases hignores with hlacks | ⟨other, htracked, hfew⟩
  · obtain ⟨given, hgiven, hnone⟩ := lacksParameter_eq_true_iff.mp hlacks
    have hgiven := (notifierCallback?_eq_some_iff.mp hgiven).2.2
    obtain rfl : callback = given := Option.some.inj (hcallback.symm.trans hgiven)
    cases hparameter.symm.trans hnone
  · have hidentifier := isIdentifier_parameter htracked hcallback hparameter
    simp only [Tree.isIdentifier, hname, Bool.and_eq_true, beq_iff_eq, Option.some_inj]
      at hidentifier
    obtain rfl := hidentifier.2
    exact ⟨htracked, of_decide_eq_true hfew⟩

/-- The parameter of a tracked call is a sighting. -/
theorem parameter_mem_sightings (htree : file.tree.IsBuilt)
    (htracked : trackedName? file call = some name)
    (hcallback : callback? file.tree call = some callback)
    (hparameter : parameter? file.tree callback = some parameter) :
    parameter ∈ sightings file call name := by
  have hparent : file.tree.parent? parameter = some callback :=
    htree.parent?_of_mem_list (List.mem_of_head? hparameter)
  have hnearest : nearestTracked? file parameter = some call := by
    rw [nearestTracked?, htree.ancestors_of_parent? hparent,
      htree.ancestors_of_parent? (parent?_callback htree hcallback),
      List.find?_cons_of_neg (by simp [trackedName?_callback hcallback]),
      List.find?_cons_of_pos (by simp [htracked])]
  exact List.mem_filter.mpr ⟨List.mem_range.mpr (htree.lt_of_parent? hparent), by
    simp [isSighting, isIdentifier_parameter htracked hcallback hparameter, hnearest]⟩

/-- What is in the function of a tracked call, and not nearest to this call, is in a tracked
call in the function. -/
theorem exists_tracked_between (htree : file.tree.IsBuilt)
    (htracked : trackedName? file call = some name)
    (hcallback : callback? file.tree call = some callback) (hid : file.tree.Within id callback)
    (hnearest : nearestTracked? file id ≠ some call) :
    ∃ inner, (trackedName? file inner).isSome ∧ file.tree.Above id inner ∧
      file.tree.Above inner callback := by
  have hparent := parent?_callback htree hcallback
  have hcall : file.tree.Above id call := Relation.TransGen.tail' hid hparent
  have hsize := hid.lt_size htree (htree.lt_of_parent? hparent)
  obtain ⟨inner, hinner⟩ : ∃ inner, nearestTracked? file id = some inner := by
    rw [← Option.isSome_iff_exists, nearestTracked?, List.find?_isSome]
    exact ⟨call, (htree.mem_ancestors_iff hsize).mpr hcall, by simp [htracked]⟩
  have hfirst := (htree.find?_ancestors_eq_some_iff hsize).mp hinner
  refine ⟨inner, hfirst.fit, hfirst.isAbove, ?_⟩
  have hne : inner ≠ callback := by
    rintro rfl
    simpa [trackedName?_callback hcallback] using hfirst.fit
  rcases Tree.Within.total hid hfirst.isAbove.to_reflTransGen with hout | hin
  · -- it would be the call itself
    have hup : file.tree.Within call inner := by
      rcases hout.cases_head with heq | ⟨next, hnext, hup⟩
      · exact absurd heq.symm hne
      · rwa [← Option.some.inj (hparent.symm.trans hnext)] at hup
    have hdown := hfirst.nearest call hcall (by simp [htracked])
    have heq := hup.antisymm htree (htree.parent?_lt hparent) hdown
    exact absurd (heq ▸ hinner) hnearest
  · exact (Relation.reflTransGen_iff_eq_or_transGen.mp hin).resolve_left hne.symm

/-- A reported call whose function has a named parameter does not use it, except in other
tracked calls: each further identifier of the name in the function is in one of these. -/
theorem noIgnoredNotifier_usesInTracked {drafts : List NodeDraft} {root : NodeId} {source : String}
    (hbuild : Tree.build? drafts root source = .ok file.tree) {options : Json}
    (hmake : noIgnoredNotifier.make options = .ok rule) {rules : List ConfiguredRule}
    {index : Nat} (hrule : rules[index]? = some ⟨rule, severity⟩) :
    ∃ (progress : Progress (List Notifier)) (calls : List NodeId),
      (FileRun.ofRules file rules).rules[index]? = some ⟨⟨notifierRule, severity⟩, progress⟩ ∧
        AreOfIgnored file severity calls progress.diagnostics ∧
        ∀ call ∈ calls, ∀ callback parameter name,
          callback? file.tree call = some callback →
          parameter? file.tree callback = some parameter →
          file.tree.name? parameter = some name →
          ∀ id, file.tree.Within id callback → file.tree.isIdentifier id name → id ≠ parameter →
            ∃ inner, (trackedName? file inner).isSome ∧ file.tree.Above id inner ∧
              file.tree.Above inner callback := by
  have htree := Tree.isBuilt_of_build? hbuild
  obtain rfl := eq_notifierRule hmake
  obtain ⟨progress, calls, hrun, -, -, hcalls⟩ := exists_follows_notifierRule htree hrule
  refine ⟨progress, calls, hrun, hcalls, ?_⟩
  intro call hcall callback parameter name hcallback hparameter hname id hid hidentifier hne
  obtain ⟨htracked, hfew⟩ := tracked_of_ignoresNotifier ((hcalls.mem_iff call).mp hcall) hcallback
    hparameter hname
  apply exists_tracked_between htree htracked hcallback hid
  intro hnearest
  -- the identifier would be another sighting beside the parameter
  have hsize := hid.lt_size htree (htree.lt_of_parent? (parent?_callback htree hcallback))
  have hfirst := parameter_mem_sightings htree htracked hcallback hparameter
  have hsecond : id ∈ sightings file call name :=
    List.mem_filter.mpr ⟨List.mem_range.mpr hsize, by simp [isSighting, hidentifier, hnearest]⟩
  have hboth : [parameter, id].Subperm (sightings file call name) :=
    List.Nodup.subperm (by simpa using hne.symm) (by simp [hfirst, hsecond])
  exact absurd hboth.length_le (Nat.not_le_of_lt hfew)

theorem noIgnoredNotifier_usesInTracked_takenFile :
    Tree.build? takenArena 17 takenText = .ok takenFile.tree ∧
      ∃ inner, (trackedName? takenFile.context inner).isSome ∧ takenFile.tree.Above 8 inner ∧
        takenFile.tree.Above inner 14 := by
  have hrule : takenRules[0]? = some ⟨notifierRule, .warning⟩ := rfl
  obtain ⟨progress, calls, -, hcalls, huses⟩ := noIgnoredNotifier_usesInTracked
    (show Tree.build? takenArena 17 takenText = .ok takenFile.context.tree from build?_takenArena)
    make_noIgnoredNotifier hrule
  obtain ⟨-, houter, -, hcallback, hparameter, hname, -, hidentifier, habove, hsize, -⟩ :=
    taken_evaluated
  have habove := ((Tree.isBuilt_of_build? build?_takenArena).mem_ancestors_iff hsize).mp habove
  exact ⟨build?_takenArena, huses 15 ((hcalls.mem_iff 15).mpr houter) 14 1 "errors" hcallback
    hparameter hname 8 habove.to_reflTransGen hidentifier (by decide)⟩

/-- A call can be reported though its function has another identifier of the name of its
parameter. -/
theorem not_forall_reported_unused :
    ¬ ∀ (file : FileContext) (drafts : List NodeDraft) (root : NodeId) (source : String),
      Tree.build? drafts root source = .ok file.tree →
      ∀ (rules : List ConfiguredRule) (index : Nat) (severity : Severity)
        (progress : Progress (List Notifier)),
        (FileRun.ofRules file rules).rules[index]? = some ⟨⟨notifierRule, severity⟩, progress⟩ →
      ∀ call callee callback parameter name, isNotifierCall file.tree call = true →
        file.tree.child? call "callee" = some callee →
        (∃ diagnostic ∈ progress.diagnostics, (file.tree.report "forbidden" callee).IsDiagnosis
          noIgnoredNotifierInfo severity file.path file.tree.source diagnostic) →
        callback? file.tree call = some callback →
        parameter? file.tree callback = some parameter →
        file.tree.isIdentifier parameter name = true →
        ∀ id, file.tree.Within id callback → file.tree.isIdentifier id name = true →
          id = parameter := by
  intro hall
  have htree := Tree.isBuilt_of_build? build?_takenArena
  have hrule : takenRules[0]? = some ⟨notifierRule, .warning⟩ := rfl
  obtain ⟨progress, calls, hrun, -, -, hcalls⟩ :=
    exists_follows_notifierRule (show takenFile.context.tree.IsBuilt from htree) hrule
  obtain ⟨-, houter, -, hcallback, hparameter, -, hnamed, hidentifier, habove, hsize, hcallee⟩ :=
    taken_evaluated
  have hreported := hcalls.areOn.exists_mem ((hcalls.mem_iff 15).mpr houter) hcallee
  have habove := (htree.mem_ancestors_iff hsize).mp habove
  have heq := hall takenFile.context takenArena 17 takenText build?_takenArena takenRules 0 .warning
    progress hrun 15 0 14 1 "errors" (isNotifierCall_of_ignoresNotifier houter) hcallee hreported
    hcallback hparameter hnamed 8 habove.to_reflTransGen hidentifier
  cases heq

end ReactiveLint.Rules
