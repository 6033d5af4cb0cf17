import ReactiveLint.Proofs.Rules.Sound
import ReactiveLint.Rules.Registry

/-!
# Rules that only report

Most rules of the rule set report messages of theirs and propose no edits, so none of
them ever ends in a fault.
-/

namespace ReactiveLint.Rules

open BuiltInRule

/-! ## Imports -/

theorem tells_checkBan (bans : BanList) : (checkBan bans).Tells ["forbidden"] := by
  intro file specifier
  simp [checkBan, bind, pure]

@[simp]
theorem isSound_banObservables : banObservables.IsSound :=
  isSound_ofSettings_tells ["forbidden"] (by decide) (by simp [tells_checkBan])

@[simp]
theorem isSound_banOperators : banOperators.IsSound :=
  isSound_ofSettings_tells ["forbidden"] (by decide) (by simp [tells_checkBan])

theorem tells_checkAny : checkAny.Tells ["forbidden"] := by
  intro file node
  simp [checkAny]

@[simp]
theorem isSound_noCompat : noCompat.IsSound :=
  isSound_ofChecks_tells ["forbidden"] (by decide) (by simp [tells_checkAny])

@[simp]
theorem isSound_noIndex : noIndex.IsSound :=
  isSound_ofChecks_tells ["forbidden"] (by decide) (by simp [tells_checkAny])

/-! ## Names -/

theorem tells_checkFinnish (settings : FinnishSettings) :
    (checkFinnish settings).Tells ["shouldBeFinnish", "shouldNotBeFinnish"] := by
  have hfault : ∀ name type fault, finnishFault? settings name type = some fault →
      fault ∈ ["shouldBeFinnish", "shouldNotBeFinnish"] := by
    intro name type fault hfault
    simp only [finnishFault?] at hfault
    grind
  intro file identifier
  simp [checkFinnish, bind, pure]
  grind

@[simp]
theorem isSound_finnish : finnish.IsSound :=
  isSound_ofSettings_tells ["shouldBeFinnish", "shouldNotBeFinnish"] (by decide)
    (by simp [tells_checkFinnish])

theorem tells_checkNoFinnish : checkNoFinnish.Tells ["forbidden"] := by
  intro file identifier
  simp [checkNoFinnish]

@[simp]
theorem isSound_noFinnish : noFinnish.IsSound :=
  isSound_ofChecks_tells ["forbidden"] (by decide) (by simp [tells_checkNoFinnish])

theorem tells_checkSuffix (settings : SuffixSettings) :
    (checkSuffix settings).Tells ["forbidden"] := by
  intro file identifier
  simp [checkSuffix, bind, pure]

@[simp]
theorem isSound_suffixSubjects : suffixSubjects.IsSound :=
  isSound_ofSettings_tells ["forbidden"] (by decide) (by simp [tells_checkSuffix])

/-! ## Subscribing -/

theorem tells_checkMember (test : FileContext → NodeId → Bool) :
    (checkMember test).Tells ["forbidden"] := by
  intro file member
  simp only [checkMember]
  split <;> simp

/-- The keyword does not reach beyond its function, however short that is. -/
theorem fitsIn_asyncSpan {span : Span} {size : Nat} (hspan : span.FitsIn size) :
    (asyncSpan span).FitsIn size :=
  ⟨Nat.le_min.mpr ⟨Nat.le_add_right _ _, hspan.1⟩, Nat.le_trans (Nat.min_le_right _ _) hspan.2⟩

theorem tells_checkAsync : checkAsync.Tells ["forbidden"] := by
  intro file function
  have htells : ({ messageId := "forbidden", span := asyncSpan (file.tree.span function) } :
      Report).Tells file.tree ["forbidden"] :=
    ⟨List.mem_singleton_self _, fun htree => fitsIn_asyncSpan (htree.fitsIn_span function),
      rfl, rfl⟩
  simp [checkAsync, htells]

@[simp]
theorem isSound_noAsyncSubscribe : noAsyncSubscribe.IsSound :=
  isSound_ofChecks_tells ["forbidden"] (by decide) (by simp [tells_checkAsync])

theorem tells_checkLoneHandler : checkLoneHandler.Tells ["forbidden"] := by
  intro file property
  simp [checkLoneHandler, bind, pure]

@[simp]
theorem isSound_noIgnoredError : noIgnoredError.IsSound :=
  isSound_ofChecks_tells ["forbidden"] (by decide) (by simp [tells_checkLoneHandler])

@[simp]
theorem isSound_noSubscribeHandlers : noSubscribeHandlers.IsSound :=
  isSound_ofChecks_tells ["forbidden"] (by decide) (by simp [tells_checkMember])

theorem tells_checkIgnoredCall : checkIgnoredCall.Tells ["forbidden"] := by
  intro file call
  simp [checkIgnoredCall]

@[simp]
theorem isSound_noIgnoredObservable : noIgnoredObservable.IsSound :=
  isSound_ofChecks_tells ["forbidden"] (by decide) (by simp [tells_checkIgnoredCall])

@[simp]
theorem isSound_noIgnoredSubscribe : noIgnoredSubscribe.IsSound :=
  isSound_ofChecks_tells ["forbidden"] (by decide) (by simp [tells_checkMember])

theorem tells_checkIgnoredSubscription : checkIgnoredSubscription.Tells ["forbidden"] := by
  intro file member
  simp [checkIgnoredSubscription, bind, pure]

@[simp]
theorem isSound_noIgnoredSubscription : noIgnoredSubscription.IsSound :=
  isSound_ofChecks_tells ["forbidden"] (by decide) (by simp [tells_checkIgnoredSubscription])

theorem tells_checkNested : checkNested.Tells ["forbidden"] := by
  intro file earlier handlers member
  simp only [checkNested]
  split
  · split
    · simp
    · split <;> simp
  · simp

@[simp]
theorem isSound_noNestedSubscribe : noNestedSubscribe.IsSound :=
  isSound_ofHandlers_tells ["forbidden"] (by decide) (by simp [tells_checkNested])

theorem tells_flagPipe (ids : List String) : flagPipe.Tells ids := by
  intro file earlier flagged call
  simp only [flagPipe]
  split <;> simp

theorem tells_flagSubscribe (ids : List String) : flagSubscribe.Tells ids := by
  intro file earlier flagged call
  simp only [flagSubscribe]
  split <;> simp

theorem tells_checkThis : checkThis.Tells ["forbidden"] := by
  intro file earlier flagged this
  simp [checkThis]

theorem tells_flagSubscription (ids : List String) : flagSubscription.Tells ids := by
  intro file earlier flagged call
  simp [flagSubscription]

@[simp]
theorem isSound_noUnboundMethods : noUnboundMethods.IsSound :=
  isSound_ofHandlers_tells ["forbidden"] (by decide)
    (by simp [tells_flagPipe, tells_flagSubscribe, tells_flagSubscription, tells_checkThis])

/-! ## Operators -/

theorem allTell_reportCallee (tree : Tree) (call : NodeId) :
    Report.AllTell (reportCallee tree call) tree ["forbidden"] := by
  simp [reportCallee]

theorem tells_checkMulticast : checkMulticast.Tells ["forbidden"] := by
  intro file call
  simp [checkMulticast, allTell_reportCallee]

theorem tells_checkPublish : checkPublish.Tells ["forbidden"] := by
  intro file call
  simp [checkPublish, allTell_reportCallee]

@[simp]
theorem isSound_noConnectable : noConnectable.IsSound :=
  isSound_ofChecks_tells ["forbidden"] (by decide)
    (by simp [tells_checkMulticast, tells_checkPublish])

@[simp]
theorem isSound_noCreate : noCreate.IsSound :=
  isSound_ofChecks_tells ["forbidden"] (by decide) (by simp [tells_checkMember])

@[simp]
theorem isSound_noTopromise : noTopromise.IsSound :=
  isSound_ofChecks_tells ["forbidden"] (by decide) (by simp [tells_checkMember])

theorem tells_checkShareReplay (allowConfig : Bool) :
    (checkShareReplay allowConfig).Tells ["forbidden", "forbiddenWithoutConfig"] := by
  intro file call
  simp only [checkShareReplay]
  split <;> simp

@[simp]
theorem isSound_noSharereplay : noSharereplay.IsSound :=
  isSound_ofSettings_tells ["forbidden", "forbiddenWithoutConfig"] (by decide)
    (by simp [tells_checkShareReplay])

theorem tells_checkGeneric (argument? : NodeList → Option NodeId) :
    (checkGeneric argument?).Tells ["forbidden"] := by
  intro file callee
  simp [checkGeneric]

theorem tells_checkCallee : checkCallee.Tells ["forbidden"] := by
  intro file callee
  simp [checkCallee]

@[simp]
theorem isSound_noExplicitGenerics : noExplicitGenerics.IsSound :=
  isSound_ofChecks_tells ["forbidden"] (by decide)
    (by simp [tells_checkGeneric, tells_checkCallee])

theorem tells_enterNotifier : enterNotifier.Tells ["forbidden"] := by
  intro file earlier stack call
  simp only [enterNotifier]
  repeat' split
  all_goals simp

theorem tells_sightIdentifier (ids : List String) : sightIdentifier.Tells ids := by
  intro file earlier stack identifier
  simp only [sightIdentifier]
  repeat' split
  all_goals simp

theorem tells_exitNotifier : exitNotifier.Tells ["forbidden"] := by
  intro file earlier stack call
  simp only [exitNotifier]
  repeat' split
  all_goals simp [allTell_reportCallee]

@[simp]
theorem isSound_noIgnoredNotifier : noIgnoredNotifier.IsSound :=
  isSound_ofHandlers_tells ["forbidden"] (by decide)
    (by simp [tells_enterNotifier, tells_sightIdentifier, tells_exitNotifier])

theorem tells_checkReplay : checkReplay.Tells ["forbidden"] := by
  intro file callee
  simp only [checkReplay]
  split
  · simp
  · split
    · simp
    · split
      · split <;> simp
      · simp

@[simp]
theorem isSound_noIgnoredReplayBuffer : noIgnoredReplayBuffer.IsSound :=
  isSound_ofChecks_tells ["forbidden"] (by decide) (by simp [tells_checkReplay])

theorem tells_checkTakeWhile : checkTakeWhile.Tells ["forbidden"] := by
  intro file predicate
  simp only [checkTakeWhile]
  split <;> simp

@[simp]
theorem isSound_noIgnoredTakewhileValue : noIgnoredTakewhileValue.IsSound :=
  isSound_ofChecks_tells ["forbidden"] (by decide) (by simp [tells_checkTakeWhile])

theorem tells_checkEnding (settings : TakeUntilSettings) :
    (checkEnding settings).Tells ["forbidden"] := by
  intro file operator
  simp [checkEnding, bind, pure]

@[simp]
theorem isSound_noUnsafeTakeuntil : noUnsafeTakeuntil.IsSound :=
  isSound_ofSettings_tells ["forbidden"] (by decide) (by simp [tells_checkEnding])

/-! ## Effects and epics -/

theorem tells_checkCycle (observable : Pattern) : (checkCycle observable).Tells ["forbidden"] := by
  intro file pipe
  simp only [checkCycle]
  split
  · simp
  · split <;> simp [allTell_reportCallee]

@[simp]
theorem isSound_noCyclicAction : noCyclicAction.IsSound :=
  isSound_ofSettings_tells ["forbidden"] (by decide) (by simp [tells_checkCycle])

theorem tells_checkCatch (observable : Pattern) : (checkCatch observable).Tells ["forbidden"] := by
  intro file pipe
  simp [checkCatch]

@[simp]
theorem isSound_noUnsafeCatch : noUnsafeCatch.IsSound :=
  isSound_ofSettings_tells ["forbidden"] (by decide) (by simp [tells_checkCatch])

theorem tells_checkFirst (observable : Pattern) : (checkFirst observable).Tells ["forbidden"] := by
  intro file pipe
  simp [checkFirst]

@[simp]
theorem isSound_noUnsafeFirst : noUnsafeFirst.IsSound :=
  isSound_ofSettings_tells ["forbidden"] (by decide) (by simp [tells_checkFirst])

theorem tells_checkSwitchMap (settings : SwitchMapSettings) :
    (checkSwitchMap settings).Tells ["forbidden"] := by
  intro file pipe
  simp [checkSwitchMap]

@[simp]
theorem isSound_noUnsafeSwitchmap : noUnsafeSwitchmap.IsSound :=
  isSound_ofSettings_tells ["forbidden"] (by decide) (by simp [tells_checkSwitchMap])

/-! ## Thrown values -/

theorem tells_checkThrown (settings : ThrowSettings) :
    (checkThrown settings).Tells ["forbidden"] := by
  intro file value
  simp only [checkThrown]
  split <;> simp

theorem tells_checkThrowError (settings : ThrowSettings) :
    (checkThrowError settings).Tells ["forbidden"] := by
  intro file call
  simp [checkThrowError, tells_checkThrown settings file]

@[simp]
theorem isSound_throwErrorRule : throwErrorRule.IsSound :=
  isSound_ofSettings_tells ["forbidden"] (by decide)
    (by simp [tells_checkThrown, tells_checkThrowError])

/-! ## Subjects -/

theorem tells_reportSubject {messageId : String} {ids : List String} (hmem : messageId ∈ ids)
    (tree : Tree) (name : NodeId) : (reportSubject messageId tree name).Tells tree ids := by
  simpa [reportSubject] using hmem

theorem tells_checkSubjectMember {messageId : String} {ids : List String}
    (hmem : messageId ∈ ids) : (checkSubjectMember messageId).Tells ids := by
  intro file member
  simp only [checkSubjectMember]
  split <;> simp [tells_reportSubject hmem]

theorem tells_checkSubjectParameter {messageId : String} {ids : List String}
    (hmem : messageId ∈ ids) : (checkSubjectParameter messageId).Tells ids := by
  intro file parameter
  simp [checkSubjectParameter, tells_reportSubject hmem]

theorem tells_checkSubjectMethod {messageId : String} {ids : List String}
    (hmem : messageId ∈ ids) : (checkSubjectMethod messageId).Tells ids := by
  intro file method
  simp only [checkSubjectMethod]
  split
  · simp only [Report.allTell_ite_iff, Report.allTell_cons_iff, Report.allTell_nil,
      tells_reportSubject hmem, and_self, implies_true]
  · simp

@[simp]
theorem isSound_noExposedSubjects : noExposedSubjects.IsSound := by
  apply isSound_ofSettings_tells ["forbidden", "forbiddenAllowProtected"] (by decide)
  intro allowProtected
  have hmem : (if allowProtected = true then "forbiddenAllowProtected" else "forbidden") ∈
      ["forbidden", "forbiddenAllowProtected"] := by
    split <;> simp
  simp only [exposedSubjectChecks, List.forall_mem_cons]
  exact ⟨tells_checkSubjectMember hmem, tells_checkSubjectParameter hmem,
    tells_checkSubjectMember hmem, tells_checkSubjectMethod hmem, List.forall_mem_nil _⟩

theorem tells_checkSuperClass : checkSuperClass.Tells ["forbidden"] := by
  intro file superClass
  simp only [checkSuperClass]
  split <;> simp

@[simp]
theorem isSound_noSubclass : noSubclass.IsSound :=
  isSound_ofChecks_tells ["forbidden"] (by decide) (by simp [tells_checkSuperClass])

theorem tells_checkAdded : checkAdded.Tells ["forbidden"] := by
  intro file call
  simp only [checkAdded]
  split
  · split <;> simp
  · simp

@[simp]
theorem isSound_noSubjectUnsubscribe : noSubjectUnsubscribe.IsSound :=
  isSound_ofChecks_tells ["forbidden"] (by decide)
    (by simp [tells_checkMember, tells_checkAdded])

@[simp]
theorem isSound_noSubjectValue : noSubjectValue.IsSound :=
  isSound_ofChecks_tells ["forbidden"] (by decide) (by simp [tells_checkMember])

@[simp]
theorem isSound_noUnsafeSubjectNext : noUnsafeSubjectNext.IsSound :=
  isSound_ofChecks_tells ["forbidden"] (by decide) (by simp [tells_checkMember])

theorem tells_checkRedundant : checkRedundant.Tells ["forbidden"] := by
  intro file statement
  simp [checkRedundant, bind, pure]

@[simp]
theorem isSound_noRedundantNotify : noRedundantNotify.IsSound :=
  isSound_ofChecks_tells ["forbidden"] (by decide) (by simp [tells_checkRedundant])

end ReactiveLint.Rules
