import ReactiveLint.Proofs.Rules.Sound
import ReactiveLint.Rules.Registry

/-!
# Rules that propose edits

The edits of a rule put a text in the place of a node or beside it, and so make a fix on
every built tree.  Only the observer of `prefer-observer` also removes what lies between
two arguments, which makes a fix just when the last one does not end before the first.
-/

namespace ReactiveLint.Rules

open BuiltInRule

variable {tree : Tree} {file : FileContext} {severity : Severity} {call first last : NodeId}
  {fault : RuleFault}

/-! ## The import of the compiler plugin -/

theorem tells_recordUse (ids : List String) : recordUse.Tells ids := by
  intro file earlier found node
  simp [recordUse]

theorem tells_recordPlugin (ids : List String) : recordPlugin.Tells ids := by
  intro file earlier found node
  simp [recordPlugin]

theorem isSound_checkPlugin : checkPlugin.IsSound pluginInfo := by
  intro file htree earlier found program
  simp only [checkPlugin]
  split
  next firstUse _ _ =>
    refine ⟨rfl, List.forall_mem_singleton.mpr ?_⟩
    have hplain : (file.tree.report "macro" firstUse).IsSound pluginInfo file.tree :=
      Report.isSound_report htree (by decide) firstUse
    exact hplain.fixedBy rfl (htree.makes_insertBefore program _)
  · simp

@[simp]
theorem isSound_pluginImport : pluginImport.IsSound := by
  have hids : ([] : List String) ⊆ pluginInfo.messages.map (·.1) := List.nil_subset _
  apply isSound_ofHandlers
  simp only [List.forall_mem_cons]
  exact ⟨(tells_recordUse []).isSound hids, (tells_recordUse []).isSound hids,
    (tells_recordPlugin []).isSound hids, isSound_checkPlugin, List.forall_mem_nil _⟩

/-! ## Internal locations -/

theorem isSound_checkInternal : checkInternal.handler.IsSound noInternalInfo := by
  intro file htree earlier state source
  refine ⟨rfl, ?_⟩
  have hplain : (file.tree.report "forbidden" source).IsSound noInternalInfo file.tree :=
    Report.isSound_report htree (by decide) source
  simp only [Check.handler, checkInternal]
  split
  next text _ =>
    have hmakes := htree.makes_replaceNode source text
    exact List.forall_mem_singleton.mpr
      ((hplain.fixedBy rfl hmakes).suggesting rfl (by decide) hmakes)
  · exact List.forall_mem_singleton.mpr hplain

@[simp]
theorem isSound_noInternal : noInternal.IsSound :=
  isSound_ofChecks (List.forall_mem_singleton.mpr isSound_checkInternal)

/-! ## The types of caught errors -/

theorem isSound_suggestUnknown {report : Report} {edits : List Edit}
    (hsound : report.IsSound noImplicitAnyCatchInfo tree)
    (hmakes : ∃ fix, Report.Makes tree.source edits fix) :
    (suggestUnknown report edits).IsSound noImplicitAnyCatchInfo tree :=
  hsound.suggesting rfl (by decide) hmakes

theorem isSound_typedParameterReports (htree : tree.IsBuilt) (allowAny : Bool)
    (parameter declared : NodeId) :
    ∀ report ∈ typedParameterReports allowAny tree parameter declared,
      report.IsSound noImplicitAnyCatchInfo tree := by
  have hmakes := htree.makes_replaceNode declared ": unknown"
  have hany : (tree.report "explicitAny" parameter).IsSound noImplicitAnyCatchInfo tree :=
    Report.isSound_report htree (by decide) parameter
  have hnarrowed : (tree.report "narrowed" parameter).IsSound noImplicitAnyCatchInfo tree :=
    Report.isSound_report htree (by decide) parameter
  simp only [typedParameterReports]
  split
  · exact List.forall_mem_nil _
  · exact List.forall_mem_nil _
  · split
    · exact List.forall_mem_nil _
    · exact List.forall_mem_singleton.mpr
        (isSound_suggestUnknown (hany.fixedBy rfl hmakes) hmakes)
  · exact List.forall_mem_singleton.mpr (isSound_suggestUnknown hnarrowed hmakes)

theorem makes_declareUnknown (htree : tree.IsBuilt) (callback parameter : NodeId) :
    ∃ fix, Report.Makes tree.source (declareUnknown tree callback parameter) fix := by
  simp only [declareUnknown]
  split
  · exact htree.makes_insertAfter parameter _
  · exact htree.makes_insertAround parameter _ _

theorem isSound_callbackReports (htree : tree.IsBuilt) (allowAny : Bool) (callback : NodeId) :
    ∀ report ∈ callbackReports allowAny tree callback,
      report.IsSound noImplicitAnyCatchInfo tree := by
  simp only [callbackReports]
  split
  · exact List.forall_mem_nil _
  · split
    · exact List.forall_mem_nil _
    next parameter _ =>
      split
      · exact List.forall_mem_nil _
      · split
        · exact isSound_typedParameterReports htree allowAny parameter _
        · have himplicit : (tree.report "implicitAny" parameter).IsSound
              noImplicitAnyCatchInfo tree := Report.isSound_report htree (by decide) parameter
          have hmakes := makes_declareUnknown htree callback parameter
          exact List.forall_mem_singleton.mpr
            (isSound_suggestUnknown (himplicit.fixedBy rfl hmakes) hmakes)

theorem isSound_checkErrorHandler (allowAny : Bool) :
    (checkErrorHandler allowAny).handler.IsSound noImplicitAnyCatchInfo := by
  intro file htree earlier state call
  refine ⟨rfl, fun report hreport => ?_⟩
  obtain ⟨callback, -, hreport⟩ := List.mem_flatMap.mp hreport
  exact isSound_callbackReports htree allowAny callback report hreport

theorem isSound_checkCatchError (allowAny : Bool) :
    (checkCatchError allowAny).handler.IsSound noImplicitAnyCatchInfo := by
  intro file htree earlier state call
  refine ⟨rfl, fun report hreport => ?_⟩
  obtain ⟨callback, -, hreport⟩ := List.mem_flatMap.mp hreport
  exact isSound_callbackReports htree allowAny callback report hreport

theorem isSound_checkSubscribeError (allowAny : Bool) :
    (checkSubscribeError allowAny).handler.IsSound noImplicitAnyCatchInfo := by
  intro file htree earlier state call
  obtain ⟨-, hsound⟩ := isSound_checkErrorHandler allowAny file htree earlier state call
  refine ⟨rfl, ?_⟩
  simp only [Check.handler, checkSubscribeError]
  split
  · exact hsound
  · exact List.forall_mem_nil _

@[simp]
theorem isSound_noImplicitAnyCatch : noImplicitAnyCatch.IsSound := by
  apply isSound_ofSettings
  intro allowAny
  simp only [List.forall_mem_cons]
  exact ⟨isSound_checkCatchError allowAny, isSound_checkSubscribeError allowAny,
    isSound_checkErrorHandler allowAny, List.forall_mem_nil _⟩

/-! ## Observers -/

/-- The arguments of a call run backward: the last one ends before the first one does. -/
structure RunsBackward (tree : Tree) (call first last : NodeId) : Prop where
  first?_eq : (tree.arguments call).first? = some first
  last?_eq : (tree.arguments call).last? = some last
  stop_lt : (tree.span last).stop < (tree.span first).stop

/-- The fault to which an observer for such arguments leads. -/
def backwardFault (tree : Tree) (first last : NodeId) : RuleFault :=
  .invalidFix preferObserverInfo.name
    (.outOfBounds ⟨(tree.span first).stop, (tree.span last).stop⟩
      (Text.byteLength tree.source.toList))

theorem ofEdits?_of_not_fitsIn {size : Nat} {fitting other : Edit}
    (hfitting : fitting.span.FitsIn size) (hother : ¬ other.span.FitsIn size) :
    Fix.ofEdits? [fitting, other] size = .error (.outOfBounds other.span size) := by
  have hbounds : Fix.outOfBounds? (StableSort.sort
      (fun left right : Edit => left.span.before right.span) [fitting, other]) size =
        some other.span := by
    simp only [StableSort.sort, StableSort.insert]
    split <;> simp [Fix.outOfBounds?, hfitting, hother]
  simp [Fix.ofEdits?, hbounds]

theorem observerEdits?_eq (hfirst : (tree.arguments call).first? = some first)
    (hlast : (tree.arguments call).last? = some last) :
    observerEdits? tree (tree.arguments call) =
      some (tree.replaceNode first (observerText ((tree.arguments call).ids.map tree.text)) ::
        if 1 < (tree.arguments call).length then
          [⟨⟨(tree.span first).stop, (tree.span last).stop⟩, ""⟩]
        else []) := by
  simp [observerEdits?, hfirst, hlast]

theorem first_eq_last {arguments : NodeList} (hlength : ¬ 1 < arguments.length)
    (hfirst : arguments.first? = some first) (hlast : arguments.last? = some last) :
    first = last := by
  match arguments, hlength with
  | [], _ => cases hfirst
  | [none], _ => cases hfirst
  | [some argument], _ =>
      exact (Option.some.inj hfirst).symm.trans (Option.some.inj hlast)
  | _ :: _ :: _, hlength => simp at hlength

section Observer

variable {edits : List Edit} (htree : tree.IsBuilt)
  (hedits : observerEdits? tree (tree.arguments call) = some edits)

include htree hedits

theorem makes_observerEdits (hfirst : (tree.arguments call).first? = some first)
    (hlast : (tree.arguments call).last? = some last)
    (hforward : (tree.span first).stop ≤ (tree.span last).stop) :
    ∃ fix, Report.Makes tree.source edits fix := by
  rw [observerEdits?_eq hfirst hlast] at hedits
  obtain rfl := Option.some.inj hedits
  have hfirstFits := htree.fitsIn_span first
  have hlastFits := htree.fitsIn_span last
  split
  · refine ⟨_, Fix.InOrder.ofEdits? ⟨?_, ?_⟩ (List.cons_ne_nil _ _)⟩
    · simp only [List.forall_mem_cons]
      exact ⟨hfirstFits, ⟨hforward, hlastFits.2⟩, List.forall_mem_nil _⟩
    · simp [Tree.replaceNode]
  · exact htree.makes_replaceNode first _

theorem ofEdits?_of_runsBackward (hback : RunsBackward tree call first last) :
    Fix.ofEdits? edits (Text.byteLength tree.source.toList) =
      .error (.outOfBounds ⟨(tree.span first).stop, (tree.span last).stop⟩
        (Text.byteLength tree.source.toList)) := by
  rw [observerEdits?_eq hback.first?_eq hback.last?_eq] at hedits
  obtain rfl := Option.some.inj hedits
  have hstop := hback.stop_lt
  split
  · refine ofEdits?_of_not_fitsIn (htree.fitsIn_span first) fun hfits => ?_
    exact Nat.not_lt_of_le hfits.1 hstop
  next hlength =>
    -- a lone argument is first and last
    rw [first_eq_last hlength hback.first?_eq hback.last?_eq] at hstop
    exact absurd hstop (Nat.lt_irrefl _)

end Observer

theorem RunsBackward.unique {other otherLast : NodeId} (hback : RunsBackward tree call first last)
    (hother : RunsBackward tree call other otherLast) : first = other ∧ last = otherLast :=
  ⟨Option.some.inj (hback.first?_eq.symm.trans hother.first?_eq),
    Option.some.inj (hback.last?_eq.symm.trans hother.last?_eq)⟩

theorem exists_first_last {arguments : NodeList} {edits : List Edit}
    (hedits : observerEdits? tree arguments = some edits) :
    ∃ first last, arguments.first? = some first ∧ arguments.last? = some last := by
  simp only [observerEdits?, bind, Option.bind_eq_some_iff] at hedits
  obtain ⟨first, hfirst, last, hlast, -⟩ := hedits
  exact ⟨first, last, hfirst, hlast⟩

/-- What is reported of separate handlers with an observer in their place. -/
def observerReport (tree : Tree) (reported : NodeId) (edits : List Edit) : Report :=
  ((tree.report "forbidden" reported).fixedBy edits).suggesting "forbidden" edits

theorem checkHandlers_eq {allowNext : Bool} {reported : NodeId} {edits : List Edit}
    (hreports : checkHandlers allowNext file call reported ≠ [])
    (hedits : observerEdits? file.tree (file.tree.arguments call) = some edits) :
    checkHandlers allowNext file call reported = [observerReport file.tree reported edits] := by
  simp only [checkHandlers, hedits] at hreports ⊢
  split at hreports
  next hseparate => rw [if_pos hseparate]; rfl
  · exact absurd rfl hreports

section Handlers

variable (htree : file.tree.IsBuilt) {allowNext : Bool} {reported : NodeId}

include htree

theorem isSound_reported (reported : NodeId) :
    (file.tree.report "forbidden" reported).IsSound preferObserverInfo file.tree :=
  Report.isSound_report htree (by decide) reported

/-- Whatever becomes of its edits, what is reported befits the rule. -/
theorem befits_checkHandlers : ∀ report ∈ checkHandlers allowNext file call reported,
    report.Befits preferObserverInfo file.tree := by
  have hbefits := (isSound_reported htree reported).toBefits
  simp only [checkHandlers]
  split
  · split
    next edits _ =>
      exact List.forall_mem_singleton.mpr
        ((hbefits.fixedBy rfl edits).suggesting rfl "forbidden" edits)
    · exact List.forall_mem_singleton.mpr hbefits
  · exact List.forall_mem_nil _

theorem isAccepted_checkHandlers
    (hforward : ∀ first last, ¬ RunsBackward file.tree call first last) :
    ∀ report ∈ checkHandlers allowNext file call reported,
      report.IsAccepted preferObserverInfo file.tree.source := by
  have haccepted := (isSound_reported htree reported).toIsAccepted
  simp only [checkHandlers]
  split
  · split
    next edits hedits =>
      obtain ⟨first, last, hfirst, hlast⟩ := exists_first_last hedits
      have hstop := Nat.le_of_not_lt fun hstop => hforward first last ⟨hfirst, hlast, hstop⟩
      have hmakes := makes_observerEdits htree hedits hfirst hlast hstop
      exact List.forall_mem_singleton.mpr
        ((haccepted.fixedBy hmakes).suggesting (by decide) hmakes)
    · exact List.forall_mem_singleton.mpr haccepted
  · exact List.forall_mem_nil _

theorem diagnoseAll_checkHandlers (hreports : checkHandlers allowNext file call reported ≠ [])
    (hback : RunsBackward file.tree call first last) :
    (Progress.diagnoseAll file preferObserverInfo severity
      (checkHandlers allowNext file call reported)).2 =
        some (backwardFault file.tree first last) := by
  obtain ⟨edits, hedits⟩ : ∃ edits, observerEdits? file.tree (file.tree.arguments call) =
      some edits := ⟨_, observerEdits?_eq hback.first?_eq hback.last?_eq⟩
  have hrefused := ofEdits?_of_runsBackward htree hedits hback
  have hknown : preferObserverInfo.message? "forbidden" ≠ none := by decide
  have hdiagnose : (observerReport file.tree reported edits).diagnose preferObserverInfo severity
      file.path file.tree.source = .error (backwardFault file.tree first last) :=
    Report.diagnose_eq_error hknown rfl hrefused
  rw [checkHandlers_eq hreports hedits, Progress.diagnoseAll, hdiagnose]

/-- Separate handlers end in a fault exactly when they are reported and run backward. -/
theorem diagnoseAll_checkHandlers_iff :
    (Progress.diagnoseAll file preferObserverInfo severity
        (checkHandlers allowNext file call reported)).2 = some fault ↔
      checkHandlers allowNext file call reported ≠ [] ∧
        ∃ first last, RunsBackward file.tree call first last ∧
          fault = backwardFault file.tree first last := by
  by_cases hback : ∃ first last, RunsBackward file.tree call first last
  · obtain ⟨first, last, hback⟩ := hback
    by_cases hreports : checkHandlers allowNext file call reported = []
    · simp [hreports, Progress.diagnoseAll]
    · rw [diagnoseAll_checkHandlers htree hreports hback]
      constructor
      · intro hfault
        exact ⟨hreports, first, last, hback, (Option.some.inj hfault).symm⟩
      · rintro ⟨-, other, otherLast, hother, rfl⟩
        obtain ⟨rfl, rfl⟩ := hback.unique hother
        rfl
  · have hforward : ∀ first last, ¬ RunsBackward file.tree call first last :=
      fun first last hruns => hback ⟨first, last, hruns⟩
    rw [Progress.diagnoseAll_snd_eq_none (isAccepted_checkHandlers htree hforward)]
    simp [hforward]

end Handlers

end ReactiveLint.Rules
