import ReactiveLint.Proofs.Engine.Course
import ReactiveLint.Proofs.Engine.Position
import ReactiveLint.Proofs.Pattern.Words
import ReactiveLint.Proofs.Rules.Plain
import ReactiveLint.Proofs.Selector.Attributes
import ReactiveLint.Proofs.Selector.Downward

/-!
# Notifiers on a stack

The rule against ignored notifiers learns of a call when it is entered, of identifiers while
they are walked through, and decides when the call is left.  In between it has a stack.  At
every point of the walk this stack has the tracked calls that are open, each with the number
of identifiers of its name that have been met nearest to it, so that what the rule reports can
be read off the tree.
-/

namespace ReactiveLint.Rules

variable {file : FileContext} {call callback node : NodeId} {name : String} {seen rest : List Event}
  {stack : List Notifier} {earlier : List Diagnostic}

/-! ## Tracked calls -/

/-- The words that the callee of a notifier call may be named. -/
def notifierNames : List String := ["repeatWhen", "retryWhen"]

/-- Whether a node is a call of `repeatWhen` or `retryWhen`. -/
def isNotifierCall (tree : Tree) (call : NodeId) : Bool :=
  tree.is call .callExpression &&
    ((tree.child? call "callee").bind (tree.str? · "name")).any notifierNames.contains

/-- The function of a call of `repeatWhen` or `retryWhen` that may have the type of an
operator. -/
def notifierCallback? (file : FileContext) (call : NodeId) : Option NodeId :=
  if isNotifierCall file.tree call && couldBe "MonoTypeOperatorFunction" file call then
    callback? file.tree call
  else none

def parameter? (tree : Tree) (callback : NodeId) : Option NodeId :=
  (tree.list callback "params").first?

/-- The name of the notifier of a tracked call: one whose function has a named identifier for
its first parameter. -/
def trackedName? (file : FileContext) (call : NodeId) : Option String := do
  let callback ← notifierCallback? file call
  let parameter ← parameter? file.tree callback
  if file.tree.is parameter .identifier then file.tree.name? parameter else none

/-- Whether the function of a call has no parameter. -/
def lacksParameter (file : FileContext) (call : NodeId) : Bool :=
  (notifierCallback? file call).any fun callback => (parameter? file.tree callback).isNone

/-- The tracked call next above a node. -/
def nearestTracked? (file : FileContext) (node : NodeId) : Option NodeId :=
  (file.tree.ancestors node).find? fun above => (trackedName? file above).isSome

/-- Whether a node is an identifier of a name whose nearest tracked call is a given one. -/
def isSighting (file : FileContext) (call : NodeId) (name : String) (node : NodeId) : Bool :=
  file.tree.isIdentifier node name && nearestTracked? file node == some call

/-- The identifiers of a name whose nearest tracked call is a given one. -/
def sightings (file : FileContext) (call : NodeId) (name : String) : List NodeId :=
  file.tree.ids.filter (isSighting file call name)

/-- Whether a call ignores its notifier: it has no parameter for it, or it is tracked and has
fewer than two sightings. -/
def ignoresNotifier (file : FileContext) (call : NodeId) : Bool :=
  lacksParameter file call ||
    (trackedName? file call).any fun name => decide ((sightings file call name).length < 2)

theorem notifierCallback?_eq_some_iff : notifierCallback? file call = some callback ↔
    isNotifierCall file.tree call = true ∧ couldBe "MonoTypeOperatorFunction" file call = true ∧
      callback? file.tree call = some callback := by
  simp [notifierCallback?, and_assoc]

theorem trackedName?_eq_some_iff : trackedName? file call = some name ↔
    ∃ callback parameter, notifierCallback? file call = some callback ∧
      parameter? file.tree callback = some parameter ∧
      file.tree.is parameter .identifier = true ∧ file.tree.name? parameter = some name := by
  simp [trackedName?, bind, Option.bind_eq_some_iff]

theorem lacksParameter_eq_true_iff : lacksParameter file call = true ↔
    ∃ callback, notifierCallback? file call = some callback ∧
      parameter? file.tree callback = none := by
  simp [lacksParameter, Option.any_eq_true]

/-- A call is entered with a parameter to watch or reported, not both. -/
theorem trackedName?_of_lacksParameter (hlacks : lacksParameter file call = true) :
    trackedName? file call = none := by
  obtain ⟨callback, hcallback, hnone⟩ := lacksParameter_eq_true_iff.mp hlacks
  simp [trackedName?, hcallback, hnone]

theorem isNotifierCall_of_trackedName? (htracked : trackedName? file call = some name) :
    isNotifierCall file.tree call = true := by
  obtain ⟨callback, parameter, hcallback, -⟩ := trackedName?_eq_some_iff.mp htracked
  exact (notifierCallback?_eq_some_iff.mp hcallback).1

theorem isNotifierCall_of_lacksParameter (hlacks : lacksParameter file call = true) :
    isNotifierCall file.tree call = true := by
  obtain ⟨callback, hcallback, -⟩ := lacksParameter_eq_true_iff.mp hlacks
  exact (notifierCallback?_eq_some_iff.mp hcallback).1

theorem kind_of_isNotifierCall (hcall : isNotifierCall file.tree call = true) :
    file.tree.kind call = .callExpression := by
  rw [isNotifierCall, Bool.and_eq_true, Tree.is, beq_iff_eq] at hcall
  exact hcall.1

theorem exists_callee_of_isNotifierCall (hcall : isNotifierCall file.tree call = true) :
    ∃ callee, file.tree.child? call "callee" = some callee := by
  rw [isNotifierCall, Bool.and_eq_true, Option.any_eq_true] at hcall
  obtain ⟨-, word, hword, -⟩ := hcall
  obtain ⟨callee, hcallee, -⟩ := Option.bind_eq_some_iff.mp hword
  exact ⟨callee, hcallee⟩

/-! ## The rule -/

/-- The selector of the rule, as it is read. -/
def notifierSelector : Selector :=
  .compound [.kind .callExpression, .equals ["callee", "name"]
    (.pattern "^(repeatWhen|retryWhen)$" (.oneOf "repeatWhen" ["retryWhen"]))]

def notifierListeners : List (Listener (List Notifier)) :=
  [ ⟨⟨notifierCall, notifierSelector, false, _, rfl⟩, enterNotifier⟩
  , ⟨.ofKind "Identifier" .identifier, sightIdentifier⟩
  , ⟨⟨notifierCall ++ ":exit", notifierSelector, true, _, rfl⟩, exitNotifier⟩ ]

def notifierRule : Rule := ⟨noIgnoredNotifierInfo, List Notifier, [], notifierListeners⟩

set_option maxRecDepth 4000 in
/-- The selectors of the rule are read as they are above. -/
theorem ofHandlers?_notifierRule : Rule.ofHandlers? noIgnoredNotifierInfo (List Notifier) []
    [(notifierCall, enterNotifier), ("Identifier", sightIdentifier),
      (notifierCall ++ ":exit", exitNotifier)] = .ok notifierRule := by
  have hselector : Selector.parse notifierCall = .ok notifierSelector := rfl
  have henter : Trigger.parse notifierCall = .ok ⟨notifierCall, notifierSelector, false, _, rfl⟩ :=
    Trigger.parse_eq_ok (by decide +kernel) (by decide +kernel) hselector
  have hidentifier : Trigger.parse "Identifier" = .ok (.ofKind "Identifier" .identifier) := rfl
  have hexit : Trigger.parse (notifierCall ++ ":exit") =
      .ok ⟨notifierCall ++ ":exit", notifierSelector, true, _, rfl⟩ := by
    have hmark : Trigger.dropExitMark? (Text.trim (notifierCall ++ ":exit").toList) =
        some notifierCall.toList := by
      decide +kernel
    have hbody : String.ofList (Text.trimEnd notifierCall.toList) = notifierCall := by
      decide +kernel
    simp only [Trigger.parse, hmark, hbody, hselector]
    rfl
  simp only [Rule.ofHandlers?, List.mapM_cons, List.mapM_nil, Listener.on?, henter, hidentifier,
    hexit]
  rfl

/-- The rule is the same from all options that it accepts. -/
theorem eq_notifierRule {options : Json} {rule : Rule}
    (hmake : noIgnoredNotifier.make options = .ok rule) : rule = notifierRule :=
  BuiltInRule.eq_of_ofHandlers_make ofHandlers?_notifierRule hmake

theorem make_noIgnoredNotifier : noIgnoredNotifier.make .null = .ok notifierRule :=
  BuiltInRule.ofHandlers_make_null ofHandlers?_notifierRule

theorem isSound_notifierRule : notifierRule.IsSound :=
  isSound_noIgnoredNotifier .null notifierRule make_noIgnoredNotifier

theorem isForgetful_notifierRule : notifierRule.IsForgetful := by
  have hall : ∀ listener ∈ notifierListeners, Handler.IsForgetful listener.react := by
    simp only [notifierListeners, List.forall_mem_cons]
    exact ⟨fun _ _ _ _ => rfl, fun _ _ _ _ => rfl, fun _ _ _ _ => rfl, List.forall_mem_nil _⟩
  exact hall

theorem isMatch_notifierSelector (tree : Tree) (node : NodeId) :
    notifierSelector.isMatch tree node = isNotifierCall tree node := by
  have hwords : (Pattern.oneOf "repeatWhen" ["retryWhen"]).isMatch = notifierNames.contains := by
    funext word
    rw [Bool.eq_iff_iff, Pattern.isMatch_oneOf_iff, List.contains_iff_mem]
    rfl
  rw [notifierSelector, Selector.isMatch_pair,
    Selector.isMatch_equals_cons (by decide) (by decide), isNotifierCall]
  simp only [Selector.isMatch_equals_pattern (show IsSlotName "name" by decide), hwords]
  cases tree.child? node "callee" <;> rfl

/-! ## What the handlers do -/

theorem enterNotifier_eq (hcall : isNotifierCall file.tree call = true) :
    enterNotifier file earlier stack call =
      { state := (trackedName? file call).toList.map (⟨call, ·, 0⟩) ++ stack
        reports := if lacksParameter file call then reportCallee file.tree call else [] } := by
  obtain ⟨callee, hcallee⟩ := exists_callee_of_isNotifierCall hcall
  simp only [enterNotifier, trackedName?, lacksParameter, notifierCallback?, hcall, hcallee,
    Bool.true_and, reportCallee, parameter?, bind]
  split
  · cases callback? file.tree call with
    | none => rfl
    | some callback =>
        cases hparameter : (file.tree.list callback "params").first? with
        | none => simp [hparameter]
        | some parameter =>
            simp only [Option.bind_some, Option.any_some, hparameter]
            split
            · cases file.tree.name? parameter <;> rfl
            · rfl
  · rfl

/-- A call that is not on the stack leaves it as it is. -/
theorem exitNotifier_of_ne (hne : ∀ notifier ∈ stack, notifier.call ≠ call) :
    exitNotifier file earlier stack call = { state := stack } := by
  cases stack with
  | nil => rfl
  | cons top stack => simp [exitNotifier, hne top List.mem_cons_self]

/-- How the rule reacts to an event: no two of its listeners attend to the same one. -/
def notifierReaction (file : FileContext) (stack : List Notifier) (event : Event) :
    Reaction (List Notifier) :=
  match event.phase with
  | .enter =>
      if isNotifierCall file.tree event.node then enterNotifier file [] stack event.node
      else if file.tree.is event.node .identifier then sightIdentifier file [] stack event.node
      else { state := stack }
  | .exit =>
      if isNotifierCall file.tree event.node then exitNotifier file [] stack event.node
      else { state := stack }

theorem attend_notifierListeners (reports : List Report) (event : Event) :
    Course.attend file notifierListeners ⟨stack, reports⟩ event =
      ⟨(notifierReaction file stack event).state,
        reports ++ (notifierReaction file stack event).reports⟩ := by
  obtain ⟨node, phase⟩ := event
  simp only [Course.attend, notifierListeners, Trigger.ofKind, List.filter_cons,
    List.filter_nil, Trigger.fires, isMatch_notifierSelector, Selector.isMatch_kind,
    notifierReaction]
  by_cases hcall : isNotifierCall file.tree node = true
  · have hkind : file.tree.is node .identifier = false := by
      simp [Tree.is, kind_of_isNotifierCall hcall]
    cases phase <;> simp [hcall, hkind, Course.react]
  · cases hkind : file.tree.is node .identifier <;> cases phase <;>
      simp [hcall, Course.react]

/-- Whether an event enters a sighting of a name for a call. -/
def isSighted (file : FileContext) (call : NodeId) (name : String) (event : Event) : Bool :=
  event.phase == .enter && isSighting file call name event.node

/-- What the rule has on its stack when some events have been seen and some nodes are open. -/
def stackAt (file : FileContext) (seen : List Event) (nodes : List NodeId) : List Notifier :=
  nodes.filterMap fun call => (trackedName? file call).map fun name =>
    ⟨call, name, seen.countP (isSighted file call name)⟩

theorem stackAt_cons_of_none (htracked : trackedName? file call = none) (nodes : List NodeId) :
    stackAt file seen (call :: nodes) = stackAt file seen nodes := by
  simp [stackAt, htracked]

theorem stackAt_cons_of_some (htracked : trackedName? file call = some name)
    (nodes : List NodeId) :
    stackAt file seen (call :: nodes) =
      ⟨call, name, seen.countP (isSighted file call name)⟩ :: stackAt file seen nodes := by
  simp [stackAt, htracked]

theorem call_mem_of_mem_stackAt {nodes : List NodeId} {notifier : Notifier}
    (hmem : notifier ∈ stackAt file seen nodes) : notifier.call ∈ nodes := by
  obtain ⟨call, hcall, hnotifier⟩ := List.mem_filterMap.mp hmem
  obtain ⟨name, -, rfl⟩ := Option.map_eq_some_iff.mp hnotifier
  exact hcall

/-- An event that is no sighting changes nothing. -/
theorem stackAt_append_singleton {event : Event} (nodes : List NodeId)
    (hevent : event.phase = .exit ∨ file.tree.is event.node .identifier = false) :
    stackAt file (seen ++ [event]) nodes = stackAt file seen nodes := by
  have hsighted (call : NodeId) (name : String) : isSighted file call name event = false := by
    rcases hevent with hphase | hkind
    · simp [isSighted, hphase]
    · simp [isSighted, isSighting, Tree.isIdentifier, hkind]
  simp [stackAt, List.countP_append, hsighted]

/-- An identifier is counted for the innermost of the nodes that are tracked. -/
theorem sightIdentifier_stackAt {nodes : List NodeId} (hnodup : nodes.Nodup)
    (hkind : file.tree.is node .identifier = true)
    (hnearest : nearestTracked? file node =
      nodes.find? fun above => (trackedName? file above).isSome) :
    sightIdentifier file earlier (stackAt file seen nodes) node =
      { state := stackAt file (seen ++ [⟨node, .enter⟩]) nodes } := by
  have hcount (call : NodeId) (name : String) :
      (seen ++ [(⟨node, .enter⟩ : Event)]).countP (isSighted file call name) =
        seen.countP (isSighted file call name) +
          if file.tree.name? node = some name ∧ nearestTracked? file node = some call then 1
          else 0 := by
    simp [List.countP_append, List.countP_singleton, isSighted, isSighting, Tree.isIdentifier,
      hkind]
  induction nodes with
  | nil => rfl
  | cons call nodes ih =>
      obtain ⟨hcall, hnodes⟩ := List.nodup_cons.mp hnodup
      cases htracked : trackedName? file call with
      | none =>
          rw [List.find?_cons_of_neg (by simp [htracked])] at hnearest
          rw [stackAt_cons_of_none htracked, stackAt_cons_of_none htracked]
          exact ih hnodes hnearest
      | some name =>
          rw [List.find?_cons_of_pos (by simp [htracked])] at hnearest
          -- the calls further out have no part in it
          have hrest : stackAt file (seen ++ [⟨node, .enter⟩]) nodes = stackAt file seen nodes := by
            refine List.filterMap_congr fun other hother => ?_
            have hne : call ≠ other := fun heq => hcall (heq ▸ hother)
            simp only [hcount, hnearest, Option.some_inj, hne, and_false, if_false, Nat.add_zero]
          rw [stackAt_cons_of_some htracked, stackAt_cons_of_some htracked, hrest, hcount]
          simp only [sightIdentifier, hnearest, and_true]
          split <;> rfl

/-! ## Along the walk -/

/-- Whether the rule reports the node of an event: a call that is entered without a parameter,
or a tracked one that is left with fewer than two sightings. -/
def isReportedOn (file : FileContext) (event : Event) : Bool :=
  match event.phase with
  | .enter => lacksParameter file event.node
  | .exit => (trackedName? file event.node).any fun name =>
      decide ((sightings file event.node name).length < 2)

section Walk

variable (htree : file.tree.IsBuilt)

include htree

theorem above_of_isSighting (hnode : node < file.tree.size)
    (hsighting : isSighting file call name node = true) : file.tree.Above node call := by
  rw [isSighting, Bool.and_eq_true, beq_iff_eq] at hsighting
  exact (htree.mem_ancestors_iff hnode).mp (List.mem_of_find?_eq_some hsighting.2)

/-- Nothing below a call has been met before it is entered. -/
theorem countP_isSighted_enter (hsplit : file.tree.walk = seen ++ ⟨call, .enter⟩ :: rest)
    (name : String) : seen.countP (isSighted file call name) = 0 := by
  rw [List.countP_eq_zero]
  rintro ⟨node, phase⟩ hmem hsighted
  simp only [isSighted, Bool.and_eq_true, beq_iff_eq] at hsighted
  obtain ⟨rfl, hsighting⟩ := hsighted
  have hnode : node < file.tree.size := htree.lt_size_of_mem_seen hsplit hmem
  have habove := above_of_isSighting htree hnode hsighting
  have hne : (⟨node, .enter⟩ : Event) ≠ ⟨call, .enter⟩ := by
    intro heq
    obtain rfl : node = call := congrArg Event.node heq
    exact htree.not_above_self habove
  have horder : [⟨call, .enter⟩, ⟨node, .enter⟩].Sublist file.tree.walk :=
    htree.enter_before (htree.lt_size_of_split hsplit) habove.to_reflTransGen hne
  exact htree.not_mem_seen_of_sublist hsplit horder hmem

/-- All sightings of a call have been met when it is left. -/
theorem countP_isSighted_exit (hsplit : file.tree.walk = seen ++ ⟨call, .exit⟩ :: rest)
    (name : String) :
    seen.countP (isSighted file call name) = (sightings file call name).length := by
  have hseen : seen.Nodup := (hsplit ▸ htree.nodup_walk).of_append_left
  have hmet : (Event.nodesOn (isSighted file call name) seen).Perm (sightings file call name) := by
    have hnodup : (Event.nodesOn (isSighted file call name) seen).Nodup := by
      refine Event.nodup_nodesOn hseen fun node phase phase' hleft hright => ?_
      simp only [isSighted, Bool.and_eq_true, beq_iff_eq] at hleft hright
      rw [hleft.1, hright.1]
    refine (List.perm_ext_iff_of_nodup hnodup (List.nodup_range.filter _)).mpr fun node => ?_
    simp only [Event.mem_nodesOn_iff, List.mem_filter, List.mem_range, isSighted, Bool.and_eq_true,
      beq_iff_eq]
    constructor
    · rintro ⟨phase, hmem, -, hsighting⟩
      exact ⟨htree.lt_size_of_mem_seen hsplit hmem, hsighting⟩
    · rintro ⟨hnode, hsighting⟩
      have habove := above_of_isSighting htree hnode hsighting
      have horder : [⟨node, .enter⟩, ⟨call, .exit⟩].Sublist file.tree.walk :=
        htree.before_exit (htree.lt_size_of_split hsplit) habove.to_reflTransGen (by simp)
      exact ⟨.enter, htree.mem_seen_of_sublist hsplit horder, rfl, hsighting⟩
  rw [← hmet.length_eq, Event.nodesOn, List.length_map, List.countP_eq_length_filter]

theorem notifierReaction_enter (hsplit : file.tree.walk = seen ++ ⟨node, .enter⟩ :: rest) :
    notifierReaction file (stackAt file seen (file.tree.ancestors node)) ⟨node, .enter⟩ =
      { state := stackAt file (seen ++ [⟨node, .enter⟩]) (node :: file.tree.ancestors node)
        reports := if lacksParameter file node then reportCallee file.tree node else [] } := by
  have hnode : node < file.tree.size := htree.lt_size_of_split hsplit
  have hnodup := (List.nodup_cons.mp (htree.isLineage_ancestors hnode).nodup).2
  simp only [notifierReaction]
  by_cases hcall : isNotifierCall file.tree node = true
  · have hkind : file.tree.is node .identifier = false := by
      simp [Tree.is, kind_of_isNotifierCall hcall]
    rw [if_pos hcall, enterNotifier_eq hcall, stackAt_append_singleton _ (.inr hkind)]
    cases htracked : trackedName? file node with
    | none => rw [stackAt_cons_of_none htracked]; rfl
    | some name =>
        rw [stackAt_cons_of_some htracked, countP_isSighted_enter htree hsplit name]
        rfl
  · have htracked : trackedName? file node = none :=
      Option.eq_none_iff_forall_ne_some.mpr fun name htracked =>
        hcall (isNotifierCall_of_trackedName? htracked)
    have hlacks : ¬ lacksParameter file node = true := fun hlacks =>
      hcall (isNotifierCall_of_lacksParameter hlacks)
    rw [if_neg hcall, if_neg hlacks, stackAt_cons_of_none htracked]
    split
    next hkind => exact sightIdentifier_stackAt hnodup hkind rfl
    next hkind => rw [stackAt_append_singleton _ (.inr (Bool.eq_false_iff.mpr hkind))]

theorem notifierReaction_exit (hsplit : file.tree.walk = seen ++ ⟨node, .exit⟩ :: rest) :
    notifierReaction file (stackAt file seen (node :: file.tree.ancestors node)) ⟨node, .exit⟩ =
      { state := stackAt file (seen ++ [⟨node, .exit⟩]) (file.tree.ancestors node)
        reports :=
          if (trackedName? file node).any fun name =>
              decide ((sightings file node name).length < 2) then
            reportCallee file.tree node
          else [] } := by
  have hnode : node < file.tree.size := htree.lt_size_of_split hsplit
  have hself := (List.nodup_cons.mp (htree.isLineage_ancestors hnode).nodup).1
  rw [stackAt_append_singleton _ (.inl rfl)]
  simp only [notifierReaction]
  cases htracked : trackedName? file node with
  | none =>
      -- the innermost tracked call is further out, so it stays
      have hne : ∀ notifier ∈ stackAt file seen (file.tree.ancestors node),
          notifier.call ≠ node := by
        intro notifier hmem heq
        have hcall := call_mem_of_mem_stackAt hmem
        rw [heq] at hcall
        exact hself hcall
      rw [stackAt_cons_of_none htracked, exitNotifier_of_ne hne, ite_self]
      rfl
  | some name =>
      rw [if_pos (isNotifierCall_of_trackedName? htracked), stackAt_cons_of_some htracked,
        countP_isSighted_exit htree hsplit]
      simp [exitNotifier]

/-- The reaction to an event keeps the stack in step with the walk. -/
theorem notifierReaction_eq {event : Event} (hsplit : file.tree.walk = seen ++ event :: rest) :
    notifierReaction file (stackAt file seen (file.tree.openBefore event)) event =
      { state := stackAt file (seen ++ [event]) (file.tree.openAfter event)
        reports := if isReportedOn file event then reportCallee file.tree event.node else [] } := by
  obtain ⟨node, phase⟩ := event
  cases phase with
  | enter => exact notifierReaction_enter htree hsplit
  | exit => exact notifierReaction_exit htree hsplit

/-- Along the walk the rule has the open tracked calls on its stack, and it has reported the
callees of the calls that it was to report by then. -/
theorem after_notifierRule :
    Course.after file notifierRule file.tree.walk =
        ⟨[], (Event.nodesOn (isReportedOn file) file.tree.walk).flatMap (reportCallee file.tree)⟩ ∧
      ∀ seen event rest, file.tree.walk = seen ++ event :: rest →
        Course.after file notifierRule seen =
          ⟨stackAt file seen (file.tree.openBefore event),
            (Event.nodesOn (isReportedOn file) seen).flatMap (reportCallee file.tree)⟩ := by
  let P (seen : List Event) (nodes : List NodeId) : Prop :=
    Course.after file notifierRule seen =
      ⟨stackAt file seen nodes,
        (Event.nodesOn (isReportedOn file) seen).flatMap (reportCallee file.tree)⟩
  suffices hstep : ∀ seen event rest, file.tree.walk = seen ++ event :: rest →
      P seen (file.tree.openBefore event) → P (seen ++ [event]) (file.tree.openAfter event) from
    htree.walk_invariant rfl hstep
  intro seen event rest hsplit (hseen : Course.after file notifierRule seen = _)
  show Course.after file notifierRule (seen ++ [event]) = _
  rw [Course.after_append_singleton, hseen, Event.flatMap_nodesOn_append]
  refine (attend_notifierListeners _ event).trans ?_
  rw [notifierReaction_eq htree hsplit]
  rfl

end Walk

end ReactiveLint.Rules
