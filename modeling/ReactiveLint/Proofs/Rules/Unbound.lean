import ReactiveLint.Proofs.Engine.Course
import ReactiveLint.Proofs.Engine.Position
import ReactiveLint.Proofs.Pattern.Words
import ReactiveLint.Proofs.Rules.Calling
import ReactiveLint.Proofs.Rules.Plain

/-!
# Methods without their object

The rule against unbound methods flags arguments while it enters calls, and looks for the nearest
flagged node above each `this`.  A call is entered before what is below it, so at a `this` the
flagged nodes above it are all the unbound methods above it, and what is reported can be read off
the line from the `this` to the root.
-/

namespace ReactiveLint.Rules

variable {file other : FileContext} {call operator argument this above : NodeId}
  {flagged : List NodeId} {seen rest : List Event} {severity : Severity} {rule : Rule}

/-! ## Unbound methods -/

namespace Calling

def callsSubscribe (calling : Calling) : Bool :=
  calling.kind == .callExpression &&
    (calling.method.bind Scalar.asText?).any ["add", "subscribe"].contains

/-- A call of `subscribe` or `add` on an observable or a subscription. -/
def isSubscribing (calling : Calling) : Bool :=
  calling.callsSubscribe && (calling.onObservable || calling.onSubscription)

/-- A call of `new Subscription`. -/
def isNewSubscription (calling : Calling) : Bool :=
  calling.kind == .newExpression && calling.name.any fun name => name.toText == "Subscription"

end Calling

/-- The calls that keep the functions they are given. -/
inductive KeepsFunctions (file : FileContext) : NodeId → Prop
  | subscribing {call : NodeId} (hcall : (calling file call).isSubscribing = true) :
      KeepsFunctions file call
  | subscription {call : NodeId} (hcall : (calling file call).isNewSubscription = true) :
      KeepsFunctions file call
  /-- An operator is a call among the arguments of `pipe`. -/
  | operator {pipe operator : NodeId} (hpipe : (calling file pipe).isPipe = true)
      (hkind : (calling file operator).kind = .callExpression)
      (hoperator : operator ∈ (file.tree.arguments pipe).ids) : KeepsFunctions file operator

/-- A member with the type of a function, as an argument of a call that keeps it. -/
structure IsUnbound (file : FileContext) (argument : NodeId) : Prop where
  kind_eq : (calling file argument).kind = .memberExpression
  isFunction : file.types.couldBeFunction argument = true
  isKept : ∃ call, KeepsFunctions file call ∧ argument ∈ (file.tree.arguments call).ids

/-- The methods that the operators in a call of `pipe` are given. -/
def pipedMethods (file : FileContext) (call : NodeId) : List NodeId :=
  if (calling file call).isPipe then
    ((file.tree.arguments call).ids.filter (file.tree.is · .callExpression)).flatMap
      fun operator => methodArguments file (file.tree.arguments operator)
  else []

/-- The methods that a call is given, if it keeps them. -/
def givenMethods (file : FileContext) (keeps : Bool) (call : NodeId) : List NodeId :=
  if keeps then methodArguments file (file.tree.arguments call) else []

/-- The nodes that are flagged when a call is entered. -/
def flaggedBy (file : FileContext) (call : NodeId) : List NodeId :=
  pipedMethods file call ++ givenMethods file (calling file call).isSubscribing call ++
    givenMethods file (calling file call).isNewSubscription call

/-- Whether some call flags a node. -/
def isUnbound (file : FileContext) (argument : NodeId) : Bool :=
  file.tree.ids.any fun call => (flaggedBy file call).contains argument

/-- The nearest unbound method around a node. -/
def nearestUnbound? (file : FileContext) (node : NodeId) : Option NodeId :=
  (file.tree.ancestors node).find? (isUnbound file)

theorem mem_methodArguments_iff {arguments : NodeList} :
    argument ∈ methodArguments file arguments ↔ argument ∈ arguments.ids ∧
      (calling file argument).kind = .memberExpression ∧
        file.types.couldBeFunction argument = true := by
  simp [methodArguments, Tree.is]

theorem mem_pipedMethods_iff :
    argument ∈ pipedMethods file call ↔ (calling file call).isPipe = true ∧
      ∃ operator ∈ (file.tree.arguments call).ids,
        (calling file operator).kind = .callExpression ∧
          argument ∈ methodArguments file (file.tree.arguments operator) := by
  rw [pipedMethods]
  split
  next hpipe => simp [hpipe, Tree.is, and_assoc]
  next hpipe => simp [hpipe]

theorem mem_givenMethods_iff {keeps : Bool} :
    argument ∈ givenMethods file keeps call ↔
      keeps = true ∧ argument ∈ methodArguments file (file.tree.arguments call) := by
  cases keeps <;> simp [givenMethods]

/-- The flagged nodes are the unbound methods. -/
theorem exists_mem_flaggedBy_iff :
    (∃ call, argument ∈ flaggedBy file call) ↔ IsUnbound file argument := by
  simp only [flaggedBy, List.mem_append, mem_pipedMethods_iff, mem_givenMethods_iff,
    mem_methodArguments_iff]
  constructor
  · rintro ⟨call, (⟨hpipe, operator, hoperator, hkind, hmem, hmember, hfunction⟩ |
      ⟨hcall, hmem, hmember, hfunction⟩) | ⟨hcall, hmem, hmember, hfunction⟩⟩
    · exact ⟨hmember, hfunction, operator, .operator hpipe hkind hoperator, hmem⟩
    · exact ⟨hmember, hfunction, call, .subscribing hcall, hmem⟩
    · exact ⟨hmember, hfunction, call, .subscription hcall, hmem⟩
  · rintro ⟨hmember, hfunction, call, hkeeps, hmem⟩
    cases hkeeps with
    | subscribing hcall => exact ⟨call, .inl (.inr ⟨hcall, hmem, hmember, hfunction⟩)⟩
    | subscription hcall => exact ⟨call, .inr ⟨hcall, hmem, hmember, hfunction⟩⟩
    | @operator pipe _ hpipe hkind hoperator =>
        exact ⟨pipe, .inl (.inl ⟨hpipe, call, hoperator, hkind, hmem, hmember, hfunction⟩)⟩

section Tree

variable (htree : file.tree.IsBuilt)

include htree

/-- A call flags nodes below itself only. -/
theorem above_of_mem_flaggedBy (hflagged : argument ∈ flaggedBy file call) :
    file.tree.Above argument call := by
  simp only [flaggedBy, List.mem_append, mem_pipedMethods_iff, mem_givenMethods_iff,
    mem_methodArguments_iff] at hflagged
  rcases hflagged with (⟨-, operator, hoperator, -, hmem, -⟩ | ⟨-, hmem, -⟩) | ⟨-, hmem, -⟩
  · exact .tail (.single (htree.parent?_of_mem_list hmem)) (htree.parent?_of_mem_list hoperator)
  · exact .single (htree.parent?_of_mem_list hmem)
  · exact .single (htree.parent?_of_mem_list hmem)

theorem isUnbound_iff : isUnbound file argument = true ↔ IsUnbound file argument := by
  rw [← exists_mem_flaggedBy_iff]
  simp only [isUnbound, List.any_eq_true, List.contains_iff_mem, Tree.ids, List.mem_range]
  constructor
  · rintro ⟨call, -, hflagged⟩
    exact ⟨call, hflagged⟩
  · rintro ⟨call, hflagged⟩
    exact ⟨call, (above_of_mem_flaggedBy htree hflagged).lt_size htree, hflagged⟩

theorem nearestUnbound?_eq_some_iff :
    nearestUnbound? file this = some argument ↔
      file.tree.IsNearest (IsUnbound file) this argument := by
  have hfits : (fun node => isUnbound file node = true) = IsUnbound file := by
    funext node
    exact propext (isUnbound_iff htree)
  rw [← hfits]
  constructor
  · intro hfound
    have habove := htree.above_of_mem_ancestors (List.mem_of_find?_eq_some hfound)
    exact (htree.find?_ancestors_eq_some_iff (habove.lower_lt_size htree)).mp hfound
  · intro hnearest
    have hsize := hnearest.isAbove.lower_lt_size htree
    exact (htree.find?_ancestors_eq_some_iff hsize).mpr hnearest

theorem isSome_nearestUnbound?_iff :
    (nearestUnbound? file this).isSome = true ↔
      ∃ argument, file.tree.Above this argument ∧ IsUnbound file argument := by
  constructor
  · intro hsome
    obtain ⟨argument, hfound⟩ := Option.isSome_iff_exists.mp hsome
    have hnearest := (nearestUnbound?_eq_some_iff htree).mp hfound
    exact ⟨argument, hnearest.isAbove, hnearest.fit⟩
  · rintro ⟨argument, habove, hunbound⟩
    have hmem := (htree.mem_ancestors_iff (habove.lower_lt_size htree)).mpr habove
    exact List.find?_isSome.mpr ⟨argument, hmem, (isUnbound_iff htree).mpr hunbound⟩

end Tree

/-! ## The rule -/

/-- The selectors of the rule, as they are read, beside that for calls of `pipe`. -/
def subscribeSelector : Selector :=
  .compound [.kind .callExpression, .equals ["callee", "property", "name"]
    (.pattern "^(add|subscribe)$" (.oneOf "add" ["subscribe"]))]

def subscriptionSelector : Selector :=
  .compound [.kind .newExpression, .equals ["callee", "name"] (.literal "Subscription")]

def unboundListeners : List (Listener (List NodeId)) :=
  [ ⟨⟨"CallExpression[callee.property.name='pipe']", pipeSelector, false, _, rfl⟩, flagPipe⟩
  , ⟨⟨"CallExpression[callee.property.name=/^(add|subscribe)$/]", subscribeSelector, false, _,
      rfl⟩, flagSubscribe⟩
  , ⟨⟨"NewExpression[callee.name='Subscription']", subscriptionSelector, false, _, rfl⟩,
      flagSubscription⟩
  , ⟨.ofKind "ThisExpression" .thisExpression, checkThis⟩ ]

def unboundRule : Rule := ⟨noUnboundMethodsInfo, List NodeId, [], unboundListeners⟩

set_option maxRecDepth 4000 in
/-- The selectors of the rule are read as they are above. -/
theorem ofHandlers?_unboundRule : Rule.ofHandlers? noUnboundMethodsInfo (List NodeId) []
    [("CallExpression[callee.property.name='pipe']", flagPipe),
      ("CallExpression[callee.property.name=/^(add|subscribe)$/]", flagSubscribe),
      ("NewExpression[callee.name='Subscription']", flagSubscription),
      ("ThisExpression", checkThis)] = .ok unboundRule := by
  have hpipe : Trigger.parse "CallExpression[callee.property.name='pipe']" =
      .ok ⟨_, pipeSelector, false, _, rfl⟩ :=
    Trigger.parse_eq_ok (by decide +kernel) (by decide +kernel) rfl
  have hsubscribe : Trigger.parse "CallExpression[callee.property.name=/^(add|subscribe)$/]" =
      .ok ⟨_, subscribeSelector, false, _, rfl⟩ :=
    Trigger.parse_eq_ok (by decide +kernel) (by decide +kernel) rfl
  have hsubscription : Trigger.parse "NewExpression[callee.name='Subscription']" =
      .ok ⟨_, subscriptionSelector, false, _, rfl⟩ :=
    Trigger.parse_eq_ok (by decide +kernel) (by decide +kernel) rfl
  have hthis : Trigger.parse "ThisExpression" =
      .ok (.ofKind "ThisExpression" .thisExpression) := rfl
  simp only [Rule.ofHandlers?, List.mapM_cons, List.mapM_nil, Listener.on?, hpipe, hsubscribe,
    hsubscription, hthis]
  rfl

/-- The rule is the same from all options that it accepts. -/
theorem eq_unboundRule {options : Json} (hmake : noUnboundMethods.make options = .ok rule) :
    rule = unboundRule :=
  BuiltInRule.eq_of_ofHandlers_make ofHandlers?_unboundRule hmake

theorem make_noUnboundMethods : noUnboundMethods.make .null = .ok unboundRule :=
  BuiltInRule.ofHandlers_make_null ofHandlers?_unboundRule

theorem isSound_unboundRule : unboundRule.IsSound :=
  isSound_noUnboundMethods .null unboundRule make_noUnboundMethods

theorem isForgetful_unboundRule : unboundRule.IsForgetful := by
  have hall : ∀ listener ∈ unboundListeners, Handler.IsForgetful listener.react := by
    simp only [unboundListeners, List.forall_mem_cons]
    exact ⟨fun _ _ _ _ => rfl, fun _ _ _ _ => rfl, fun _ _ _ _ => rfl, fun _ _ _ _ => rfl,
      List.forall_mem_nil _⟩
  exact hall

theorem isMatch_subscribeSelector :
    subscribeSelector.isMatch file.tree call = (calling file call).callsSubscribe := by
  have hwords : (Pattern.oneOf "add" ["subscribe"]).isMatch = ["add", "subscribe"].contains := by
    funext word
    rw [Bool.eq_iff_iff, Pattern.isMatch_oneOf_iff, List.contains_iff_mem]
  rw [subscribeSelector, Selector.isMatch_pair,
    Selector.isMatch_equals_cons (by decide) (by decide)]
  simp only [Selector.isMatch_equals_cons (show IsSlotName "property" by decide)
    (show IsSlotName "name" by decide), Selector.isMatch_equals_pattern
    (show IsSlotName "name" by decide), hwords, Calling.callsSubscribe, calling,
    Selector.isMatch_kind, Tree.is, Tree.str?, Option.any_bind]
  rfl

theorem isMatch_subscriptionSelector :
    subscriptionSelector.isMatch file.tree call = (calling file call).isNewSubscription := by
  rw [subscriptionSelector, Selector.isMatch_pair,
    Selector.isMatch_equals_cons (by decide) (by decide)]
  simp only [Selector.isMatch_equals_literal (show IsSlotName "name" by decide),
    Calling.isNewSubscription, calling, Selector.isMatch_kind, Tree.is, Option.any_bind]
  rfl

/-! ## What the handlers do -/

/-- The nodes that are flagged at an event. -/
def flaggedOn (file : FileContext) (event : Event) : List NodeId :=
  match event.phase with
  | .enter => flaggedBy file event.node
  | .exit => []

/-- Whether an event enters a `this`. -/
def entersThis (file : FileContext) (event : Event) : Bool :=
  event.phase == .enter && file.tree.is event.node .thisExpression

/-- What the rule reports at an event, with some nodes flagged. -/
def thisReports (file : FileContext) (flagged : List NodeId) (event : Event) : List Report :=
  if entersThis file event then
    ((file.tree.ancestors event.node).find? flagged.contains).toList.map
      (file.tree.report "forbidden")
  else []

/-- A `this` is no call, so nothing is flagged on it. -/
theorem flaggedBy_of_this (hkind : file.tree.is call .thisExpression = true) :
    flaggedBy file call = [] := by
  rw [Tree.is, beq_iff_eq] at hkind
  simp [flaggedBy, pipedMethods, givenMethods, Calling.isPipe, Calling.callsPipe,
    Calling.isSubscribing, Calling.callsSubscribe, Calling.isNewSubscription, hkind]

section Course

variable (course : Course (List NodeId)) (trigger : Trigger)

theorem react_flagPipe :
    (if (calling file call).callsPipe then course.react file call ⟨trigger, flagPipe⟩
      else course) = ⟨course.state ++ pipedMethods file call, course.reports⟩ := by
  have hpipe : (calling file call).isPipe = ((calling file call).callsPipe &&
      (file.tree.receiver? call).any (couldBe "Observable" file)) := rfl
  cases hcall : (calling file call).callsPipe
  · simp [pipedMethods, hpipe, hcall]
  · simp only [Course.react, flagPipe, pipedMethods, hpipe, hcall, Bool.true_and, if_true]
    split <;> simp

theorem react_flagSubscribe :
    (if (calling file call).callsSubscribe then course.react file call ⟨trigger, flagSubscribe⟩
      else course) =
      ⟨course.state ++ givenMethods file (calling file call).isSubscribing call,
        course.reports⟩ := by
  have htarget : (calling file call).isSubscribing = ((calling file call).callsSubscribe &&
      (file.tree.receiver? call).any fun object =>
        couldBe "Observable" file object || couldBe "Subscription" file object) := by
    rw [Calling.isSubscribing, calling]
    cases file.tree.receiver? call <;> rfl
  cases hcall : (calling file call).callsSubscribe
  · simp [givenMethods, htarget, hcall]
  · simp only [Course.react, flagSubscribe, givenMethods, htarget, hcall, Bool.true_and, if_true]
    split <;> simp

theorem react_flagSubscription :
    (if (calling file call).isNewSubscription then
        course.react file call ⟨trigger, flagSubscription⟩
      else course) =
      ⟨course.state ++ givenMethods file (calling file call).isNewSubscription call,
        course.reports⟩ := by
  cases (calling file call).isNewSubscription <;>
    simp [Course.react, flagSubscription, givenMethods]

theorem react_checkThis :
    (if file.tree.is this .thisExpression then course.react file this ⟨trigger, checkThis⟩
      else course) =
      ⟨course.state, course.reports ++ thisReports file course.state ⟨this, .enter⟩⟩ := by
  simp only [thisReports, entersThis, beq_self_eq_true, Bool.true_and]
  split
  · rfl
  · rw [List.append_nil]

end Course

/-- An event adds what is flagged on it, and a `this` is answered by what is flagged before. -/
theorem attend_unboundListeners (reports : List Report) (event : Event) :
    Course.attend file unboundListeners ⟨flagged, reports⟩ event =
      ⟨flagged ++ flaggedOn file event, reports ++ thisReports file flagged event⟩ := by
  obtain ⟨node, phase⟩ := event
  simp only [unboundListeners, Course.attend_cons, Course.attend_nil, Trigger.ofKind,
    Trigger.fires, isMatch_pipeSelector, isMatch_subscribeSelector, isMatch_subscriptionSelector,
    Selector.isMatch_kind]
  cases phase with
  | exit => simp [flaggedOn, thisReports, entersThis]
  | enter =>
      have henter : (false == (Phase.enter == Phase.exit)) = true := rfl
      have hthis : thisReports file (flagged ++ flaggedBy file node) ⟨node, .enter⟩ =
          thisReports file flagged ⟨node, .enter⟩ := by
        cases hkind : file.tree.is node .thisExpression
        · simp [thisReports, entersThis, hkind]
        · rw [flaggedBy_of_this hkind, List.append_nil]
      simp only [henter, Bool.true_and, react_flagPipe, react_flagSubscribe,
        react_flagSubscription, react_checkThis, List.append_assoc, flaggedOn]
      rw [← hthis, flaggedBy, List.append_assoc]

/-! ## Along the walk -/

/-- Whether the rule reports for an event: a `this` with an unbound method above it. -/
def isUnboundOn (file : FileContext) (event : Event) : Bool :=
  entersThis file event && (nearestUnbound? file event.node).isSome

/-- Reports the nearest unbound method around a node. -/
def reportUnbound (file : FileContext) (this : NodeId) : List Report :=
  (nearestUnbound? file this).toList.map (file.tree.report "forbidden")

section Walk

variable (htree : file.tree.IsBuilt)

include htree

/-- Of the nodes above one that is entered, those are flagged that are unbound methods. -/
theorem mem_flagged_iff (hsplit : file.tree.walk = seen ++ ⟨this, .enter⟩ :: rest)
    (habove : file.tree.Above this above) :
    above ∈ seen.flatMap (flaggedOn file) ↔ IsUnbound file above := by
  rw [← exists_mem_flaggedBy_iff, List.mem_flatMap]
  constructor
  · rintro ⟨⟨call, phase⟩, -, hflagged⟩
    cases phase with
    | enter => exact ⟨call, hflagged⟩
    | exit => cases hflagged
  · rintro ⟨call, hflagged⟩
    -- the call that flags the node is above the `this` too, so it has been entered
    have hcall : file.tree.Above this call := habove.trans (above_of_mem_flaggedBy htree hflagged)
    have hne : (⟨this, .enter⟩ : Event) ≠ ⟨call, .enter⟩ := by
      intro heq
      obtain rfl : this = call := congrArg Event.node heq
      exact htree.not_above_self hcall
    have horder : [⟨call, .enter⟩, ⟨this, .enter⟩].Sublist file.tree.walk :=
      htree.enter_before (hcall.lt_size htree) hcall.to_reflTransGen hne
    exact ⟨⟨call, .enter⟩, htree.mem_seen_of_sublist hsplit horder, hflagged⟩

/-- What a `this` is answered by is the nearest unbound method around it. -/
theorem find?_flagged_eq (hsplit : file.tree.walk = seen ++ ⟨this, .enter⟩ :: rest) :
    (file.tree.ancestors this).find? (seen.flatMap (flaggedOn file)).contains =
      nearestUnbound? file this := by
  have hthis : this < file.tree.size := htree.lt_size_of_split hsplit
  rw [nearestUnbound?, ← List.head?_filter, ← List.head?_filter]
  apply congrArg List.head?
  apply List.filter_congr
  intro above hmem
  have habove := (htree.mem_ancestors_iff hthis).mp hmem
  rw [Bool.eq_iff_iff, List.contains_iff_mem, mem_flagged_iff htree hsplit habove,
    isUnbound_iff htree]

theorem thisReports_eq {event : Event} (hsplit : file.tree.walk = seen ++ event :: rest) :
    thisReports file (seen.flatMap (flaggedOn file)) event =
      if isUnboundOn file event then reportUnbound file event.node else [] := by
  obtain ⟨node, phase⟩ := event
  cases phase with
  | exit => rfl
  | enter =>
      rw [thisReports, find?_flagged_eq htree hsplit, isUnboundOn, reportUnbound]
      cases nearestUnbound? file node <;> simp

/-- By the end of the walk the rule has reported the nearest unbound method around each `this`
that has one. -/
theorem after_unboundRule : ∃ flagged, Course.after file unboundRule file.tree.walk =
    ⟨flagged, (Event.nodesOn (isUnboundOn file) file.tree.walk).flatMap (reportUnbound file)⟩ := by
  let P (seen : List Event) (_ : List NodeId) : Prop :=
    Course.after file unboundRule seen = ⟨seen.flatMap (flaggedOn file),
      (Event.nodesOn (isUnboundOn file) seen).flatMap (reportUnbound file)⟩
  suffices hstep : ∀ seen event rest, file.tree.walk = seen ++ event :: rest →
      P seen (file.tree.openBefore event) → P (seen ++ [event]) (file.tree.openAfter event) from
    ⟨_, (htree.walk_invariant rfl hstep).1⟩
  intro seen event rest hsplit (hseen : Course.after file unboundRule seen = _)
  show Course.after file unboundRule (seen ++ [event]) = _
  rw [Course.after_append_singleton, hseen, Event.flatMap_nodesOn_append,
    ← thisReports_eq htree hsplit, List.flatMap_append, List.flatMap_singleton]
  exact attend_unboundListeners _ event

end Walk

/-! ## What is reported -/

/-- Diagnostics on the nearest unbound methods around exactly those `this` that have one, one for
each of these. -/
structure AreOfUnbound (file : FileContext) (severity : Severity) (nodes : List NodeId)
    (diagnostics : List Diagnostic) : Prop where
  nodup : nodes.Nodup
  mem_iff : ∀ this, this ∈ nodes ↔ file.tree.kind this = .thisExpression ∧
    ∃ argument, file.tree.Above this argument ∧ IsUnbound file argument
  areOn : List.Forall₂ (fun this diagnostic => ∃ argument,
    file.tree.IsNearest (IsUnbound file) this argument ∧
      (file.tree.report "forbidden" argument).IsDiagnosis noUnboundMethodsInfo severity file.path
        file.tree.source diagnostic) nodes diagnostics

/-- Two files that agree on the nodes above a `this`, and on what the calls among these call.
They may differ in all else: in the other arguments, in what is below the callees, and in
everything beside the line from the `this` to the root. -/
structure SharesLine (file other : FileContext) (this : NodeId) : Prop where
  kind_eq : other.tree.kind this = file.tree.kind this
  ancestors_eq : other.tree.ancestors this = file.tree.ancestors this
  calling_eq : ∀ above ∈ file.tree.ancestors this, calling other above = calling file above
  isFunction_eq : ∀ above ∈ file.tree.ancestors this,
    other.types.couldBeFunction above = file.types.couldBeFunction above
  argument_iff : ∀ lower ∈ file.tree.ancestors this, ∀ upper ∈ file.tree.ancestors this,
    lower ∈ (other.tree.arguments upper).ids ↔ lower ∈ (file.tree.arguments upper).ids

namespace SharesLine

theorem symm (hshares : SharesLine file other this) : SharesLine other file this where
  kind_eq := hshares.kind_eq.symm
  ancestors_eq := hshares.ancestors_eq.symm
  calling_eq above hmem := (hshares.calling_eq above (hshares.ancestors_eq ▸ hmem)).symm
  isFunction_eq above hmem := (hshares.isFunction_eq above (hshares.ancestors_eq ▸ hmem)).symm
  argument_iff lower hlower upper hupper :=
    (hshares.argument_iff lower (hshares.ancestors_eq ▸ hlower) upper
      (hshares.ancestors_eq ▸ hupper)).symm

variable (hshares : SharesLine file other this) (htree : file.tree.IsBuilt)

include hshares htree

/-- An unbound method above the `this` is one in the other file. -/
theorem isUnbound_of (hmem : above ∈ file.tree.ancestors this) (hunbound : IsUnbound file above) :
    IsUnbound other above := by
  have hup {lower upper : NodeId} (hlower : lower ∈ file.tree.ancestors this)
      (hargument : lower ∈ (file.tree.arguments upper).ids) :
      upper ∈ file.tree.ancestors this ∧ lower ∈ (other.tree.arguments upper).ids := by
    have habove := htree.above_of_mem_ancestors hlower
    have hupper : upper ∈ file.tree.ancestors this :=
      (htree.mem_ancestors_iff (habove.lower_lt_size htree)).mpr
        (habove.tail (htree.parent?_of_mem_list hargument))
    exact ⟨hupper, (hshares.argument_iff lower hlower upper hupper).mpr hargument⟩
  obtain ⟨hmember, hfunction, call, hkeeps, hargument⟩ := hunbound
  obtain ⟨hcall, hargument⟩ := hup hmem hargument
  rw [← hshares.calling_eq above hmem] at hmember
  rw [← hshares.isFunction_eq above hmem] at hfunction
  refine ⟨hmember, hfunction, call, ?_, hargument⟩
  have hcalling := hshares.calling_eq call hcall
  cases hkeeps with
  | subscribing hkept => exact .subscribing (by rw [hcalling, hkept])
  | subscription hkept => exact .subscription (by rw [hcalling, hkept])
  | @operator pipe _ hpipe hkind hoperator =>
      obtain ⟨hmem, hoperator⟩ := hup hcall hoperator
      exact .operator (by rw [hshares.calling_eq pipe hmem, hpipe]) (by rw [hcalling, hkind])
        hoperator

theorem nearestUnbound?_eq (hother : other.tree.IsBuilt) :
    nearestUnbound? other this = nearestUnbound? file this := by
  rw [nearestUnbound?, nearestUnbound?, hshares.ancestors_eq, ← List.head?_filter,
    ← List.head?_filter]
  apply congrArg List.head?
  apply List.filter_congr
  intro above hmem
  rw [Bool.eq_iff_iff, isUnbound_iff hother, isUnbound_iff htree]
  constructor
  · exact hshares.symm.isUnbound_of hother (hshares.ancestors_eq ▸ hmem)
  · exact hshares.isUnbound_of htree hmem

end SharesLine

section Walk

variable (htree : file.tree.IsBuilt)

include htree

theorem mem_nodesOn_isUnboundOn_iff :
    this ∈ Event.nodesOn (isUnboundOn file) file.tree.walk ↔
      file.tree.kind this = .thisExpression ∧
        ∃ argument, file.tree.Above this argument ∧ IsUnbound file argument := by
  simp only [Event.mem_nodesOn_iff, htree.mem_walk_iff, isUnboundOn, entersThis, Bool.and_eq_true,
    beq_iff_eq, Tree.is, isSome_nearestUnbound?_iff htree]
  constructor
  · rintro ⟨phase, -, ⟨-, hkind⟩, hunbound⟩
    exact ⟨hkind, hunbound⟩
  · rintro ⟨hkind, argument, habove, hunbound⟩
    exact ⟨.enter, habove.lower_lt_size htree, ⟨rfl, hkind⟩, argument, habove, hunbound⟩

omit htree in
theorem phase_eq_of_isUnboundOn {phase phase' : Phase}
    (hleft : isUnboundOn file ⟨this, phase⟩ = true)
    (hright : isUnboundOn file ⟨this, phase'⟩ = true) : phase = phase' := by
  simp only [isUnboundOn, entersThis, Bool.and_eq_true, beq_iff_eq] at hleft hright
  rw [hleft.1.1, hright.1.1]

/-- What the rule has reported by the end of a walk, in a run of any rules. -/
theorem exists_areOfUnbound {rules : List ConfiguredRule} {index : Nat}
    (hrule : rules[index]? = some ⟨unboundRule, severity⟩) :
    ∃ (progress : Progress (List NodeId)) (nodes : List NodeId),
      (FileRun.ofRules file rules).rules[index]? = some ⟨⟨unboundRule, severity⟩, progress⟩ ∧
        progress.fault = none ∧ AreOfUnbound file severity nodes progress.diagnostics := by
  obtain ⟨flagged, hafter⟩ := after_unboundRule htree
  have hplaces : ∀ this ∈ Event.nodesOn (isUnboundOn file) file.tree.walk,
      (nearestUnbound? file this).isSome := fun this hthis =>
    (isSome_nearestUnbound?_iff htree).mpr ((mem_nodesOn_isUnboundOn_iff htree).mp hthis).2
  obtain ⟨progress, hrun, hfault, hon⟩ := FileRun.exists_areOn htree isSound_unboundRule
    isForgetful_unboundRule hrule hafter hplaces
  have hnodup : (Event.nodesOn (isUnboundOn file) file.tree.walk).Nodup :=
    Event.nodup_nodesOn htree.nodup_walk fun _ _ _ => phase_eq_of_isUnboundOn
  refine ⟨progress, _, hrun, hfault, hnodup, fun _ => mem_nodesOn_isUnboundOn_iff htree, ?_⟩
  apply hon.imp
  rintro this diagnostic ⟨argument, hfound, hdiagnosis⟩
  exact ⟨argument, (nearestUnbound?_eq_some_iff htree).mp hfound, hdiagnosis⟩

end Walk

/-- The rule against unbound methods, in a run of rules over a built tree, reports for each `this`
the nearest unbound method around it, if there is one, and nothing else.  What is beside the line
from a `this` to the root does not matter: in another file that shares this line, the same method
is reported for it. -/
theorem noUnboundMethods_reportsNearest {drafts : List NodeDraft} {root : NodeId}
    {source : String} (hbuild : Tree.build? drafts root source = .ok file.tree) {options : Json}
    (hmake : noUnboundMethods.make options = .ok rule) {rules : List ConfiguredRule} {index : Nat}
    (hrule : rules[index]? = some ⟨rule, severity⟩) :
    ∃ (progress : Progress (List NodeId)) (nodes : List NodeId),
      (FileRun.ofRules file rules).rules[index]? = some ⟨⟨unboundRule, severity⟩, progress⟩ ∧
        progress.fault = none ∧ AreOfUnbound file severity nodes progress.diagnostics ∧
        ∀ (other : FileContext) (drafts : List NodeDraft) (root : NodeId) (source : String),
          Tree.build? drafts root source = .ok other.tree →
          ∀ (rules : List ConfiguredRule) (index : Nat) (severity : Severity),
            rules[index]? = some ⟨rule, severity⟩ →
            ∃ (progress : Progress (List NodeId)) (others : List NodeId),
              (FileRun.ofRules other rules).rules[index]? =
                  some ⟨⟨unboundRule, severity⟩, progress⟩ ∧
                AreOfUnbound other severity others progress.diagnostics ∧
                ∀ this, SharesLine file other this → (this ∈ others ↔ this ∈ nodes) ∧
                  ∀ argument, other.tree.IsNearest (IsUnbound other) this argument ↔
                    file.tree.IsNearest (IsUnbound file) this argument := by
  have htree := Tree.isBuilt_of_build? hbuild
  obtain rfl := eq_unboundRule hmake
  obtain ⟨progress, nodes, hrun, hfault, hnodes⟩ := exists_areOfUnbound htree hrule
  refine ⟨progress, nodes, hrun, hfault, hnodes, ?_⟩
  intro other drafts root source hbuild rules index severity hrule
  have hother := Tree.isBuilt_of_build? hbuild
  obtain ⟨again, others, hagain, -, hothers⟩ := exists_areOfUnbound hother hrule
  refine ⟨again, others, hagain, hothers, fun this hshares => ?_⟩
  have hnearest := hshares.nearestUnbound?_eq htree hother
  constructor
  · rw [hothers.mem_iff, hnodes.mem_iff, ← isSome_nearestUnbound?_iff hother,
      ← isSome_nearestUnbound?_iff htree, hnearest, hshares.kind_eq]
  · intro argument
    rw [← nearestUnbound?_eq_some_iff hother, ← nearestUnbound?_eq_some_iff htree, hnearest]

/-- The arena of `unboundText`. -/
def unboundArena : List NodeDraft :=
  [ ⟨.identifier, ⟨0, 1⟩, [("name", .value (.text "a"))]⟩
  , ⟨.identifier, ⟨2, 11⟩, [("name", .value (.text "subscribe"))]⟩
  , ⟨.memberExpression, ⟨0, 11⟩, [("object", .node 0), ("property", .node 1)]⟩
  , ⟨.identifier, ⟨12, 13⟩, [("name", .value (.text "b"))]⟩
  , ⟨.identifier, ⟨14, 18⟩, [("name", .value (.text "pipe"))]⟩
  , ⟨.memberExpression, ⟨12, 18⟩, [("object", .node 3), ("property", .node 4)]⟩
  , ⟨.identifier, ⟨19, 22⟩, [("name", .value (.text "map"))]⟩
  , ⟨.thisExpression, ⟨23, 27⟩, []⟩
  , ⟨.identifier, ⟨28, 29⟩, [("name", .value (.text "f"))]⟩
  , ⟨.memberExpression, ⟨23, 29⟩, [("object", .node 7), ("property", .node 8)]⟩
  , ⟨.thisExpression, ⟨31, 35⟩, []⟩
  , ⟨.identifier, ⟨36, 37⟩, [("name", .value (.text "n"))]⟩
  , ⟨.memberExpression, ⟨31, 37⟩, [("object", .node 10), ("property", .node 11)]⟩
  , ⟨.callExpression, ⟨19, 38⟩, [("callee", .node 6), ("arguments", .list [some 9, some 12])]⟩
  , ⟨.callExpression, ⟨12, 39⟩, [("callee", .node 5), ("arguments", .list [some 13])]⟩
  , ⟨.identifier, ⟨40, 41⟩, [("name", .value (.text "g"))]⟩
  , ⟨.memberExpression, ⟨12, 41⟩, [("object", .node 14), ("property", .node 15)]⟩
  , ⟨.callExpression, ⟨0, 42⟩, [("callee", .node 2), ("arguments", .list [some 16])]⟩
  , ⟨.expressionStatement, ⟨0, 43⟩, [("expression", .node 17)]⟩
  , ⟨.program, ⟨0, 43⟩, [("body", .list [some 18])]⟩ ]

/-- The first `this` is inside of two unbound methods, the second one inside of the outer one
only, as `this.n` has no type. -/
def unboundText : String := "a.subscribe(b.pipe(map(this.f, this.n)).g);"

def unboundFile : SourceFile where
  path := "a.ts"
  tree := (Tree.build? unboundArena 19 unboundText).toOption.getD default
  types := some ⟨[(0, .named "Observable"), (3, .named "Observable"), (9, .function [] .void),
    (16, .function [] .void)]⟩

def unboundRules : List ConfiguredRule := [⟨unboundRule, .warning⟩]

set_option maxRecDepth 100000 in
theorem unbound_evaluated :
    (Tree.build? unboundArena 19 unboundText).isOk = true ∧
    unboundFile.tree.kind 7 = .thisExpression ∧ unboundFile.tree.kind 10 = .thisExpression ∧
    nearestUnbound? unboundFile.context 7 = some 9 ∧
    nearestUnbound? unboundFile.context 10 = some 16 := by
  decide +kernel

theorem build?_unboundArena : Tree.build? unboundArena 19 unboundText = .ok unboundFile.tree :=
  eq_ok_of_isOk unbound_evaluated.1 default

theorem noUnboundMethods_reportsNearest_unboundFile :
    Tree.build? unboundArena 19 unboundText = .ok unboundFile.tree ∧
      noUnboundMethods.make .null = .ok unboundRule ∧
      ∃ (progress : Progress (List NodeId)) (nodes : List NodeId),
        (FileRun.ofRules unboundFile.context unboundRules).rules[0]? =
            some ⟨⟨unboundRule, .warning⟩, progress⟩ ∧
          AreOfUnbound unboundFile.context .warning nodes progress.diagnostics ∧
          7 ∈ nodes ∧ unboundFile.tree.IsNearest (IsUnbound unboundFile.context) 7 9 ∧
          10 ∈ nodes ∧ unboundFile.tree.IsNearest (IsUnbound unboundFile.context) 10 16 := by
  obtain ⟨-, hfirst, hsecond, hinner, houter⟩ := unbound_evaluated
  have hrule : unboundRules[0]? = some ⟨unboundRule, .warning⟩ := rfl
  have htree : unboundFile.context.tree.IsBuilt := Tree.isBuilt_of_build? build?_unboundArena
  obtain ⟨progress, nodes, hrun, -, hnodes, -⟩ := noUnboundMethods_reportsNearest
    (show Tree.build? unboundArena 19 unboundText = .ok unboundFile.context.tree from
      build?_unboundArena) make_noUnboundMethods hrule
  have hinner := (nearestUnbound?_eq_some_iff htree).mp hinner
  have houter := (nearestUnbound?_eq_some_iff htree).mp houter
  have hmem {this argument : NodeId} (hkind : unboundFile.tree.kind this = .thisExpression)
      (hnearest : unboundFile.tree.IsNearest (IsUnbound unboundFile.context) this argument) :
      this ∈ nodes :=
    (hnodes.mem_iff this).mpr ⟨hkind, argument, hnearest.isAbove, hnearest.fit⟩
  exact ⟨build?_unboundArena, make_noUnboundMethods, progress, nodes, hrun, hnodes,
    hmem hfirst hinner, hinner, hmem hsecond houter, houter⟩

end ReactiveLint.Rules
