import ReactiveLint.Proofs.Engine.Course
import ReactiveLint.Proofs.Engine.Position
import ReactiveLint.Proofs.Rules.Plain
import ReactiveLint.Proofs.Selector.Attributes
import ReactiveLint.Proofs.Selector.Downward

/-!
# Nested subscriptions

The rule against nested calls of `subscribe` keeps the arguments of the calls that it has met,
except of those that it reports.  Whatever it leaves out is inside of something that it keeps,
so a call is reported exactly if it is inside of an argument of another such call.
-/

namespace ReactiveLint.Rules

variable {file : FileContext} {member call argument : NodeId} {handlers : List NodeId}
  {seen rest : List Event} {event : Event} {severity : Severity} {rule : Rule}

/-! ## Calls of `subscribe` -/

/-- Whether a node is the `subscribe` member of something to subscribe to. -/
def isSubscribeMember (file : FileContext) (member : NodeId) : Bool :=
  file.tree.is member .memberExpression &&
    (memberParts? file.tree member).any fun (object, property) =>
      ((file.tree.value? property "name").any fun name => name.toText == "subscribe") &&
        isSubscribable file object

/-- The call whose callee a `subscribe` member is. -/
def subscribeCall? (file : FileContext) (member : NodeId) : Option NodeId :=
  if isSubscribeMember file member && file.tree.fieldName? member == some "callee" then
    (file.tree.parent? member).filter fun call => file.tree.is call .callExpression
  else none

/-- Whether a node is an argument of a call of `subscribe`. -/
def isHandler (file : FileContext) (argument : NodeId) : Bool :=
  file.tree.ids.any fun member =>
    (subscribeCall? file member).any fun call => (file.tree.arguments call).ids.contains argument

/-- Whether a node is the member of a call of `subscribe` inside of an argument of another. -/
def isNested (file : FileContext) (member : NodeId) : Bool :=
  (subscribeCall? file member).any fun call => (file.tree.ancestors call).any (isHandler file)

theorem subscribeCall?_eq_some_iff : subscribeCall? file member = some call ↔
    isSubscribeMember file member = true ∧ file.tree.fieldName? member = some "callee" ∧
      file.tree.parent? member = some call ∧ file.tree.kind call = .callExpression := by
  simp [subscribeCall?, Option.filter_eq_some_iff, Tree.is, and_assoc]

theorem memberParts?_eq_some_iff {tree : Tree} {object property : NodeId} :
    memberParts? tree member = some (object, property) ↔
      tree.child? member "object" = some object ∧
        tree.child? member "property" = some property := by
  simp [memberParts?, bind, Option.bind_eq_some_iff]

theorem exists_property_of_subscribeCall? (hcall : subscribeCall? file member = some call) :
    ∃ property, file.tree.child? member "property" = some property := by
  have hmember := (subscribeCall?_eq_some_iff.mp hcall).1
  rw [isSubscribeMember, Bool.and_eq_true, Option.any_eq_true] at hmember
  obtain ⟨-, ⟨object, property⟩, hparts, -⟩ := hmember
  exact ⟨property, (memberParts?_eq_some_iff.mp hparts).2⟩

section Tree

variable (htree : file.tree.IsBuilt)

include htree

theorem isHandler_iff : isHandler file argument = true ↔
    ∃ member call, subscribeCall? file member = some call ∧
      argument ∈ (file.tree.arguments call).ids := by
  simp only [isHandler, List.any_eq_true, Option.any_eq_true, List.contains_iff_mem, Tree.ids,
    List.mem_range]
  constructor
  · rintro ⟨member, -, call, hcall, hargument⟩
    exact ⟨member, call, hcall, hargument⟩
  · rintro ⟨member, call, hcall, hargument⟩
    have hparent := (subscribeCall?_eq_some_iff.mp hcall).2.2.1
    exact ⟨member, htree.lt_of_parent? hparent, call, hcall, hargument⟩

/-- What is in an argument of a call of `subscribe` is nested. -/
theorem isNested_iff : isNested file member = true ↔
    ∃ call, subscribeCall? file member = some call ∧
      ∃ argument, file.tree.Above call argument ∧ isHandler file argument = true := by
  simp only [isNested, Option.any_eq_true, List.any_eq_true]
  refine exists_congr fun call => and_congr_right fun hcall => ?_
  have hparent := (subscribeCall?_eq_some_iff.mp hcall).2.2.1
  simp only [htree.mem_ancestors_iff (htree.parent?_lt hparent)]

end Tree

/-! ## The rule -/

/-- The selector of the rule, as it is read. -/
def nestedSelector : Selector :=
  .combine .child (.kind .callExpression)
    (.compound [.kind .memberExpression, .field ["callee"],
      .equals ["property", "name"] (.literal "subscribe")])

def nestedListeners : List (Listener (List NodeId)) :=
  [⟨⟨subscribeCallee, nestedSelector, false, _, rfl⟩, checkNested⟩]

def nestedRule : Rule := ⟨noNestedSubscribeInfo, List NodeId, [], nestedListeners⟩

set_option maxRecDepth 4000 in
/-- The selector of the rule is read as it is above. -/
theorem ofHandlers?_nestedRule : Rule.ofHandlers? noNestedSubscribeInfo (List NodeId) []
    [(subscribeCallee, checkNested)] = .ok nestedRule := by
  have hselector : Selector.parse subscribeCallee = .ok nestedSelector := rfl
  have htrigger : Trigger.parse subscribeCallee =
      .ok ⟨subscribeCallee, nestedSelector, false, _, rfl⟩ :=
    Trigger.parse_eq_ok (by decide +kernel) (by decide +kernel) hselector
  simp only [Rule.ofHandlers?, List.mapM_cons, List.mapM_nil, Listener.on?, htrigger]
  rfl

/-- The rule is the same from all options that it accepts. -/
theorem eq_nestedRule {options : Json} (hmake : noNestedSubscribe.make options = .ok rule) :
    rule = nestedRule :=
  BuiltInRule.eq_of_ofHandlers_make ofHandlers?_nestedRule hmake

theorem make_noNestedSubscribe : noNestedSubscribe.make .null = .ok nestedRule :=
  BuiltInRule.ofHandlers_make_null ofHandlers?_nestedRule

theorem isSound_nestedRule : nestedRule.IsSound :=
  isSound_noNestedSubscribe .null nestedRule make_noNestedSubscribe

theorem isForgetful_nestedRule : nestedRule.IsForgetful := by
  have hall : ∀ listener ∈ nestedListeners, Handler.IsForgetful listener.react :=
    List.forall_mem_singleton.mpr fun _ _ _ _ => rfl
  exact hall

theorem isMatch_nestedSelector_iff {tree : Tree} : nestedSelector.isMatch tree member = true ↔
    tree.kind member = .memberExpression ∧ tree.fieldName? member = some "callee" ∧
      (∃ property, tree.child? member "property" = some property ∧
        (tree.value? property "name").any (fun name => name.toText == "subscribe") = true) ∧
      ∃ call, tree.parent? member = some call ∧ tree.kind call = .callExpression := by
  rw [nestedSelector, Selector.isMatch_child_iff, Selector.isMatch_compound_cons,
    Selector.isMatch_pair, Selector.isMatch_equals_cons (by decide) (by decide)]
  simp only [Selector.isMatch_kind, Selector.isMatch_field_singleton,
    Selector.isMatch_equals_literal (show IsSlotName "name" by decide), Bool.and_eq_true,
    Option.any_eq_true _ (tree.child? _ _), Tree.is, beq_iff_eq, and_assoc]

/-- The calls of `subscribe` are those that the rule listens for, of something to subscribe
to. -/
theorem subscribeCall?_eq_some_iff_isMatch : subscribeCall? file member = some call ↔
    nestedSelector.isMatch file.tree member = true ∧ file.tree.parent? member = some call ∧
      ∃ object property, memberParts? file.tree member = some (object, property) ∧
        isSubscribable file object = true := by
  rw [subscribeCall?_eq_some_iff, isMatch_nestedSelector_iff, isSubscribeMember]
  simp only [Bool.and_eq_true, Option.any_eq_true, Prod.exists, memberParts?_eq_some_iff, Tree.is,
    beq_iff_eq]
  constructor
  · rintro ⟨⟨hkind, object, property, hparts, hname, hobject⟩, hfield, hparent, hcall⟩
    exact ⟨⟨hkind, hfield, ⟨property, hparts.2, hname⟩, call, hparent, hcall⟩, hparent, object,
      property, hparts, hobject⟩
  · rintro ⟨⟨hkind, hfield, ⟨property, hproperty, hname⟩, same, hsame, hcall⟩, hparent, object,
      other, hparts, hobject⟩
    obtain rfl : same = call := Option.some.inj (hsame.symm.trans hparent)
    obtain rfl : property = other := Option.some.inj (hproperty.symm.trans hparts.2)
    exact ⟨⟨hkind, object, property, hparts, hname, hobject⟩, hfield, hparent, hcall⟩

/-- A member that the rule listens for is looked at for its object only. -/
theorem subscribeCall?_of_isMatch (hmatch : nestedSelector.isMatch file.tree member = true) :
    subscribeCall? file member =
      if (memberParts? file.tree member).any fun (object, _) => isSubscribable file object then
        file.tree.parent? member
      else none := by
  refine Option.ext fun call => ?_
  rw [subscribeCall?_eq_some_iff_isMatch]
  obtain _ | ⟨object, property⟩ := memberParts? file.tree member <;> simp [hmatch, and_comm]

theorem subscribeCall?_of_not_isMatch (hmatch : ¬ nestedSelector.isMatch file.tree member = true) :
    subscribeCall? file member = none :=
  Option.eq_none_iff_forall_ne_some.mpr fun _ hcall =>
    hmatch (subscribeCall?_eq_some_iff_isMatch.mp hcall).1

/-! ## Along the walk -/

/-- Reports what a member expression takes of its object. -/
def reportProperty (tree : Tree) (member : NodeId) : List Report :=
  (tree.child? member "property").toList.map (tree.report "forbidden")

/-- How the rule reacts to an event. -/
def nestedReaction (file : FileContext) (handlers : List NodeId) (event : Event) :
    Reaction (List NodeId) :=
  match event.phase, subscribeCall? file event.node with
  | .enter, some call =>
      if (file.tree.ancestors call).any handlers.contains then
        { state := handlers, reports := reportProperty file.tree event.node }
      else { state := handlers ++ (file.tree.arguments call).ids }
  | _, _ => { state := handlers }

theorem checkNested_eq (hmatch : nestedSelector.isMatch file.tree member = true) :
    checkNested file [] handlers member = nestedReaction file handlers ⟨member, .enter⟩ := by
  obtain ⟨-, -, -, call, hparent, -⟩ := isMatch_nestedSelector_iff.mp hmatch
  simp only [checkNested, nestedReaction, subscribeCall?_of_isMatch hmatch, hparent]
  rcases hparts : memberParts? file.tree member with _ | ⟨object, property⟩
  · rfl
  · have hproperty := (memberParts?_eq_some_iff.mp hparts).2
    cases hobject : isSubscribable file object <;> simp [hobject, hproperty, reportProperty]

theorem attend_nestedListeners (reports : List Report) (event : Event) :
    Course.attend file nestedListeners ⟨handlers, reports⟩ event =
      ⟨(nestedReaction file handlers event).state,
        reports ++ (nestedReaction file handlers event).reports⟩ := by
  obtain ⟨member, phase⟩ := event
  simp only [Course.attend, nestedListeners, List.filter_cons, List.filter_nil, Trigger.fires]
  cases phase with
  | exit => simp [nestedReaction]
  | enter =>
      by_cases hmatch : nestedSelector.isMatch file.tree member = true
      · simp [hmatch, Course.react, checkNested_eq hmatch]
      · simp [hmatch, nestedReaction, subscribeCall?_of_not_isMatch hmatch]

/-- Handlers that are arguments of calls of `subscribe`, and have among them or above each
argument of the calls that have been met. -/
structure Covers (file : FileContext) (seen : List Event) (handlers : List NodeId) : Prop where
  isHandler : ∀ handler ∈ handlers, isHandler file handler = true
  covered : ∀ member call, subscribeCall? file member = some call → ⟨member, .enter⟩ ∈ seen →
    ∀ argument ∈ (file.tree.arguments call).ids, ∃ handler ∈ handlers,
      file.tree.Within argument handler

/-- An event may only ask that the arguments of the call that it enters are covered. -/
theorem Covers.append {more : List NodeId} (hcovers : Covers file seen handlers)
    (hsubset : handlers ⊆ more) (hhandlers : ∀ handler ∈ more, Rules.isHandler file handler = true)
    (hevent : event.phase = .enter → ∀ call, subscribeCall? file event.node = some call →
      ∀ argument ∈ (file.tree.arguments call).ids, ∃ handler ∈ more,
        file.tree.Within argument handler) :
    Covers file (seen ++ [event]) more where
  isHandler := hhandlers
  covered member call hcall hmember argument hargument := by
    rcases List.mem_append.mp hmember with hseen | hlast
    · obtain ⟨handler, hmem, hwithin⟩ := hcovers.covered member call hcall hseen argument hargument
      exact ⟨handler, hsubset hmem, hwithin⟩
    · obtain rfl := List.mem_singleton.mp hlast
      exact hevent rfl call hcall argument hargument

/-- What the rule keeps at an event still covers the arguments of the calls that it has met. -/
theorem covers_nestedReaction (htree : file.tree.IsBuilt) (hcovers : Covers file seen handlers)
    (event : Event) :
    Covers file (seen ++ [event]) (nestedReaction file handlers event).state := by
  obtain ⟨member, phase⟩ := event
  have hkept (hother : phase = .enter → subscribeCall? file member = none) :
      Covers file (seen ++ [⟨member, phase⟩]) handlers := by
    refine hcovers.append (List.Subset.refl _) hcovers.isHandler fun hphase call hcall => ?_
    cases (hother hphase).symm.trans hcall
  cases phase with
  | exit => exact hkept nofun
  | enter =>
      cases hcall : subscribeCall? file member with
      | none =>
          simp only [nestedReaction, hcall]
          exact hkept fun _ => hcall
      | some call =>
          have hargument : ∀ argument ∈ (file.tree.arguments call).ids,
              file.tree.parent? argument = some call := fun _ => htree.parent?_of_mem_list
          simp only [nestedReaction, hcall]
          split
          next hnested =>
            -- the call is inside of a handler, and so are its arguments
            obtain ⟨handler, habove, hmem⟩ := List.any_eq_true.mp hnested
            have hsize := htree.parent?_lt (subscribeCall?_eq_some_iff.mp hcall).2.2.1
            have habove := (htree.mem_ancestors_iff hsize).mp habove
            refine hcovers.append (List.Subset.refl _) hcovers.isHandler ?_
            intro _ same hsame argument hmember
            obtain rfl : call = same := Option.some.inj (hcall.symm.trans hsame)
            exact ⟨handler, List.contains_iff_mem.mp hmem,
              .head (hargument argument hmember) habove.to_reflTransGen⟩
          next =>
            refine hcovers.append (List.subset_append_left _ _) ?_ ?_
            · intro handler hmem
              rcases List.mem_append.mp hmem with hmem | hmem
              · exact hcovers.isHandler handler hmem
              · exact (isHandler_iff htree).mpr ⟨member, call, hcall, hmem⟩
            · intro _ same hsame argument hmember
              obtain rfl : call = same := Option.some.inj (hcall.symm.trans hsame)
              exact ⟨argument, List.mem_append_right _ hmember, .refl⟩

/-- Whether the rule reports the node of an event. -/
def isNestedOn (file : FileContext) (event : Event) : Bool :=
  event.phase == .enter && isNested file event.node

/-- In a call each callee starts before the arguments. -/
def CalleesFirst (tree : Tree) : Prop :=
  ∀ call < tree.size, tree.kind call = .callExpression → ∀ callee ∈ tree.children call,
    tree.fieldName? callee = some "callee" → ∀ argument ∈ (tree.arguments call).ids,
      tree.start callee < tree.start argument

instance : DecidablePred CalleesFirst := fun tree =>
  inferInstanceAs (Decidable (∀ call < tree.size, _ → ∀ callee ∈ _, _ → ∀ argument ∈ _, _))

section Walk

variable (htree : file.tree.IsBuilt) (hcallees : CalleesFirst file.tree)

include htree hcallees

/-- A member is met before what is in the arguments of its call. -/
theorem mem_seen_of_within_argument (hcall : subscribeCall? file member = some call)
    (hargument : argument ∈ (file.tree.arguments call).ids)
    (hsplit : file.tree.walk = seen ++ event :: rest)
    (hwithin : file.tree.Within event.node argument) : ⟨member, .enter⟩ ∈ seen := by
  obtain ⟨-, hfield, hparent, hkind⟩ := subscribeCall?_eq_some_iff.mp hcall
  have hcall := htree.parent?_lt hparent
  have hstart := hcallees call hcall hkind member ((htree.mem_children_iff hcall).mpr hparent)
    hfield argument hargument
  have horder : [⟨member, .enter⟩, event].Sublist file.tree.walk :=
    htree.before_of_start_lt hparent (htree.parent?_of_mem_list hargument) hstart .refl hwithin
  exact htree.mem_seen_of_sublist hsplit horder

/-- The handlers that are kept tell whether a call is nested. -/
theorem any_contains_eq_isNested (hcovers : Covers file seen handlers)
    (hsplit : file.tree.walk = seen ++ ⟨member, .enter⟩ :: rest)
    (hcall : subscribeCall? file member = some call) :
    (file.tree.ancestors call).any handlers.contains = isNested file member := by
  have hparent := (subscribeCall?_eq_some_iff.mp hcall).2.2.1
  have hsize := htree.parent?_lt hparent
  rw [Bool.eq_iff_iff, isNested_iff htree]
  simp only [List.any_eq_true, List.contains_iff_mem, htree.mem_ancestors_iff hsize]
  constructor
  · rintro ⟨handler, habove, hmem⟩
    exact ⟨call, hcall, handler, habove, hcovers.isHandler handler hmem⟩
  · rintro ⟨same, hsame, argument, habove, hhandler⟩
    obtain rfl : call = same := Option.some.inj (hcall.symm.trans hsame)
    obtain ⟨other, outer, houter, hargument⟩ := (isHandler_iff htree).mp hhandler
    have hwithin : file.tree.Within member argument := .head hparent habove.to_reflTransGen
    have hmet := mem_seen_of_within_argument htree hcallees houter hargument hsplit hwithin
    obtain ⟨handler, hmem, hup⟩ := hcovers.covered other outer houter hmet argument hargument
    exact ⟨handler, habove.trans_left hup, hmem⟩

theorem reports_nestedReaction (hcovers : Covers file seen handlers)
    (hsplit : file.tree.walk = seen ++ event :: rest) :
    (nestedReaction file handlers event).reports =
      if isNestedOn file event then reportProperty file.tree event.node else [] := by
  obtain ⟨member, phase⟩ := event
  cases phase with
  | exit => rfl
  | enter =>
      cases hcall : subscribeCall? file member with
      | none => simp [nestedReaction, isNestedOn, isNested, hcall]
      | some call =>
          simp only [nestedReaction, isNestedOn, hcall,
            any_contains_eq_isNested htree hcallees hcovers hsplit hcall]
          split <;> simp [*]

/-- By the end of the walk the rule has reported the members of the nested calls. -/
theorem after_nestedRule : ∃ handlers, Course.after file nestedRule file.tree.walk =
    ⟨handlers,
      (Event.nodesOn (isNestedOn file) file.tree.walk).flatMap (reportProperty file.tree)⟩ := by
  let P (seen : List Event) (_ : List NodeId) : Prop :=
    ∃ handlers, Covers file seen handlers ∧ Course.after file nestedRule seen =
      ⟨handlers, (Event.nodesOn (isNestedOn file) seen).flatMap (reportProperty file.tree)⟩
  suffices hstep : ∀ seen event rest, file.tree.walk = seen ++ event :: rest →
      P seen (file.tree.openBefore event) → P (seen ++ [event]) (file.tree.openAfter event) by
    have hstart : P [] [] := ⟨[], ⟨nofun, nofun⟩, rfl⟩
    obtain ⟨handlers, -, hafter⟩ := (htree.walk_invariant hstart hstep).1
    exact ⟨handlers, hafter⟩
  intro seen event rest hsplit ⟨handlers, hcovers, hseen⟩
  refine ⟨_, covers_nestedReaction htree hcovers event, ?_⟩
  rw [Course.after_append_singleton, hseen, Event.flatMap_nodesOn_append,
    ← reports_nestedReaction htree hcallees hcovers hsplit]
  exact attend_nestedListeners _ event

end Walk

/-! ## What is reported -/

/-- Diagnostics on the properties of the `subscribe` members of exactly the calls that are
inside of an argument of another such call, one each. -/
structure AreOfNested (file : FileContext) (severity : Severity) (members : List NodeId)
    (diagnostics : List Diagnostic) : Prop where
  nodup : members.Nodup
  mem_iff : ∀ member, member ∈ members ↔ ∃ call, subscribeCall? file member = some call ∧
    ∃ other outer argument, subscribeCall? file other = some outer ∧ outer ≠ call ∧
      argument ∈ (file.tree.arguments outer).ids ∧ file.tree.Above call argument
  areOn : Diagnostic.AreOn file noNestedSubscribeInfo severity "forbidden"
    (file.tree.child? · "property") members diagnostics

/-- A tree of the nodes of another, which may stand at other places of the text. -/
structure SharesNodes (tree other : Tree) : Prop where
  kind_eq : ∀ id, other.kind id = tree.kind id
  fields_eq : ∀ id, other.fields id = tree.fields id

theorem mem_nodesOn_isNestedOn_iff (htree : file.tree.IsBuilt) :
    member ∈ Event.nodesOn (isNestedOn file) file.tree.walk ↔ isNested file member = true := by
  simp only [Event.mem_nodesOn_iff, htree.mem_walk_iff, isNestedOn, Bool.and_eq_true, beq_iff_eq]
  constructor
  · rintro ⟨phase, -, -, hnested⟩
    exact hnested
  · intro hnested
    obtain ⟨call, hcall, -⟩ := (isNested_iff htree).mp hnested
    exact ⟨.enter, htree.lt_of_parent? (subscribeCall?_eq_some_iff.mp hcall).2.2.1, rfl, hnested⟩

theorem phase_eq_of_isNestedOn {phase phase' : Phase}
    (hleft : isNestedOn file ⟨member, phase⟩ = true)
    (hright : isNestedOn file ⟨member, phase'⟩ = true) : phase = phase' := by
  simp only [isNestedOn, Bool.and_eq_true, beq_iff_eq] at hleft hright
  rw [hleft.1, hright.1]

/-- A nested call is inside of an argument of another call, as its own arguments are below it. -/
theorem isNested_iff_exists (htree : file.tree.IsBuilt) : isNested file member = true ↔
    ∃ call, subscribeCall? file member = some call ∧
      ∃ other outer argument, subscribeCall? file other = some outer ∧ outer ≠ call ∧
        argument ∈ (file.tree.arguments outer).ids ∧ file.tree.Above call argument := by
  rw [isNested_iff htree]
  simp only [isHandler_iff htree]
  refine exists_congr fun call => and_congr_right fun hcall => ?_
  constructor
  · rintro ⟨argument, habove, other, outer, houter, hargument⟩
    refine ⟨other, outer, argument, houter, ?_, hargument, habove⟩
    rintro rfl
    exact htree.not_above_self (habove.tail (htree.parent?_of_mem_list hargument))
  · rintro ⟨other, outer, argument, houter, -, hargument, habove⟩
    exact ⟨argument, habove, other, outer, houter, hargument⟩

theorem SharesNodes.place?_eq {tree other : Tree} (hshares : SharesNodes tree other)
    (htree : tree.IsBuilt) (hother : other.IsBuilt) (id : NodeId) :
    other.place? id = tree.place? id := by
  refine Option.ext fun place => ?_
  rw [htree.place?_eq_some_iff, hother.place?_eq_some_iff, Tree.occupant?_eq_fieldAt?,
    Tree.occupant?_eq_fieldAt?, Tree.fieldAt?, Tree.fieldAt?, hshares.fields_eq]

theorem SharesNodes.isNested_eq {other : FileContext} (hshares : SharesNodes file.tree other.tree)
    (htree : file.tree.IsBuilt) (hother : other.tree.IsBuilt) (htypes : other.types = file.types)
    (member : NodeId) : isNested other member = isNested file member := by
  have hplace := hshares.place?_eq htree hother
  have hparent : other.tree.parent? = file.tree.parent? := by
    funext id
    rw [Tree.parent?, Tree.parent?, hplace]
  have hslot : other.tree.slot? = file.tree.slot? := by
    funext id field
    rw [Tree.slot?, Tree.slot?, hshares.fields_eq]
  have hfield : other.tree.fieldName? = file.tree.fieldName? := by
    funext id
    simp only [Tree.fieldName?, Tree.fieldAt?, hplace, hshares.fields_eq]
  have hmember (member : NodeId) :
      isSubscribeMember other member = isSubscribeMember file member := by
    simp only [isSubscribeMember, memberParts?, isSubscribable, Tree.child?, Tree.value?, Tree.is,
      hslot, hshares.kind_eq, htypes]
  have hcall : subscribeCall? other = subscribeCall? file := by
    refine funext fun member => Option.ext fun call => ?_
    rw [subscribeCall?_eq_some_iff, subscribeCall?_eq_some_iff, hmember, hfield, hparent,
      hshares.kind_eq]
  rw [Bool.eq_iff_iff, isNested_iff_exists htree, isNested_iff_exists hother]
  simp only [hcall, Tree.arguments, Tree.list, hslot, Tree.Above, hparent]

/-- Whatever the order of the walk, the same members are reported. -/
theorem SharesNodes.perm_members {other : FileContext} (hshares : SharesNodes file.tree other.tree)
    (htree : file.tree.IsBuilt) (hother : other.tree.IsBuilt) (htypes : other.types = file.types)
    {severity' : Severity} {members others : List NodeId} {diagnostics more : List Diagnostic}
    (hmembers : AreOfNested file severity members diagnostics)
    (hothers : AreOfNested other severity' others more) : others.Perm members := by
  refine (List.perm_ext_iff_of_nodup hothers.nodup hmembers.nodup).mpr fun member => ?_
  rw [hothers.mem_iff, hmembers.mem_iff, ← isNested_iff_exists htree, ← isNested_iff_exists hother,
    hshares.isNested_eq htree hother htypes]

/-- What the rule has reported by the end of a walk, in a run of any rules. -/
theorem exists_follows_nestedRule (htree : file.tree.IsBuilt) (hcallees : CalleesFirst file.tree)
    {rules : List ConfiguredRule} {index : Nat}
    (hrule : rules[index]? = some ⟨nestedRule, severity⟩) :
    ∃ (progress : Progress (List NodeId)) (members : List NodeId),
      (FileRun.ofRules file rules).rules[index]? = some ⟨⟨nestedRule, severity⟩, progress⟩ ∧
        progress.fault = none ∧ AreOfNested file severity members progress.diagnostics := by
  obtain ⟨progress, hrun, hfollows⟩ := FileRun.exists_follows htree isSound_nestedRule
    isForgetful_nestedRule hrule file.tree.walk
  obtain ⟨handlers, hafter⟩ := after_nestedRule htree hcallees
  rw [hafter] at hfollows
  have hproperty : ∀ member ∈ Event.nodesOn (isNestedOn file) file.tree.walk,
      (file.tree.child? member "property").isSome := by
    intro member hmember
    have hnested := (mem_nodesOn_isNestedOn_iff htree).mp hmember
    obtain ⟨call, hcall, -⟩ := (isNested_iff htree).mp hnested
    obtain ⟨property, hproperty⟩ := exists_property_of_subscribeCall? hcall
    exact Option.isSome_of_eq_some hproperty
  exact ⟨progress, _, hrun, hfollows.fault_eq,
    Event.nodup_nodesOn htree.nodup_walk fun _ _ _ => phase_eq_of_isNestedOn,
    fun _ => (mem_nodesOn_isNestedOn_iff htree).trans (isNested_iff_exists htree),
    hfollows.diagnosed.areOn hproperty⟩

/-- The rule against nested subscriptions, in a run of rules over a built tree in which callees
start before arguments, reports the calls of `subscribe` inside of an argument of another.
In what order the tree is walked does not matter: in a tree of the same nodes, wherever they
stand, the same members are reported. -/
theorem noNestedSubscribe_reportsNested {drafts : List NodeDraft} {root : NodeId}
    {source : String} (hbuild : Tree.build? drafts root source = .ok file.tree)
    (hcallees : CalleesFirst file.tree) {options : Json}
    (hmake : noNestedSubscribe.make options = .ok rule) {rules : List ConfiguredRule} {index : Nat}
    (hrule : rules[index]? = some ⟨rule, severity⟩) :
    ∃ (progress : Progress (List NodeId)) (members : List NodeId),
      (FileRun.ofRules file rules).rules[index]? = some ⟨⟨nestedRule, severity⟩, progress⟩ ∧
        progress.fault = none ∧ AreOfNested file severity members progress.diagnostics ∧
        ∀ (other : FileContext) (drafts : List NodeDraft) (root : NodeId) (source : String),
          Tree.build? drafts root source = .ok other.tree → CalleesFirst other.tree →
          SharesNodes file.tree other.tree → other.types = file.types →
          ∀ (rules : List ConfiguredRule) (index : Nat) (severity : Severity),
            rules[index]? = some ⟨rule, severity⟩ →
            ∃ (progress : Progress (List NodeId)) (others : List NodeId),
              (FileRun.ofRules other rules).rules[index]? =
                  some ⟨⟨nestedRule, severity⟩, progress⟩ ∧
                AreOfNested other severity others progress.diagnostics ∧ others.Perm members := by
  have htree := Tree.isBuilt_of_build? hbuild
  obtain rfl := eq_nestedRule hmake
  obtain ⟨progress, members, hrun, hfault, hmembers⟩ :=
    exists_follows_nestedRule htree hcallees hrule
  refine ⟨progress, members, hrun, hfault, hmembers, ?_⟩
  intro other drafts root source hbuild hcallees hshares htypes rules index severity hrule
  have hother := Tree.isBuilt_of_build? hbuild
  obtain ⟨again, others, hagain, -, hothers⟩ := exists_follows_nestedRule hother hcallees hrule
  exact ⟨again, others, hagain, hothers, hshares.perm_members htree hother htypes hmembers hothers⟩

/-- The arena of `nestedText`. -/
def nestedArena : List NodeDraft :=
  [ ⟨.identifier, ⟨0, 1⟩, [("name", .value (.text "a"))]⟩
  , ⟨.identifier, ⟨2, 11⟩, [("name", .value (.text "subscribe"))]⟩
  , ⟨.memberExpression, ⟨0, 11⟩, [("object", .node 0), ("property", .node 1)]⟩
  , ⟨.identifier, ⟨13, 14⟩, [("name", .value (.text "v"))]⟩
  , ⟨.identifier, ⟨19, 20⟩, [("name", .value (.text "b"))]⟩
  , ⟨.identifier, ⟨21, 30⟩, [("name", .value (.text "subscribe"))]⟩
  , ⟨.memberExpression, ⟨19, 30⟩, [("object", .node 4), ("property", .node 5)]⟩
  , ⟨.identifier, ⟨32, 33⟩, [("name", .value (.text "w"))]⟩
  , ⟨.identifier, ⟨38, 39⟩, [("name", .value (.text "c"))]⟩
  , ⟨.identifier, ⟨40, 49⟩, [("name", .value (.text "subscribe"))]⟩
  , ⟨.memberExpression, ⟨38, 49⟩, [("object", .node 8), ("property", .node 9)]⟩
  , ⟨.callExpression, ⟨38, 51⟩, [("callee", .node 10), ("arguments", .list [])]⟩
  , ⟨.arrowFunctionExpression, ⟨31, 51⟩, [("params", .list [some 7]), ("body", .node 11)]⟩
  , ⟨.callExpression, ⟨19, 52⟩, [("callee", .node 6), ("arguments", .list [some 12])]⟩
  , ⟨.arrowFunctionExpression, ⟨12, 52⟩, [("params", .list [some 3]), ("body", .node 13)]⟩
  , ⟨.callExpression, ⟨0, 53⟩, [("callee", .node 2), ("arguments", .list [some 14])]⟩
  , ⟨.expressionStatement, ⟨0, 54⟩, [("expression", .node 15)]⟩
  , ⟨.program, ⟨0, 54⟩, [("body", .list [some 16])]⟩ ]

/-- The call in the middle is reported, and what is inside of it is covered by the first. -/
def nestedText : String := "a.subscribe((v) => b.subscribe((w) => c.subscribe()));"

def observableType : Ty := .object "Observable" none [] [] [] [] []

def nestedFile : SourceFile where
  path := "a.ts"
  tree := (Tree.build? nestedArena 17 nestedText).toOption.getD default
  types := some ⟨[(0, observableType), (4, observableType), (8, observableType)]⟩

def nestedRules : List ConfiguredRule := [⟨nestedRule, .warning⟩]

set_option maxRecDepth 100000 in
theorem nested_evaluated :
    (Tree.build? nestedArena 17 nestedText).isOk = true ∧ CalleesFirst nestedFile.tree ∧
    isNested nestedFile.context 2 = false ∧ isNested nestedFile.context 6 = true ∧
    isNested nestedFile.context 10 = true := by
  decide +kernel

theorem build?_nestedArena : Tree.build? nestedArena 17 nestedText = .ok nestedFile.tree :=
  eq_ok_of_isOk nested_evaluated.1 default

theorem noNestedSubscribe_reportsNested_nestedFile :
    Tree.build? nestedArena 17 nestedText = .ok nestedFile.tree ∧ CalleesFirst nestedFile.tree ∧
      noNestedSubscribe.make .null = .ok nestedRule ∧
      ∃ (progress : Progress (List NodeId)) (members : List NodeId),
        (FileRun.ofRules nestedFile.context nestedRules).rules[0]? =
            some ⟨⟨nestedRule, .warning⟩, progress⟩ ∧
          AreOfNested nestedFile.context .warning members progress.diagnostics ∧
          2 ∉ members ∧ 6 ∈ members ∧ 10 ∈ members := by
  obtain ⟨-, hcallees, hfirst, hsecond, hthird⟩ := nested_evaluated
  have hrule : nestedRules[0]? = some ⟨nestedRule, .warning⟩ := rfl
  have htree : nestedFile.context.tree.IsBuilt := Tree.isBuilt_of_build? build?_nestedArena
  obtain ⟨progress, members, hrun, -, hmembers, -⟩ := noNestedSubscribe_reportsNested
    (show Tree.build? nestedArena 17 nestedText = .ok nestedFile.context.tree from
      build?_nestedArena) hcallees make_noNestedSubscribe hrule
  have hmem (member : NodeId) : member ∈ members ↔ isNested nestedFile.context member = true :=
    (hmembers.mem_iff member).trans (isNested_iff_exists htree).symm
  refine ⟨build?_nestedArena, hcallees, make_noNestedSubscribe, progress, members, hrun, hmembers,
    fun hmember => ?_, (hmem 6).mpr hsecond, (hmem 10).mpr hthird⟩
  rw [(hmem 2).mp hmember] at hfirst
  cases hfirst

end ReactiveLint.Rules
