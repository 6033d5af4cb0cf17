import ReactiveLint.Proofs.Engine.Bracketing
import ReactiveLint.Proofs.Syntax.Nearest

/-!
# Where a walk stands

At every point of a walk some nodes have been entered and not left.  Before a node is entered
these are the nodes above it, nearest first, and before it is left the node itself stands in
front of them.  So an invariant of a run over the walk may speak of the nodes that are open.
-/

namespace ReactiveLint.Tree

variable {tree : Tree} {id : NodeId} {event : Event} {first last middle : List NodeId}
  {events more seen rest : List Event}

/-- The nodes that are open before an event, the innermost first. -/
def openBefore (tree : Tree) (event : Event) : List NodeId :=
  match event.phase with
  | .enter => tree.ancestors event.node
  | .exit => event.node :: tree.ancestors event.node

/-- The nodes that are open after an event. -/
def openAfter (tree : Tree) (event : Event) : List NodeId :=
  match event.phase with
  | .enter => event.node :: tree.ancestors event.node
  | .exit => tree.ancestors event.node

/-- Events that lead from some open nodes to others: each finds open what the one before it
has left open. -/
inductive Leads (tree : Tree) : List NodeId → List Event → List NodeId → Prop
  | nil (nodes : List NodeId) : Leads tree nodes [] nodes
  | cons {event : Event} {events : List Event} {last : List NodeId}
      (hrest : Leads tree (tree.openAfter event) events last) :
      Leads tree (tree.openBefore event) (event :: events) last

namespace Leads

theorem append (hevents : tree.Leads first events middle) (hmore : tree.Leads middle more last) :
    tree.Leads first (events ++ more) last := by
  induction hevents with
  | nil => exact hmore
  | cons _ ih => exact .cons (ih hmore)

/-- Events that each lead back to the same open nodes. -/
theorem flatMap {A : Type*} {items : List A} {events : A → List Event} {nodes : List NodeId}
    (hevents : ∀ item ∈ items, tree.Leads nodes (events item) nodes) :
    tree.Leads nodes (items.flatMap events) nodes := by
  induction items with
  | nil => exact .nil nodes
  | cons item items ih =>
      obtain ⟨hitem, hitems⟩ := List.forall_mem_cons.mp hevents
      exact hitem.append (ih hitems)

/-- What holds at the start and is kept by each event holds wherever the events lead. -/
theorem invariant {P : List Event → List NodeId → Prop} (hevents : tree.Leads first rest last)
    (hstart : P seen first)
    (hstep : ∀ before event after, before ++ event :: after = seen ++ rest →
      P before (tree.openBefore event) → P (before ++ [event]) (tree.openAfter event)) :
    P (seen ++ rest) last ∧ ∀ before event after, rest = before ++ event :: after →
      P (seen ++ before) (tree.openBefore event) := by
  induction hevents generalizing seen with
  | nil => simpa using hstart
  | @cons event events last _ ih =>
      have hnext := hstep seen event events rfl hstart
      have hevents := ih hnext (by simpa using hstep)
      rw [List.append_assoc, List.singleton_append] at hevents
      refine ⟨hevents.1, fun before other after hsplit => ?_⟩
      cases before with
      | nil =>
          obtain ⟨rfl, -⟩ := List.cons.inj hsplit
          simpa using hstart
      | cons head before =>
          obtain ⟨rfl, htail⟩ := List.cons.inj hsplit
          simpa using hevents.2 before other after htail

end Leads

namespace IsBuilt

/-- The events of a node lead from what is above it back to that. -/
theorem leads_eventsWithin (hbuilt : tree.IsBuilt) (depth : Nat) (hid : id < tree.size) :
    tree.Leads (tree.ancestors id) (tree.eventsWithin depth id) (tree.ancestors id) := by
  induction depth generalizing id with
  | zero => exact .nil _
  | succ depth ih =>
      have hchildren : tree.Leads (id :: tree.ancestors id)
          ((tree.children id).flatMap (tree.eventsWithin depth)) (id :: tree.ancestors id) := by
        apply Leads.flatMap
        intro child hchild
        have hparent := (hbuilt.mem_children_iff hid).mp hchild
        rw [← hbuilt.ancestors_of_parent? hparent]
        exact ih (hbuilt.child_lt hid hchild)
      have hexit : tree.Leads (id :: tree.ancestors id) [⟨id, .exit⟩] (tree.ancestors id) :=
        @Leads.cons tree ⟨id, .exit⟩ _ _ (.nil _)
      rw [eventsWithin, List.cons_append]
      exact @Leads.cons tree ⟨id, .enter⟩ _ _ (hchildren.append hexit)

theorem leads_walk (hbuilt : tree.IsBuilt) : tree.Leads [] tree.walk [] := by
  have hroot := hbuilt.leads_eventsWithin tree.size hbuilt.root_lt
  rw [ancestors_of_parent?_eq_none hbuilt.parent?_root] at hroot
  rw [hbuilt.walk_eq_events]
  exact hroot

/-- An invariant of the walk, of what has been seen and of the nodes that are open: it holds
before every event, and at the end, when no node is open any more. -/
theorem walk_invariant (hbuilt : tree.IsBuilt) {P : List Event → List NodeId → Prop}
    (hstart : P [] [])
    (hstep : ∀ seen event rest, tree.walk = seen ++ event :: rest →
      P seen (tree.openBefore event) → P (seen ++ [event]) (tree.openAfter event)) :
    P tree.walk [] ∧ ∀ seen event rest, tree.walk = seen ++ event :: rest →
      P seen (tree.openBefore event) :=
  hbuilt.leads_walk.invariant hstart fun before event after hsplit =>
    hstep before event after hsplit.symm

/-! ## What has been seen -/

theorem lt_size_of_split (hbuilt : tree.IsBuilt) (hsplit : tree.walk = seen ++ event :: rest) :
    event.node < tree.size :=
  hbuilt.mem_walk_iff.mp (hsplit ▸ List.mem_append_right seen List.mem_cons_self)

theorem lt_size_of_mem_seen (hbuilt : tree.IsBuilt) (hsplit : tree.walk = seen ++ rest)
    (hmem : event ∈ seen) : event.node < tree.size :=
  hbuilt.mem_walk_iff.mp (hsplit ▸ List.mem_append_left rest hmem)

/-- An event comes once: what is split off before it does not have it, nor what is left. -/
theorem not_mem_of_split (hbuilt : tree.IsBuilt) (hsplit : tree.walk = seen ++ event :: rest) :
    event ∉ seen ∧ event ∉ rest := by
  have hnodup := hbuilt.nodup_walk
  rw [hsplit, List.nodup_middle, List.nodup_cons, List.mem_append, not_or] at hnodup
  exact hnodup.1

/-- What comes before an event in the walk has been seen by then. -/
theorem mem_seen_of_sublist (hbuilt : tree.IsBuilt) {earlier : Event}
    (hsplit : tree.walk = seen ++ event :: rest) (horder : [earlier, event].Sublist tree.walk) :
    earlier ∈ seen := by
  obtain ⟨-, hrest⟩ := hbuilt.not_mem_of_split hsplit
  rw [hsplit, List.sublist_append_iff] at horder
  obtain ⟨left, right, hpair, hleft, hright⟩ := horder
  cases left with
  | nil =>
      obtain rfl : [earlier, event] = right := hpair
      cases hright with
      | cons _ hright => exact absurd (hright.subset (by simp)) hrest
      | cons_cons _ hright => exact absurd (hright.subset (by simp)) hrest
  | cons head left =>
      obtain ⟨rfl, -⟩ := List.cons.inj hpair
      exact hleft.subset (by simp)

/-- What comes after an event in the walk has not been seen by then. -/
theorem not_mem_seen_of_sublist (hbuilt : tree.IsBuilt) {later : Event}
    (hsplit : tree.walk = seen ++ event :: rest) (horder : [event, later].Sublist tree.walk) :
    later ∉ seen := by
  intro hlater
  obtain ⟨before, after, rfl⟩ := List.append_of_mem hlater
  rw [List.append_assoc, List.cons_append] at hsplit
  have hseen := hbuilt.mem_seen_of_sublist hsplit horder
  rw [← List.cons_append, ← List.append_assoc] at hsplit
  exact (hbuilt.not_mem_of_split hsplit).1 (by simp [hseen])

/-- What is below one child comes before what is below a child that starts after it. -/
theorem before_of_start_lt (hbuilt : tree.IsBuilt) {left right : NodeId} {later : Event}
    (hleft : tree.parent? left = some id) (hright : tree.parent? right = some id)
    (hstart : tree.start left < tree.start right) (hevent : tree.Within event.node left)
    (hlater : tree.Within later.node right) : [event, later].Sublist tree.walk := by
  have hid := hbuilt.parent?_lt hleft
  have hevent := (hbuilt.mem_events_iff (hbuilt.lt_of_parent? hleft)).mpr hevent
  have hlater := (hbuilt.mem_events_iff (hbuilt.lt_of_parent? hright)).mpr hlater
  obtain ⟨before, after, hsplit⟩ := List.append_of_mem ((hbuilt.mem_children_iff hid).mpr hleft)
  have hpairwise := hbuilt.pairwise_children hid
  have hmem := (hbuilt.mem_children_iff hid).mpr hright
  rw [hsplit] at hpairwise hmem
  have hafter : right ∈ after := by
    rcases List.mem_append.mp hmem with hbefore | hmem
    · have horder := (List.pairwise_append.mp hpairwise).2.2 right hbefore left List.mem_cons_self
      omega
    · refine (List.mem_cons.mp hmem).resolve_left ?_
      rintro rfl
      exact Nat.lt_irrefl _ hstart
  apply List.Sublist.trans _ (hbuilt.events_infix_walk hid).sublist
  rw [hbuilt.events_eq hid, hsplit, List.flatMap_append, List.flatMap_cons]
  have hfirst := List.singleton_sublist.mpr hevent
  have hsecond := List.singleton_sublist.mpr (List.mem_flatMap.mpr ⟨right, hafter, hlater⟩)
  exact (((hfirst.append hsecond).trans (List.sublist_append_right _ _)).cons _).trans
    (List.sublist_append_left _ _)

/-- The open nodes are those that have been entered and not left. -/
theorem mem_open_iff (hbuilt : tree.IsBuilt) (hsplit : tree.walk = seen ++ event :: rest) :
    id ∈ tree.openBefore event ↔ ⟨id, .enter⟩ ∈ seen ∧ ⟨id, .exit⟩ ∉ seen := by
  let P (seen : List Event) (nodes : List NodeId) : Prop :=
    ∀ id, id ∈ nodes ↔ ⟨id, .enter⟩ ∈ seen ∧ ⟨id, .exit⟩ ∉ seen
  suffices hstep : ∀ seen event rest, tree.walk = seen ++ event :: rest →
      P seen (tree.openBefore event) → P (seen ++ [event]) (tree.openAfter event) by
    have hstart : P [] [] := by simp [P]
    exact (hbuilt.walk_invariant hstart hstep).2 seen event rest hsplit id
  rintro seen ⟨node, phase⟩ rest hsplit hopen id
  have hnode : node < tree.size := hbuilt.lt_size_of_split hsplit
  have hself : node ∉ tree.ancestors node := fun hmem =>
    hbuilt.not_above_self ((hbuilt.mem_ancestors_iff hnode).mp hmem)
  have hid := hopen id
  cases phase with
  | enter =>
      have hexit : (⟨node, .exit⟩ : Event) ∉ seen := hbuilt.not_mem_seen_of_sublist hsplit
        (hbuilt.enter_before hnode .refl (by simp))
      by_cases heq : id = node
      · subst heq
        simp [openAfter, hexit]
      · simpa [openAfter, openBefore, heq] using hid
  | exit =>
      by_cases heq : id = node
      · subst heq
        simp [openAfter, hself]
      · simpa [openAfter, openBefore, heq] using hid

end IsBuilt

end ReactiveLint.Tree

namespace ReactiveLint.Event

variable {test : Event → Bool} {seen : List Event} {node : NodeId}

/-! ## The nodes of some events -/

/-- The nodes of the events that pass a test, in order. -/
def nodesOn (test : Event → Bool) (seen : List Event) : List NodeId :=
  (seen.filter test).map Event.node

theorem mem_nodesOn_iff :
    node ∈ nodesOn test seen ↔ ∃ phase, ⟨node, phase⟩ ∈ seen ∧ test ⟨node, phase⟩ = true := by
  simp only [nodesOn, List.mem_map, List.mem_filter]
  constructor
  · rintro ⟨⟨node, phase⟩, hevent, rfl⟩
    exact ⟨phase, hevent⟩
  · rintro ⟨phase, hevent⟩
    exact ⟨⟨node, phase⟩, hevent, rfl⟩

/-- No node comes twice if the test takes one event of a node only. -/
theorem nodup_nodesOn (hseen : seen.Nodup)
    (htest : ∀ node phase phase', test ⟨node, phase⟩ = true → test ⟨node, phase'⟩ = true →
      phase = phase') : (nodesOn test seen).Nodup := by
  refine (hseen.filter test).map_on ?_
  rintro ⟨node, phase⟩ hleft ⟨other, phase'⟩ hright (rfl : node = other)
  rw [htest node phase phase' (List.mem_filter.mp hleft).2 (List.mem_filter.mp hright).2]

/-- One more event adds what it has for its node, if it passes. -/
theorem flatMap_nodesOn_append {A : Type*} (write : NodeId → List A) (seen : List Event)
    (event : Event) :
    (nodesOn test (seen ++ [event])).flatMap write =
      (nodesOn test seen).flatMap write ++ if test event then write event.node else [] := by
  cases hevent : test event <;> simp [nodesOn, hevent]

end ReactiveLint.Event
