import ReactiveLint.Proofs.Engine.Walk

/-!
# The brackets of a walk

The loop that takes events from a stack comes to an end on a built tree, and what it
has taken then is the recursive traversal.  The two events of a node are brackets
around all that happens below it.
-/

namespace ReactiveLint

/-- Events in which every node that is entered is left again, innermost first. -/
inductive Bracketed : List Event → Prop
  | nil : Bracketed []
  | node (id : NodeId) {inside after : List Event} (hinside : Bracketed inside)
      (hafter : Bracketed after) : Bracketed (⟨id, .enter⟩ :: inside ++ ⟨id, .exit⟩ :: after)

namespace Bracketed

variable {left right inside : List Event}

theorem append (hleft : Bracketed left) (hright : Bracketed right) :
    Bracketed (left ++ right) := by
  induction hleft with
  | nil => exact hright
  | node id hinside hafter _ ihafter =>
      have hnode := Bracketed.node id hinside ihafter
      simpa only [List.append_assoc, List.cons_append] using hnode

theorem flatMap {A : Type*} {items : List A} {events : A → List Event}
    (hevents : ∀ item ∈ items, Bracketed (events item)) : Bracketed (items.flatMap events) := by
  induction items with
  | nil => exact .nil
  | cons item items ih =>
      have hitem := hevents item List.mem_cons_self
      have hrest := ih fun other hother => hevents other (List.mem_cons_of_mem item hother)
      rw [List.flatMap_cons]
      exact hitem.append hrest

theorem around (id : NodeId) (hinside : Bracketed inside) :
    Bracketed (⟨id, .enter⟩ :: inside ++ [⟨id, .exit⟩]) :=
  .node id hinside .nil

end Bracketed

namespace Tree

variable {tree : Tree} {id : NodeId} {event : Event} {stack events : List Event}

/-! ## The loop and its end -/

/-- The loop over a stack ends after these events: while there is one on the stack, it is
taken, and what it opens is put in its place. -/
inductive Unwinds (tree : Tree) : List Event → List Event → Prop
  | empty : tree.Unwinds [] []
  | take {event : Event} {stack events : List Event}
      (hrest : tree.Unwinds (tree.opened event ++ stack) events) :
      tree.Unwinds (event :: stack) (event :: events)

/-- There is one way for the loop to go. -/
theorem Unwinds.unique {other : List Event} (hevents : tree.Unwinds stack events)
    (hother : tree.Unwinds stack other) : events = other := by
  induction hevents generalizing other with
  | empty =>
      cases hother
      rfl
  | take _ ih =>
      cases hother with
      | take hrest => rw [ih hrest]

/-- Fuel for as many events as the loop takes leaves none of them out. -/
theorem Unwinds.unwind_eq (hevents : tree.Unwinds stack events) {fuel : Nat}
    (hfuel : events.length ≤ fuel) : tree.unwind fuel stack = events := by
  induction hevents generalizing fuel with
  | empty => cases fuel <;> rfl
  | @take event stack events _ ih =>
      obtain ⟨rest, rfl⟩ : ∃ rest, fuel = rest + 1 := Nat.exists_eq_add_one.mpr
        (Nat.lt_of_lt_of_le (Nat.succ_pos events.length) hfuel)
      have hrest : events.length ≤ rest := Nat.le_of_succ_le_succ hfuel
      rw [unwind, ih hrest]

/-- On a built tree the loop ends, whatever nodes of the tree stand on the stack. -/
theorem IsBuilt.unwinds (hbuilt : tree.IsBuilt)
    (hstack : ∀ event ∈ stack, event.node < tree.size) :
    tree.Unwinds stack (stack.flatMap tree.pending) := by
  -- the events that the stack stands for become fewer by the one that is taken
  induction hlength : (stack.flatMap tree.pending).length generalizing stack with
  | zero =>
      cases stack with
      | nil => exact .empty
      | cons event stack =>
          have hevent := hstack event List.mem_cons_self
          rw [List.flatMap_cons, hbuilt.pending_eq hevent] at hlength
          simp at hlength
  | succ length ih =>
      cases stack with
      | nil => simp at hlength
      | cons event stack =>
          have hevent := hstack event List.mem_cons_self
          have hnext : (event :: stack).flatMap tree.pending =
              event :: (tree.opened event ++ stack).flatMap tree.pending := by
            rw [List.flatMap_cons, hbuilt.pending_eq hevent, List.flatMap_append,
              List.cons_append]
          have hopened : ∀ next ∈ tree.opened event ++ stack, next.node < tree.size := by
            intro next hnext
            rcases List.mem_append.mp hnext with hnext | hnext
            · exact hbuilt.opened_lt hevent next hnext
            · exact hstack next (List.mem_cons_of_mem event hnext)
          rw [hnext, List.length_cons] at hlength
          rw [hnext]
          exact .take (ih hopened (Nat.succ.inj hlength))

theorem IsBuilt.unwinds_walk (hbuilt : tree.IsBuilt) :
    tree.Unwinds [⟨tree.root, .enter⟩] tree.walk := by
  have hroot : ∀ event ∈ [(⟨tree.root, .enter⟩ : Event)], event.node < tree.size := by
    simpa using hbuilt.root_lt
  have hwalk : tree.walk = [(⟨tree.root, .enter⟩ : Event)].flatMap tree.pending := by
    rw [hbuilt.walk_eq_events, List.flatMap_singleton]
    rfl
  rw [hwalk]
  exact hbuilt.unwinds hroot

/-! ## The recursive traversal -/

/-- Gives for every node its entering, the traversals of its children, and its leaving. -/
def IsTraversal (tree : Tree) (traversal : NodeId → List Event) : Prop :=
  ∀ id < tree.size, traversal id =
    ⟨id, .enter⟩ :: (tree.children id).flatMap traversal ++ [⟨id, .exit⟩]

theorem IsBuilt.isTraversal_events (hbuilt : tree.IsBuilt) : tree.IsTraversal tree.events :=
  fun _ hid => hbuilt.events_eq hid

/-- The equations of a traversal determine it. -/
theorem IsTraversal.eq_events (hbuilt : tree.IsBuilt) {traversal : NodeId → List Event}
    (htraversal : tree.IsTraversal traversal) (hid : id < tree.size) :
    traversal id = tree.events id := by
  -- the events of a child are fewer than those of its parent
  induction hlength : (tree.events id).length using Nat.strongRecOn generalizing id with
  | ind length ih =>
      subst hlength
      have hchildren : (tree.children id).flatMap traversal =
          (tree.children id).flatMap tree.events := by
        apply List.flatMap_congr
        intro child hchild
        have hchild_lt := hbuilt.child_lt hid hchild
        have hsublist : (tree.events child).Sublist
            ((tree.children id).flatMap tree.events) :=
          List.sublist_flatten_of_mem (List.mem_map_of_mem hchild)
        have hfewer : (tree.events child).length < (tree.events id).length := by
          rw [hbuilt.events_eq hid, List.length_append, List.length_cons]
          have hle := hsublist.length_le
          omega
        exact ih _ hfewer hchild_lt rfl
      rw [htraversal id hid, hchildren, ← hbuilt.events_eq hid]

/-! ## Brackets and their order -/

theorem bracketed_eventsWithin (tree : Tree) (depth : Nat) (id : NodeId) :
    Bracketed (tree.eventsWithin depth id) := by
  induction depth generalizing id with
  | zero => exact .nil
  | succ depth ih =>
      have hchildren : Bracketed ((tree.children id).flatMap (tree.eventsWithin depth)) :=
        .flatMap fun child _ => ih child
      rw [eventsWithin]
      exact hchildren.around id

/-- The events of a node stand together in the walk. -/
theorem IsBuilt.events_infix_walk (hbuilt : tree.IsBuilt) (hid : id < tree.size) :
    tree.events id <:+: tree.walk := by
  have hwithin := hbuilt.within_root hid
  rw [hbuilt.walk_eq_events]
  induction hwithin using Relation.ReflTransGen.head_induction_on with
  | refl => exact List.infix_rfl
  | @head child parent hparent _ ih =>
      have hparent_lt := hbuilt.parent?_lt hparent
      have hchild : child ∈ tree.children parent :=
        (hbuilt.mem_children_iff hparent_lt).mpr hparent
      obtain ⟨before, after, hsplit⟩ := List.append_of_mem hchild
      have hinfix : tree.events child <:+: tree.events parent := by
        refine ⟨⟨parent, .enter⟩ :: before.flatMap tree.events,
          after.flatMap tree.events ++ [⟨parent, .exit⟩], ?_⟩
        rw [hbuilt.events_eq hparent_lt, hsplit]
        simp only [List.flatMap_append, List.flatMap_cons, List.append_assoc, List.cons_append]
      exact hinfix.trans (ih hparent_lt)

/-- All events below a node come after it is entered. -/
theorem IsBuilt.enter_before (hbuilt : tree.IsBuilt) (hid : id < tree.size)
    (hwithin : tree.Within event.node id) (hne : event ≠ ⟨id, .enter⟩) :
    [⟨id, .enter⟩, event].Sublist tree.walk := by
  have hevent := (hbuilt.mem_events_iff hid).mpr hwithin
  apply List.Sublist.trans _ (hbuilt.events_infix_walk hid).sublist
  rw [hbuilt.events_eq hid, List.cons_append] at hevent ⊢
  have htail := (List.mem_cons.mp hevent).resolve_left hne
  exact (List.singleton_sublist.mpr htail).cons_cons _

/-- All events below a node come before it is left. -/
theorem IsBuilt.before_exit (hbuilt : tree.IsBuilt) (hid : id < tree.size)
    (hwithin : tree.Within event.node id) (hne : event ≠ ⟨id, .exit⟩) :
    [event, ⟨id, .exit⟩].Sublist tree.walk := by
  have hevent := (hbuilt.mem_events_iff hid).mpr hwithin
  apply List.Sublist.trans _ (hbuilt.events_infix_walk hid).sublist
  rw [hbuilt.events_eq hid] at hevent ⊢
  have hinit : event ∉ [(⟨id, .exit⟩ : Event)] := by simpa using hne
  have hbefore := (List.mem_append.mp hevent).resolve_right hinit
  exact (List.singleton_sublist.mpr hbefore).append (List.Sublist.refl _)

/-- What the events of a walk through a tree are. -/
structure IsWalk (tree : Tree) (events : List Event) : Prop where
  /-- The loop over the stack ends, and these are the events that it has taken then. -/
  unwinds_iff : ∀ taken, tree.Unwinds [⟨tree.root, .enter⟩] taken ↔ taken = events
  unwind_eq : ∀ fuel, 2 * tree.size ≤ fuel → tree.unwind fuel [⟨tree.root, .enter⟩] = events
  traversal_eq : tree.IsTraversal tree.events ∧
    ∀ traversal, tree.IsTraversal traversal → events = traversal tree.root
  mem_iff : ∀ event, event ∈ events ↔ event.node < tree.size
  count_eq_one : ∀ id < tree.size, ∀ phase, events.count ⟨id, phase⟩ = 1
  bracketed : Bracketed events
  enter_before : ∀ id < tree.size, ∀ event : Event, tree.Within event.node id →
    event ≠ ⟨id, .enter⟩ → [⟨id, .enter⟩, event].Sublist events
  before_exit : ∀ id < tree.size, ∀ event : Event, tree.Within event.node id →
    event ≠ ⟨id, .exit⟩ → [event, ⟨id, .exit⟩].Sublist events
  getLast?_eq : events.getLast? = some ⟨tree.root, .exit⟩

theorem IsBuilt.isWalk (hbuilt : tree.IsBuilt) : tree.IsWalk tree.walk where
  unwinds_iff taken := by
    constructor
    · intro htaken
      exact htaken.unique hbuilt.unwinds_walk
    · intro htaken
      exact htaken ▸ hbuilt.unwinds_walk
  unwind_eq fuel hfuel := by
    have hlength : tree.walk.length ≤ 2 * tree.size := by
      rw [hbuilt.walk_eq_events]
      exact hbuilt.length_events_le hbuilt.root_lt
    exact hbuilt.unwinds_walk.unwind_eq (Nat.le_trans hlength hfuel)
  traversal_eq := by
    refine ⟨hbuilt.isTraversal_events, fun traversal htraversal => ?_⟩
    rw [hbuilt.walk_eq_events, htraversal.eq_events hbuilt hbuilt.root_lt]
  mem_iff _ := hbuilt.mem_walk_iff
  count_eq_one _ hid _ := List.count_eq_one_of_mem hbuilt.nodup_walk (hbuilt.mem_walk_iff.mpr hid)
  bracketed := by
    rw [hbuilt.walk_eq_events]
    exact tree.bracketed_eventsWithin tree.size tree.root
  enter_before _ hid _ := hbuilt.enter_before hid
  before_exit _ hid _ := hbuilt.before_exit hid
  getLast?_eq := by
    rw [hbuilt.walk_eq_events, hbuilt.events_eq hbuilt.root_lt, List.getLast?_concat]

/-- The loop of the walk ends on every accepted arena with the events of the recursive
traversal: each node is entered once and left once, around all that is below it. -/
theorem isWalk_of_build? {drafts : List NodeDraft} {root : NodeId} {source : String}
    (hbuild : build? drafts root source = .ok tree) :
    tree.IsWalk tree.walk ∧ tree.walk = tree.traversal := by
  have hbuilt := isBuilt_of_build? hbuild
  exact ⟨hbuilt.isWalk, hbuilt.walk_eq_events⟩

/-- The call is entered first and left last, and its callee comes before the argument. -/
theorem isWalk_callArena :
    ∃ tree, build? callArena 2 "f(, x)" = .ok tree ∧ tree.IsWalk tree.walk ∧
      tree.walk = [⟨2, .enter⟩, ⟨1, .enter⟩, ⟨1, .exit⟩, ⟨0, .enter⟩, ⟨0, .exit⟩, ⟨2, .exit⟩] := by
  have hbuild : build? callArena 2 "f(, x)" = .ok _ := rfl
  have hwalk := isWalk_of_build? hbuild
  exact ⟨_, hbuild, hwalk.1, by decide⟩

end Tree

end ReactiveLint
