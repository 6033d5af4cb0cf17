import ReactiveLint.Engine.Walk
import ReactiveLint.Proofs.Syntax.Descent

/-!
# The walk is the recursive reading

On a built tree the stack of `Tree.walk` unwinds to the events of the nodes that stand
on it, so the walk is the traversal: every node is entered once and left once, and the
fuel of two events for each node is enough.
-/

namespace ReactiveLint.Tree

variable {tree : Tree} {id : NodeId} {event : Event}

/-- The events of a node and all below it. -/
def events (tree : Tree) (id : NodeId) : List Event := tree.eventsWithin tree.size id

/-- A depth that reaches the deepest node makes all events. -/
theorem IsBuilt.eventsWithin_congr (hbuilt : tree.IsBuilt) {steps left right : Nat}
    (hid : id < tree.size) (hrises : Ancestry.Rises tree.parent? tree.root steps id)
    (hleft : tree.size ≤ steps + left) (hright : tree.size ≤ steps + right) :
    tree.eventsWithin left id = tree.eventsWithin right id := by
  induction left generalizing id steps right with
  | zero =>
      have hlt := hrises.lt_size hbuilt.parent?_root (fun _ _ => hbuilt.parent?_lt) hid
      omega
  | succ left ih =>
      cases right with
      | zero =>
          have hlt := hrises.lt_size hbuilt.parent?_root (fun _ _ => hbuilt.parent?_lt) hid
          omega
      | succ right =>
          have hchildren : (tree.children id).flatMap (tree.eventsWithin left) =
              (tree.children id).flatMap (tree.eventsWithin right) := by
            refine List.flatMap_congr fun child hchild => ?_
            have hparent := (hbuilt.mem_children_iff hid).mp hchild
            exact ih (hbuilt.child_lt hid hchild) (.step hparent hrises) (by omega) (by omega)
          rw [eventsWithin, eventsWithin, hchildren]

/-- A node is entered, then all below its children happens, then it is left. -/
theorem IsBuilt.events_eq (hbuilt : tree.IsBuilt) (hid : id < tree.size) :
    tree.events id =
      ⟨id, .enter⟩ :: (tree.children id).flatMap tree.events ++ [⟨id, .exit⟩] := by
  obtain ⟨steps, hlt, hrises⟩ := hbuilt.exists_rises hid
  obtain ⟨depth, hdepth⟩ : ∃ depth, tree.size = depth + 1 := ⟨tree.size - 1, by omega⟩
  have hchildren : (tree.children id).flatMap (tree.eventsWithin depth) =
      (tree.children id).flatMap tree.events := by
    refine List.flatMap_congr fun child hchild => ?_
    have hparent := (hbuilt.mem_children_iff hid).mp hchild
    exact hbuilt.eventsWithin_congr (hbuilt.child_lt hid hchild) (.step hparent hrises)
      (by omega) (by omega)
  conv_lhs => rw [events, hdepth, eventsWithin, hchildren]

/-! ## Which events there are -/

theorem IsBuilt.within_of_mem (hbuilt : tree.IsBuilt) {depth : Nat} (hid : id < tree.size)
    (hevent : event ∈ tree.eventsWithin depth id) : tree.Within event.node id := by
  induction depth generalizing id with
  | zero => simp [eventsWithin] at hevent
  | succ depth ih =>
      simp only [eventsWithin, List.cons_append, List.mem_cons, List.mem_append,
        List.mem_flatMap, List.not_mem_nil, or_false] at hevent
      rcases hevent with rfl | ⟨child, hchild, hevent⟩ | rfl
      · exact .refl
      · exact (ih (hbuilt.child_lt hid hchild) hevent).tail
          ((hbuilt.mem_children_iff hid).mp hchild)
      · exact .refl

theorem IsBuilt.mem_events_iff (hbuilt : tree.IsBuilt) (hid : id < tree.size) :
    event ∈ tree.events id ↔ tree.Within event.node id := by
  refine ⟨hbuilt.within_of_mem hid, fun hwithin => ?_⟩
  have hnode := hwithin.lt_size hbuilt hid
  induction hwithin with
  | refl =>
      rw [hbuilt.events_eq hnode]
      obtain ⟨node, _ | _⟩ := event <;> simp
  | tail _ hparent ih =>
      rw [hbuilt.events_eq hid, List.cons_append, List.mem_cons, List.mem_append,
        List.mem_flatMap]
      exact .inr (.inl ⟨_, (hbuilt.mem_children_iff hid).mpr hparent,
        ih (hbuilt.lt_of_parent? hparent)⟩)

theorem IsBuilt.nodup_eventsWithin (hbuilt : tree.IsBuilt) (depth : Nat) (hid : id < tree.size) :
    (tree.eventsWithin depth id).Nodup := by
  induction depth generalizing id with
  | zero => exact .nil
  | succ depth ih =>
      have houtside (phase : Phase) :
          (⟨id, phase⟩ : Event) ∉ (tree.children id).flatMap (tree.eventsWithin depth) := by
        rw [List.mem_flatMap]
        rintro ⟨child, hchild, hevent⟩
        exact hbuilt.not_within_child hid hchild
          (hbuilt.within_of_mem (hbuilt.child_lt hid hchild) hevent)
      rw [eventsWithin, List.cons_append, List.nodup_cons, List.nodup_append]
      refine ⟨by simp [houtside], ?_, List.nodup_singleton _, ?_⟩
      · refine List.nodup_flatMap.mpr ⟨fun child hchild => ih (hbuilt.child_lt hid hchild), ?_⟩
        refine (hbuilt.nodup_children hid).imp_of_mem ?_
        intro child other hchild hother hne event hevent hevent'
        exact hne (hbuilt.child_unique hid hchild hother
          (hbuilt.within_of_mem (hbuilt.child_lt hid hchild) hevent)
          (hbuilt.within_of_mem (hbuilt.child_lt hid hother) hevent'))
      · rintro event hevent exit hexit rfl
        exact houtside .exit (List.mem_singleton.mp hexit ▸ hevent)

/-- There are two events for each node. -/
theorem IsBuilt.length_events_le (hbuilt : tree.IsBuilt) (hid : id < tree.size) :
    (tree.events id).length ≤ 2 * tree.size := by
  have hsubset : tree.events id ⊆
      (List.range tree.size).flatMap fun node => [⟨node, .enter⟩, ⟨node, .exit⟩] := by
    rintro ⟨node, phase⟩ hevent
    have hnode := ((hbuilt.mem_events_iff hid).mp hevent).lt_size hbuilt hid
    refine List.mem_flatMap.mpr ⟨node, List.mem_range.mpr hnode, ?_⟩
    cases phase <;> simp
  have hnodup : (tree.events id).Nodup := hbuilt.nodup_eventsWithin tree.size hid
  have hlength := (hnodup.subperm hsubset).length_le
  simpa [List.length_flatMap, Nat.mul_comm] using hlength

/-! ## The stack -/

/-- The events that an event on the stack stands for. -/
def pending (tree : Tree) (event : Event) : List Event :=
  match event.phase with
  | .enter => tree.events event.node
  | .exit => [event]

theorem IsBuilt.pending_eq (hbuilt : tree.IsBuilt) (hevent : event.node < tree.size) :
    tree.pending event = event :: (tree.opened event).flatMap tree.pending := by
  obtain ⟨node, _ | _⟩ := event
  · have hchildren : (tree.children node).flatMap tree.events =
        ((tree.children node).map (⟨·, .enter⟩)).flatMap tree.pending := by
      rw [List.flatMap_map]
      rfl
    rw [pending, opened, hbuilt.events_eq hevent, hchildren, List.flatMap_append]
    rfl
  · rfl

theorem IsBuilt.opened_lt (hbuilt : tree.IsBuilt) (hevent : event.node < tree.size) :
    ∀ next ∈ tree.opened event, next.node < tree.size := by
  obtain ⟨node, _ | _⟩ := event
  · intro next hnext
    simp only [opened, List.mem_append, List.mem_map, List.mem_singleton] at hnext
    rcases hnext with ⟨child, hchild, rfl⟩ | rfl
    · exact hbuilt.child_lt hevent hchild
    · exact hevent
  · simp [opened]

/-- With fuel for all its events a stack unwinds to them. -/
theorem IsBuilt.unwind_eq (hbuilt : tree.IsBuilt) {fuel : Nat} {stack : List Event}
    (hstack : ∀ event ∈ stack, event.node < tree.size)
    (hfuel : (stack.flatMap tree.pending).length ≤ fuel) :
    tree.unwind fuel stack = stack.flatMap tree.pending := by
  induction fuel generalizing stack with
  | zero =>
      rw [unwind]
      exact (List.eq_nil_of_length_eq_zero (Nat.le_zero.mp hfuel)).symm
  | succ fuel ih =>
      cases stack with
      | nil => rfl
      | cons event stack =>
          have hevent := hstack event (by simp)
          have hnext : (event :: stack).flatMap tree.pending =
              event :: (tree.opened event ++ stack).flatMap tree.pending := by
            rw [List.flatMap_cons, hbuilt.pending_eq hevent, List.flatMap_append,
              List.cons_append]
          rw [hnext] at hfuel ⊢
          rw [unwind, ih ?_ (Nat.le_of_succ_le_succ hfuel)]
          exact fun next hnext => (List.mem_append.mp hnext).elim
            (hbuilt.opened_lt hevent next) fun hin => hstack next (List.mem_cons_of_mem _ hin)

theorem IsBuilt.walk_eq_events (hbuilt : tree.IsBuilt) : tree.walk = tree.events tree.root := by
  have hroot := hbuilt.root_lt
  rw [walk, hbuilt.unwind_eq (by simpa using hroot)]
  · simp [pending]
  · simpa [pending] using hbuilt.length_events_le hroot

theorem IsBuilt.nodup_walk (hbuilt : tree.IsBuilt) : tree.walk.Nodup := by
  rw [hbuilt.walk_eq_events]
  exact hbuilt.nodup_eventsWithin tree.size hbuilt.root_lt

theorem IsBuilt.mem_walk_iff (hbuilt : tree.IsBuilt) :
    event ∈ tree.walk ↔ event.node < tree.size := by
  rw [hbuilt.walk_eq_events, hbuilt.mem_events_iff hbuilt.root_lt]
  exact ⟨fun hwithin => hwithin.lt_size hbuilt hbuilt.root_lt, hbuilt.within_root⟩

end ReactiveLint.Tree
