import ReactiveLint.Proofs.Order.StableSort
import ReactiveLint.Proofs.Syntax.Linking

/-!
# Built trees

What the accessors of a tree say once `Tree.build?` has accepted its arena.  A node
other than the root has one slot position, which its place records; parents lead
from every node to the root without repetition; and the children of a node are the
nodes of its slots in the order of the source.
-/

namespace ReactiveLint.Tree

variable {drafts : List NodeDraft} {root : NodeId} {source : String} {tree : Tree}

/-- The nodes of a tree without their links. -/
def arena (tree : Tree) : List NodeDraft := tree.nodes.toList.map (·.toNodeDraft)

/-- A tree that linking has made. -/
def IsBuilt (tree : Tree) : Prop := build? tree.arena tree.root tree.source = .ok tree

@[simp]
theorem length_arena (tree : Tree) : tree.arena.length = tree.size := by
  simp [arena, size]

theorem arena_assembled (linked : Array (Option Place)) :
    (assembled drafts linked root source).arena = drafts := by
  simp only [arena, assembled, List.map_map, Function.comp_def]
  exact List.zipIdx_map_fst 0 drafts

theorem build?_eq_ok (hbuild : build? drafts root source = .ok tree) :
    tree.arena = drafts ∧ tree.root = root ∧ tree.source = source := by
  obtain ⟨-, -, linked, -, -, rfl⟩ := build?_eq_ok_iff.mp hbuild
  exact ⟨arena_assembled linked, rfl, rfl⟩

theorem isBuilt_of_build? (hbuild : build? drafts root source = .ok tree) : tree.IsBuilt := by
  obtain ⟨rfl, rfl, rfl⟩ := build?_eq_ok hbuild
  exact hbuild

theorem node_eq (tree : Tree) (id : NodeId) : tree.node id = tree.nodes[id]?.getD default :=
  Array.getD_eq_getD_getElem? ..

theorem getElem?_arena (tree : Tree) (id : NodeId) :
    tree.arena[id]? = tree.nodes[id]?.map (·.toNodeDraft) := by
  simp [arena]

theorem exists_getElem?_arena {id : NodeId} (hid : id < tree.size) :
    ∃ draft, tree.arena[id]? = some draft :=
  ⟨_, List.getElem?_eq_getElem (by rwa [length_arena])⟩

theorem toNodeDraft_node (tree : Tree) (id : NodeId) :
    (tree.node id).toNodeDraft = tree.arena[id]?.getD default := by
  rw [node_eq, getElem?_arena]
  cases tree.nodes[id]? <;> rfl

/-- A slot of a node is what sits under its number in the arena. -/
theorem occupant?_eq_fieldAt? (tree : Tree) (place : Place) :
    occupant? tree.arena place =
      (tree.fieldAt? place.parent place.field).bind fun (_, slot) => slot.at? place.index := by
  have hfields : tree.fields place.parent =
      ((tree.arena[place.parent]?).map (·.fields)).getD [] := by
    rw [fields, toNodeDraft_node]
    cases tree.arena[place.parent]? <;> rfl
  rw [occupant?, fieldAt?, hfields]
  cases tree.arena[place.parent]? <;> rfl

theorem startOf_arena (tree : Tree) (id : NodeId) :
    startOf tree.arena.toArray id = tree.start id := by
  rw [startOf, start, span, toNodeDraft_node, List.getElem?_toArray]
  cases tree.arena[id]? <;> rfl

namespace IsBuilt

theorem linkable (hbuilt : tree.IsBuilt) : Linkable tree.arena tree.root tree.source :=
  exists_build?_iff.mp ⟨tree, hbuilt⟩

theorem root_lt (hbuilt : tree.IsBuilt) : tree.root < tree.size := by
  simpa using hbuilt.linkable.root_lt

theorem span_fitsIn (hbuilt : tree.IsBuilt) {id : NodeId} (hid : id < tree.size) :
    (tree.span id).FitsIn (Text.byteLength tree.source.toList) := by
  obtain ⟨draft, hdraft⟩ := exists_getElem?_arena hid
  rw [span, toNodeDraft_node, hdraft]
  exact hbuilt.linkable.fitsIn draft (List.mem_of_getElem? hdraft)

private theorem exists_linked (hbuilt : tree.IsBuilt) :
    ∃ linked, assignPlaces tree.root (allLinks tree.arena)
        (Array.replicate tree.arena.length none) = .ok linked ∧
      (∀ id, tree.place? id = linked[id]?.join) ∧
      ∀ id draft, tree.arena[id]? = some draft →
        tree.children id = orderedChildren tree.arena.toArray draft id := by
  obtain ⟨-, -, linked, hlinked, -, htree⟩ := build?_eq_ok_iff.mp hbuilt
  have hnode (id : NodeId) : tree.nodes[id]? = tree.arena[id]?.map fun draft =>
      { draft with
        place := linked[id]?.join
        children := orderedChildren tree.arena.toArray draft id } := by
    conv_lhs => rw [htree]
    simp [assembled, List.getElem?_zipIdx, Function.comp_def]
  refine ⟨linked, hlinked, fun id => ?_, fun id draft hdraft => ?_⟩
  · rw [place?, node_eq, hnode]
    cases hdraft : tree.arena[id]? with
    | some draft => rfl
    | none =>
        have hsize : linked.size ≤ id := by
          rw [size_linked hlinked]
          exact List.getElem?_eq_none_iff.mp hdraft
        rw [Array.getElem?_eq_none hsize]
        rfl
  · rw [children, node_eq, hnode, hdraft]
    rfl

/-- The place of a node is the one slot position that holds it. -/
theorem place?_eq_some_iff (hbuilt : tree.IsBuilt) {id : NodeId} {place : Place} :
    tree.place? id = some place ↔ occupant? tree.arena place = some id := by
  obtain ⟨linked, hlinked, hplace, -⟩ := hbuilt.exists_linked
  rw [hplace, place_eq_some_iff hlinked]

theorem parent?_eq_some_iff (hbuilt : tree.IsBuilt) {id parent : NodeId} :
    tree.parent? id = some parent ↔ Holds tree.arena parent id := by
  simp only [parent?, Option.map_eq_some_iff, hbuilt.place?_eq_some_iff, Holds, and_comm]

theorem parent?_lt (hbuilt : tree.IsBuilt) {id parent : NodeId}
    (hparent : tree.parent? id = some parent) : parent < tree.size := by
  obtain ⟨place, rfl, hplace⟩ := hbuilt.parent?_eq_some_iff.mp hparent
  simpa using parent_lt_of_occupant? hplace

theorem place?_root (hbuilt : tree.IsBuilt) : tree.place? tree.root = none := by
  rw [Option.eq_none_iff_forall_ne_some]
  intro place hplace
  exact hbuilt.linkable.root_unoccupied place (hbuilt.place?_eq_some_iff.mp hplace)

theorem parent?_root (hbuilt : tree.IsBuilt) : tree.parent? tree.root = none := by
  rw [parent?, hbuilt.place?_root]
  rfl

theorem exists_rises (hbuilt : tree.IsBuilt) {id : NodeId} (hid : id < tree.size) :
    ∃ steps < tree.size, Ancestry.Rises tree.parent? tree.root steps id := by
  obtain ⟨linked, hlinked, hplace, -⟩ := hbuilt.exists_linked
  have hparents : parentIn linked = tree.parent? := by
    funext node
    rw [parentIn, parent?, hplace]
  obtain ⟨steps, hrises⟩ := (reachable_iff_rises hlinked).mp
    (hbuilt.linkable.reachable id (by simpa using hid))
  rw [hparents] at hrises
  exact ⟨steps, hrises.lt_size hbuilt.parent?_root (fun _ _ => hbuilt.parent?_lt) hid, hrises⟩

/-- Parents lead from every node to the root and pass no node twice. -/
theorem isLineage_ancestors (hbuilt : tree.IsBuilt) {id : NodeId} (hid : id < tree.size) :
    Ancestry.IsLineage tree.parent? tree.root (id :: tree.ancestors id) := by
  obtain ⟨steps, hlt, hrises⟩ := hbuilt.exists_rises hid
  have hclimb (fuel : Nat) (node : NodeId) :
      tree.ancestorsWithin fuel node = Ancestry.climb tree.parent? fuel node := by
    induction fuel generalizing node with
    | zero => rfl
    | succ fuel ih =>
        rw [ancestorsWithin, Ancestry.climb]
        cases tree.parent? node <;> simp [ih]
  have hsteps : steps ≤ tree.nodes.size := Nat.le_of_lt hlt
  rw [ancestors, hclimb, hrises.climb_eq hbuilt.parent?_root hsteps]
  exact hrises.isLineage hbuilt.parent?_root

theorem nodup_slotIds (hbuilt : tree.IsBuilt) {id : NodeId} {draft : NodeDraft}
    (hdraft : tree.arena[id]? = some draft) : draft.slotIds.Nodup := by
  rw [← draft.map_child_links id]
  have hsublist : ((draft.links id).map (·.child)).Sublist
      ((allLinks tree.arena).map (·.child)) := by
    refine List.Sublist.map _ ?_
    rw [allLinks, List.flatMap]
    refine List.sublist_flatten_of_mem ?_
    exact List.mem_map.mpr ⟨(draft, id), List.mem_zipIdx_iff_getElem?.mpr hdraft, rfl⟩
  exact (nodup_children_iff.mpr hbuilt.linkable.place_unique).sublist hsublist

/-- The children of a node are the nodes of its slots. -/
theorem perm_children (hbuilt : tree.IsBuilt) {id : NodeId} (hid : id < tree.size) :
    (tree.children id).Perm (tree.node id).slotIds := by
  obtain ⟨linked, -, -, hchildren⟩ := hbuilt.exists_linked
  obtain ⟨draft, hdraft⟩ := exists_getElem?_arena hid
  rw [hchildren id draft hdraft, orderedChildren, draft.map_child_links, toNodeDraft_node, hdraft]
  exact StableSort.perm_sort _ _

/-- Children stand in the order of their starts, and of their slots where starts agree. -/
theorem pairwise_children (hbuilt : tree.IsBuilt) {id : NodeId} (hid : id < tree.size) :
    (tree.children id).Pairwise fun left right => tree.start left < tree.start right ∨
      tree.start left = tree.start right ∧
        [left, right].Sublist (tree.node id).slotIds := by
  obtain ⟨linked, -, -, hchildren⟩ := hbuilt.exists_linked
  obtain ⟨draft, hdraft⟩ := exists_getElem?_arena hid
  simp only [hchildren id draft hdraft, orderedChildren, draft.map_child_links, startOf_arena,
    toNodeDraft_node, hdraft]
  exact StableSort.pairwise_sort_key tree.start (hbuilt.nodup_slotIds hdraft)

theorem parent?_isSome (hbuilt : tree.IsBuilt) {id : NodeId} (hid : id < tree.size)
    (hroot : id ≠ tree.root) : ∃ parent, tree.parent? id = some parent := by
  obtain ⟨steps, -, hrises⟩ := hbuilt.exists_rises hid
  cases hrises with
  | root => exact absurd rfl hroot
  | step hparent _ => exact ⟨_, hparent⟩

end IsBuilt

/-! ## The links of an accepted arena -/

/-- A node is known by its parent, the name of the slot and the index in it, and sits
nowhere else. -/
def SitsOnce (tree : Tree) (id : NodeId) : Prop :=
  ∃ parent field name slot,
    tree.parent? id = some parent ∧ tree.fieldAt? parent field = some (name, slot) ∧
      tree.fieldName? id = some name ∧ slot.at? (tree.listIndex? id) = some id ∧
      ∀ place, occupant? tree.arena place = some id →
        place = ⟨parent, field, tree.listIndex? id⟩

/-- Links that agree with the slots of a tree. -/
structure IsLinked (tree : Tree) : Prop where
  sitsOnce : ∀ id < tree.size, id ≠ tree.root → tree.SitsOnce id
  root_apart : tree.parent? tree.root = none ∧ tree.fieldName? tree.root = none ∧
    tree.listIndex? tree.root = none ∧ ∀ place, occupant? tree.arena place ≠ some tree.root
  lineage : ∀ id < tree.size,
    Ancestry.IsLineage tree.parent? tree.root (id :: tree.ancestors id)
  perm_children : ∀ id < tree.size, (tree.children id).Perm (tree.node id).slotIds
  pairwise_children : ∀ id < tree.size, (tree.children id).Pairwise fun left right =>
    tree.start left < tree.start right ∨
      tree.start left = tree.start right ∧ [left, right].Sublist (tree.node id).slotIds

theorem IsBuilt.sitsOnce (hbuilt : tree.IsBuilt) {id : NodeId} (hid : id < tree.size)
    (hroot : id ≠ tree.root) : tree.SitsOnce id := by
  obtain ⟨parent, hparent⟩ := hbuilt.parent?_isSome hid hroot
  obtain ⟨place, hplace, rfl⟩ := Option.map_eq_some_iff.mp hparent
  have hoccupant := hbuilt.place?_eq_some_iff.mp hplace
  obtain ⟨⟨name, slot⟩, hfield, hat⟩ :=
    Option.bind_eq_some_iff.mp ((tree.occupant?_eq_fieldAt? place).symm.trans hoccupant)
  have hindex : tree.listIndex? id = place.index := by simp [listIndex?, hplace]
  refine ⟨place.parent, place.field, name, slot, hparent, hfield, ?_, ?_, ?_⟩
  · simp [fieldName?, hplace, hfield]
  · rwa [hindex]
  · intro other hother
    rw [hindex]
    exact hbuilt.linkable.place_unique other place id hother hoccupant

theorem IsBuilt.isLinked (hbuilt : tree.IsBuilt) : tree.IsLinked where
  sitsOnce _ hid hroot := hbuilt.sitsOnce hid hroot
  root_apart := by
    have hplace := hbuilt.place?_root
    exact ⟨hbuilt.parent?_root, by simp [fieldName?, hplace], by simp [listIndex?, hplace],
      hbuilt.linkable.root_unoccupied⟩
  lineage _ hid := hbuilt.isLineage_ancestors hid
  perm_children _ hid := hbuilt.perm_children hid
  pairwise_children _ hid := hbuilt.pairwise_children hid

/-- An arena is accepted exactly when its slots make one tree under the root over the
source, and then the tree has its nodes and the links that its slots ask for. -/
theorem build?_accepts_and_links (drafts : List NodeDraft) (root : NodeId) (source : String) :
    ((∃ tree, build? drafts root source = .ok tree) ↔ Linkable drafts root source) ∧
      ∀ tree, build? drafts root source = .ok tree →
        (tree.arena = drafts ∧ tree.root = root ∧ tree.source = source) ∧ tree.IsLinked :=
  ⟨exists_build?_iff, fun _ hbuild =>
    ⟨build?_eq_ok hbuild, (isBuilt_of_build? hbuild).isLinked⟩⟩

/-- `f(, x)` with its parts before the whole and the arguments before the callee. -/
def callArena : List NodeDraft :=
  [ ⟨.identifier, ⟨4, 5⟩, [("name", .value (.text "x"))]⟩
  , ⟨.identifier, ⟨0, 1⟩, [("name", .value (.text "f"))]⟩
  , ⟨.callExpression, ⟨0, 6⟩, [("arguments", .list [none, some 0]), ("callee", .node 1)]⟩ ]

theorem build?_callArena :
    ∃ tree, build? callArena 2 "f(, x)" = .ok tree ∧ tree.arena = callArena ∧
      tree.IsLinked := by
  have hbuild : build? callArena 2 "f(, x)" = .ok _ := rfl
  obtain ⟨⟨harena, -, -⟩, hlinked⟩ :=
    (build?_accepts_and_links callArena 2 "f(, x)").2 _ hbuild
  exact ⟨_, hbuild, harena, hlinked⟩

end ReactiveLint.Tree
