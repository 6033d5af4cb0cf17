import Mathlib.Logic.Relation
import ReactiveLint.Proofs.Syntax.Built

/-!
# Nodes within nodes

In a built tree the children of a node are the nodes whose parent it is.  A node is
within another when parents lead from it to that one; since the way up is unique, no
node is within two children of one node.
-/

namespace ReactiveLint.Tree

variable {tree : Tree} {id child node top other : NodeId}

namespace IsBuilt

theorem lt_of_parent? (hbuilt : tree.IsBuilt) (hparent : tree.parent? child = some id) :
    child < tree.size := by
  obtain ⟨place, -, hplace⟩ := hbuilt.parent?_eq_some_iff.mp hparent
  simpa using hbuilt.linkable.occupant_lt place child hplace

theorem mem_slotIds_iff (hbuilt : tree.IsBuilt) (hid : id < tree.size) :
    child ∈ (tree.node id).slotIds ↔ tree.parent? child = some id := by
  obtain ⟨draft, hdraft⟩ := exists_getElem?_arena hid
  rw [hbuilt.parent?_eq_some_iff, toNodeDraft_node, hdraft, Option.getD_some,
    ← draft.map_child_links id, List.mem_map]
  constructor
  · rintro ⟨link, hlink, rfl⟩
    obtain ⟨hparent, name, slot, hfield, hat⟩ := NodeDraft.mem_links_iff.mp hlink
    exact ⟨link.place, hparent,
      occupant?_eq_some_iff.mpr ⟨draft, name, slot, hparent ▸ hdraft, hfield, hat⟩⟩
  · rintro ⟨place, hparent, hplace⟩
    obtain ⟨draft', name, slot, hdraft', hfield, hat⟩ := occupant?_eq_some_iff.mp hplace
    obtain rfl : draft = draft' := Option.some.inj (hdraft.symm.trans (hparent ▸ hdraft'))
    exact ⟨⟨place, child⟩, NodeDraft.mem_links_iff.mpr ⟨hparent, name, slot, hfield, hat⟩, rfl⟩

theorem parent?_of_mem_slot (hbuilt : tree.IsBuilt) {field : String} {slot : Slot}
    (hslot : tree.slot? id field = some slot) (hchild : child ∈ slot.ids) :
    tree.parent? child = some id := by
  obtain ⟨⟨name, slot⟩, hfind, rfl⟩ := Option.map_eq_some_iff.mp hslot
  have hmem : child ∈ (tree.node id).slotIds :=
    List.mem_flatMap.mpr ⟨_, List.mem_of_find?_eq_some hfind, hchild⟩
  by_cases hid : id < tree.size
  · exact (hbuilt.mem_slotIds_iff hid).mp hmem
  · have hnone : tree.arena[id]? = none := by
      rw [List.getElem?_eq_none_iff, length_arena]
      exact Nat.le_of_not_lt hid
    rw [toNodeDraft_node, hnone] at hmem
    exact absurd hmem List.not_mem_nil

theorem parent?_of_child? (hbuilt : tree.IsBuilt) {field : String}
    (hchild : tree.child? id field = some child) : tree.parent? child = some id := by
  rw [child?] at hchild
  split at hchild
  next only hslot =>
    obtain rfl := Option.some.inj hchild
    exact hbuilt.parent?_of_mem_slot hslot (by simp [Slot.ids])
  next => cases hchild

theorem parent?_of_mem_list (hbuilt : tree.IsBuilt) {field : String}
    (hchild : child ∈ (tree.list id field).ids) : tree.parent? child = some id := by
  rw [list] at hchild
  split at hchild
  next items hslot => exact hbuilt.parent?_of_mem_slot hslot hchild
  next => exact absurd hchild List.not_mem_nil

/-- A child knows the slot that holds it by its name. -/
theorem fieldName?_of_mem_slot (hbuilt : tree.IsBuilt) {field : String} {slot : Slot}
    (hslot : tree.slot? id field = some slot) (hchild : child ∈ slot.ids) :
    tree.fieldName? child = some field := by
  obtain ⟨⟨name, slot⟩, hfind, rfl⟩ := Option.map_eq_some_iff.mp hslot
  have hname : name = field := by simpa using List.find?_some hfind
  subst hname
  obtain ⟨number, hnumber⟩ := List.mem_iff_getElem?.mp (List.mem_of_find?_eq_some hfind)
  rw [← NodeDraft.map_child_slotLinks id number] at hchild
  obtain ⟨link, hlink, rfl⟩ := List.mem_map.mp hchild
  obtain ⟨hparent, hfield, hat⟩ := NodeDraft.mem_slotLinks_iff.mp hlink
  have hplace : tree.place? link.child = some link.place := by
    rw [hbuilt.place?_eq_some_iff, occupant?_eq_fieldAt?, hparent, hfield, fieldAt?, hnumber]
    exact hat
  rw [fieldName?, hplace, Option.bind_eq_bind, Option.bind_some, hparent, hfield, fieldAt?, hnumber]
  rfl

theorem fieldName?_of_child? (hbuilt : tree.IsBuilt) {field : String}
    (hchild : tree.child? id field = some child) : tree.fieldName? child = some field := by
  rw [child?] at hchild
  split at hchild
  next only hslot =>
    obtain rfl := Option.some.inj hchild
    exact hbuilt.fieldName?_of_mem_slot hslot (by simp [Slot.ids])
  next => cases hchild

theorem fieldName?_of_mem_list (hbuilt : tree.IsBuilt) {field : String}
    (hchild : child ∈ (tree.list id field).ids) : tree.fieldName? child = some field := by
  rw [list] at hchild
  split at hchild
  next items hslot => exact hbuilt.fieldName?_of_mem_slot hslot hchild
  next => exact absurd hchild List.not_mem_nil

/-- The children of a node are the nodes whose parent it is. -/
theorem mem_children_iff (hbuilt : tree.IsBuilt) (hid : id < tree.size) :
    child ∈ tree.children id ↔ tree.parent? child = some id := by
  rw [(hbuilt.perm_children hid).mem_iff, hbuilt.mem_slotIds_iff hid]

theorem nodup_children (hbuilt : tree.IsBuilt) (hid : id < tree.size) :
    (tree.children id).Nodup := by
  obtain ⟨draft, hdraft⟩ := exists_getElem?_arena hid
  rw [(hbuilt.perm_children hid).nodup_iff, toNodeDraft_node, hdraft]
  exact hbuilt.nodup_slotIds hdraft

theorem child_lt (hbuilt : tree.IsBuilt) (hid : id < tree.size)
    (hchild : child ∈ tree.children id) : child < tree.size :=
  hbuilt.lt_of_parent? ((hbuilt.mem_children_iff hid).mp hchild)

end IsBuilt

/-- A node is the top node or below it. -/
def Within (tree : Tree) : NodeId → NodeId → Prop :=
  Relation.ReflTransGen fun lower upper => tree.parent? lower = some upper

namespace Within

/-- What is within a node is at least as far from the root. -/
theorem exists_rises (hwithin : tree.Within node top) {steps : Nat}
    (hrises : Ancestry.Rises tree.parent? tree.root steps top) :
    ∃ more, steps ≤ more ∧ Ancestry.Rises tree.parent? tree.root more node := by
  induction hwithin using Relation.ReflTransGen.head_induction_on with
  | refl => exact ⟨steps, Nat.le_refl _, hrises⟩
  | head hparent _ ih =>
      obtain ⟨more, hle, hmore⟩ := ih
      exact ⟨more + 1, Nat.le_succ_of_le hle, .step hparent hmore⟩

/-- Nodes of one depth are not within one another. -/
theorem eq_of_rises (hbuilt : tree.IsBuilt) (hwithin : tree.Within node top) {steps : Nat}
    (hnode : Ancestry.Rises tree.parent? tree.root steps node)
    (htop : Ancestry.Rises tree.parent? tree.root steps top) : node = top := by
  rcases hwithin.cases_head with heq | ⟨parent, hparent, hwithin⟩
  · exact heq
  · obtain ⟨more, hle, hmore⟩ := exists_rises hwithin htop
    have hunique := hnode.unique hbuilt.parent?_root (.step hparent hmore)
    omega

/-- The nodes that one node is within are within one another. -/
theorem total (hfirst : tree.Within node top) (hsecond : tree.Within node other) :
    tree.Within top other ∨ tree.Within other top :=
  hfirst.total_of_right_unique (fun _ _ _ hleft hright => Option.some.inj (hleft.symm.trans hright))
    hsecond

theorem lt_size (hbuilt : tree.IsBuilt) (htop : top < tree.size)
    (hwithin : tree.Within node top) : node < tree.size := by
  rcases hwithin.cases_head with rfl | ⟨parent, hparent, -⟩
  · exact htop
  · exact hbuilt.lt_of_parent? hparent

end Within

namespace IsBuilt

theorem within_root (hbuilt : tree.IsBuilt) (hid : id < tree.size) : tree.Within id tree.root := by
  obtain ⟨steps, -, hrises⟩ := hbuilt.exists_rises hid
  induction hrises with
  | root => exact .refl
  | step hparent _ ih => exact .head hparent (ih (hbuilt.parent?_lt hparent))

/-- A node is not within its children. -/
theorem not_within_child (hbuilt : tree.IsBuilt) (hid : id < tree.size)
    (hchild : child ∈ tree.children id) : ¬ tree.Within id child := by
  intro hwithin
  obtain ⟨steps, -, hrises⟩ := hbuilt.exists_rises hid
  obtain ⟨more, hle, hmore⟩ :=
    hwithin.exists_rises (.step ((hbuilt.mem_children_iff hid).mp hchild) hrises)
  have hunique := hrises.unique hbuilt.parent?_root hmore
  omega

/-- A node is within at most one child of a node. -/
theorem child_unique (hbuilt : tree.IsBuilt) (hid : id < tree.size)
    (hchild : child ∈ tree.children id) (hother : other ∈ tree.children id)
    (hnode : tree.Within node child) (hnode' : tree.Within node other) : child = other := by
  obtain ⟨steps, -, hrises⟩ := hbuilt.exists_rises hid
  have hchild := Ancestry.Rises.step ((hbuilt.mem_children_iff hid).mp hchild) hrises
  have hother := Ancestry.Rises.step ((hbuilt.mem_children_iff hid).mp hother) hrises
  rcases hnode.total hnode' with hwithin | hwithin
  · exact hwithin.eq_of_rises hbuilt hchild hother
  · exact (hwithin.eq_of_rises hbuilt hother hchild).symm

end IsBuilt

end ReactiveLint.Tree
