import ReactiveLint.Proofs.Syntax.Pairing

/-!
# The same places of two subtrees

Two nodes face each other when the same slot positions lead to them from the top nodes of two
subtrees.  When the subtrees are equal, every node of the one faces a partner in the other, and
so do the nodes above and before it that lie in the subtree.
-/

namespace ReactiveLint.Tree

variable {left right : Tree} {pair : NodeId → NodeId → Prop} {top top' id id' : NodeId}

/-- The same places lead from one node to another in two trees. -/
inductive Facing (left right : Tree) (top top' : NodeId) : NodeId → NodeId → Prop
  | top : Facing left right top top' top top'
  | step {id id' parent parent' : NodeId} {field : Nat} {index : Option Nat}
      (hfacing : Facing left right top top' parent parent')
      (hplace : left.place? id = some ⟨parent, field, index⟩)
      (hplace' : right.place? id' = some ⟨parent', field, index⟩) :
      Facing left right top top' id id'

namespace Facing

theorem symm (hfacing : Facing left right top top' id id') :
    Facing right left top' top id' id := by
  induction hfacing with
  | top => exact .top
  | step _ hplace hplace' ih => exact .step ih hplace' hplace

theorem within (hfacing : Facing left right top top' id id') : left.Within id top := by
  induction hfacing with
  | top => exact .refl
  | step _ hplace _ ih => exact .head (by rw [parent?, hplace, Option.map_some]) ih

theorem lt_size (hleft : left.IsBuilt) (htop : top < left.size)
    (hfacing : Facing left right top top' id id') : id < left.size :=
  Within.lt_size hleft htop hfacing.within

/-- A node with a place in the subtree is not its top node. -/
theorem ne_top (hleft : left.IsBuilt) {parent parent' : NodeId}
    (hfacing : Facing left right top top' parent parent')
    (hparent : left.parent? id = some parent) : id ≠ top := by
  rintro rfl
  exact hleft.not_above_self (.head' hparent hfacing.within)

theorem eq_top_iff (hleft : left.IsBuilt) (hright : right.IsBuilt)
    (hfacing : Facing left right top top' id id') : id = top ↔ id' = top' := by
  cases hfacing with
  | top => simp
  | step hfacing hplace hplace' =>
      have hne := hfacing.ne_top hleft (by rw [parent?, hplace, Option.map_some])
      have hne' := hfacing.symm.ne_top hright (by rw [parent?, hplace', Option.map_some])
      exact iff_of_false hne hne'

/-- Below the top nodes, parents face each other and hold their nodes at the same place. -/
theorem exists_parents (hne : id ≠ top) (hfacing : Facing left right top top' id id') :
    ∃ parent parent' field index, Facing left right top top' parent parent' ∧
      left.place? id = some ⟨parent, field, index⟩ ∧
      right.place? id' = some ⟨parent', field, index⟩ := by
  cases hfacing with
  | top => exact absurd rfl hne
  | step hfacing hplace hplace' => exact ⟨_, _, _, _, hfacing, hplace, hplace'⟩

section Pairing

variable (hleft : left.IsBuilt) (hright : right.IsBuilt) (hpairing : left.IsPairing right pair)
  (htop : pair top top')

include hleft hright hpairing htop

theorem partners (hfacing : Facing left right top top' id id') : pair id id' := by
  induction hfacing with
  | top => exact htop
  | @step id id' parent parent' field index _ hplace hplace' ih =>
      have hrel := hpairing.rel_occupant? ih field index
      rw [hleft.place?_eq_some_iff.mp hplace, hright.place?_eq_some_iff.mp hplace'] at hrel
      cases hrel with
      | some hpair => exact hpair

/-- What a place holds faces what the same place of the partner holds. -/
theorem rel_occupant? {parent parent' : NodeId}
    (hfacing : Facing left right top top' parent parent') (field : Nat) (index : Option Nat) :
    Option.Rel (fun id id' => id ≠ top ∧ Facing left right top top' id id')
      (occupant? left.arena ⟨parent, field, index⟩)
      (occupant? right.arena ⟨parent', field, index⟩) := by
  have hrel := hpairing.rel_occupant? (hfacing.partners hleft hright hpairing htop) field index
  generalize hplace : occupant? left.arena ⟨parent, field, index⟩ = item,
    hplace' : occupant? right.arena ⟨parent', field, index⟩ = item' at hrel ⊢
  cases hrel with
  | none => exact .none
  | some =>
      rw [← hleft.place?_eq_some_iff] at hplace
      rw [← hright.place?_eq_some_iff] at hplace'
      have hparent := congrArg (Option.map Place.parent) hplace
      exact .some ⟨hfacing.ne_top hleft hparent, .step hfacing hplace hplace'⟩

/-- Every node below the top node faces a node below the other one. -/
theorem exists_of_above (habove : left.Above id top) :
    ∃ id', right.Above id' top' ∧ Facing left right top top' id id' := by
  have hchild : ∀ {id parent parent'}, left.parent? id = some parent →
      Facing left right top top' parent parent' →
      ∃ id', right.parent? id' = some parent' ∧ Facing left right top top' id id' := by
    intro id parent parent' hparent hfacing
    obtain ⟨⟨_, field, index⟩, hplace, rfl⟩ := Option.map_eq_some_iff.mp hparent
    have hrel := hfacing.rel_occupant? hleft hright hpairing htop field index
    rw [hleft.place?_eq_some_iff.mp hplace] at hrel
    generalize hplace' : occupant? right.arena ⟨parent', field, index⟩ = item' at hrel
    cases hrel with
    | some hid =>
        have hplace' := hright.place?_eq_some_iff.mpr hplace'
        exact ⟨_, congrArg (Option.map Place.parent) hplace', hid.2⟩
  induction habove using Relation.TransGen.head_induction_on with
  | single hparent =>
      obtain ⟨id', hparent', hfacing⟩ := hchild hparent .top
      exact ⟨id', .single hparent', hfacing⟩
  | head hparent _ ih =>
      obtain ⟨mid', habove', hmid⟩ := ih
      obtain ⟨id', hparent', hfacing⟩ := hchild hparent hmid
      exact ⟨id', .head hparent' habove', hfacing⟩

/-- What is asked of all facing nodes below two top nodes alike has one answer. -/
theorem exists_above_iff {test test' : NodeId → Prop}
    (htest : ∀ id id', id ≠ top → Facing left right top top' id id' → (test id ↔ test' id')) :
    (∃ id, left.Above id top ∧ test id) ↔ ∃ id', right.Above id' top' ∧ test' id' := by
  constructor
  · rintro ⟨id, habove, hid⟩
    obtain ⟨id', habove', hfacing⟩ := exists_of_above hleft hright hpairing htop habove
    have hne : id ≠ top := fun heq => hleft.not_above_self (heq ▸ habove)
    exact ⟨id', habove', (htest id id' hne hfacing).mp hid⟩
  · rintro ⟨id', habove', hid'⟩
    obtain ⟨id, habove, hfacing⟩ :=
      exists_of_above hright hleft hpairing.symm (show flip pair top' top from htop) habove'
    have hne : id ≠ top := fun heq => hleft.not_above_self (heq ▸ habove)
    exact ⟨id, habove, (htest id id' hne hfacing.symm).mpr hid'⟩

/-- The nodes before a node in its list slot face those before the other node. -/
theorem forall₂_precedingSiblings (hne : id ≠ top)
    (hfacing : Facing left right top top' id id') :
    List.Forall₂ (fun before before' =>
        before ≠ top ∧ Facing left right top top' before before')
      (left.precedingSiblings id).ids (right.precedingSiblings id').ids := by
  obtain ⟨parent, parent', field, index, hparents, hplace, hplace'⟩ := hfacing.exists_parents hne
  have hfield := hpairing.rel_fieldAt? (hparents.partners hleft hright hpairing htop) field
  have hoccupants := hparents.rel_occupant? hleft hright hpairing htop field
  simp only [occupant?_eq_fieldAt?] at hoccupants
  rw [precedingSiblings, precedingSiblings, hplace, hplace']
  cases index with
  | none => exact .nil
  | some index =>
      simp only
      generalize left.fieldAt? parent field = slot, right.fieldAt? parent' field = slot'
        at hfield hoccupants
      cases hfield with
      | none => exact .nil
      | @some field field' halike =>
          obtain ⟨name, slot⟩ := field
          obtain ⟨name', slot'⟩ := field'
          cases halike.2 with
          | node | value => exact .nil
          | @list items items' hitems =>
              refine forall₂_ids (List.forall₂_take index
                (List.forall₂_iff_get.mpr ⟨hitems.length_eq, ?_⟩))
              intro position hlt hlt'
              have hoccupant := hoccupants (some position)
              simp only [Option.bind_some, Slot.at?, List.getElem?_eq_getElem hlt,
                List.getElem?_eq_getElem hlt', Option.join_some] at hoccupant
              exact hoccupant

end Pairing

end Facing

/-! ## Upward within a scope -/

theorem ancestorsInScope_of_parent? {tree : Tree} {scope id parent : NodeId} (hbuilt : tree.IsBuilt)
    (hne : id ≠ scope) (hparent : tree.parent? id = some parent) :
    tree.ancestorsInScope (some scope) id =
      parent :: tree.ancestorsInScope (some scope) parent := by
  rw [ancestorsInScope, if_neg (by simpa using hne.symm), ancestorsInScope,
    hbuilt.ancestors_of_parent? hparent]
  by_cases hscope : scope = parent
  · simp [hscope]
  · simp [hscope, Ne.symm hscope]

namespace Facing

variable (hleft : left.IsBuilt) (hright : right.IsBuilt)

include hleft hright

theorem rel_parentInScope? (hfacing : Facing left right top top' id id') :
    Option.Rel (Facing left right top top') (left.parentInScope? (some top) id)
      (right.parentInScope? (some top') id') := by
  rw [parentInScope?, parentInScope?]
  by_cases hne : id = top
  · rw [if_pos (by rw [hne]), if_pos (by rw [(hfacing.eq_top_iff hleft hright).mp hne])]
    exact .none
  · obtain ⟨parent, parent', field, index, hparents, hplace, hplace'⟩ := hfacing.exists_parents hne
    have hne' : id' ≠ top' := fun heq => hne ((hfacing.eq_top_iff hleft hright).mpr heq)
    rw [if_neg (by simpa using Ne.symm hne), if_neg (by simpa using Ne.symm hne'), parent?, parent?,
      hplace, hplace']
    exact .some hparents

theorem forall₂_ancestorsInScope (hfacing : Facing left right top top' id id') :
    List.Forall₂ (Facing left right top top') (left.ancestorsInScope (some top) id)
      (right.ancestorsInScope (some top') id') := by
  induction hfacing with
  | top =>
      rw [ancestorsInScope, ancestorsInScope, if_pos rfl, if_pos rfl]
      exact .nil
  | step hparents hplace hplace' ih =>
      have hparent := congrArg (Option.map Place.parent) hplace
      have hparent' := congrArg (Option.map Place.parent) hplace'
      rw [ancestorsInScope_of_parent? hleft (hparents.ne_top hleft hparent) hparent,
        ancestorsInScope_of_parent? hright (hparents.symm.ne_top hright hparent') hparent']
      exact .cons hparents ih

end Facing

end ReactiveLint.Tree
