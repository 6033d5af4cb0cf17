import ReactiveLint.Proofs.Selector.Equality

/-!
# Attributes of children

A path through the slots of a tree goes down to a child first and asks the rest of it, so the
tests of `[callee.name='f']` are tests of the name of the callee.
-/

namespace ReactiveLint

/-- A segment of a path that leads through slots only: it is no `type`, no `length` and no
position in a list. -/
def IsSlotName (segment : String) : Prop :=
  segment ≠ "type" ∧ segment ≠ "length" ∧ listPosition? segment = none

instance : DecidablePred IsSlotName := fun _ => inferInstanceAs (Decidable (_ ∧ _))

/-- What a path reaches that ends at a slot. -/
def Slot.attribute : Slot → Attribute
  | .node child => .node child
  | .list items => .list items
  | .value scalar => .value scalar

variable {tree : Tree} {id : NodeId} {first second field : String} {rest : List String}
  {value : TestValue}

namespace Tree

theorem path?_singleton (hfield : IsSlotName field) :
    tree.path? id [field] = (tree.slot? id field).map Slot.attribute := by
  simp only [path?, List.foldlM_cons, List.foldlM_nil, Attribute.step?, hfield.1, if_false]
  obtain _ | _ | _ | _ := tree.slot? id field <;> rfl

/-- The first step of a longer path leads to a child. -/
theorem path?_cons (hfirst : IsSlotName first) (hsecond : IsSlotName second) :
    tree.path? id (first :: second :: rest) =
      (tree.child? id first).bind fun child => tree.path? child (second :: rest) := by
  obtain ⟨hfirst, -, -⟩ := hfirst
  obtain ⟨htype, hlength, hposition⟩ := hsecond
  rw [child?]
  cases hslot : tree.slot? id first with
  | none => simp [path?, Attribute.step?, hfirst, hslot]
  | some slot =>
      cases slot with
      | node child => simp [path?, Attribute.step?, hfirst, hslot]
      | list items => simp [path?, Attribute.step?, hfirst, hslot, hlength, hposition]
      | value scalar =>
          cases scalar <;> simp [path?, Attribute.step?, hfirst, hslot, hlength]

end Tree

namespace Selector

theorem isMatch_compound_cons {part : Selector} {parts : List Selector} :
    (compound (part :: parts)).isMatch tree id =
      (part.isMatch tree id && (compound parts).isMatch tree id) := by
  simp only [isMatch, holds, allHold]

theorem isMatch_compound_nil : (compound []).isMatch tree id = true := by
  simp only [isMatch, holds, allHold]

theorem isMatch_kind {kind : Kind} : (Selector.kind kind).isMatch tree id = tree.is id kind := by
  simp only [isMatch, holds, Tree.is]

theorem isMatch_field_singleton :
    (Selector.field [field]).isMatch tree id = (tree.fieldName? id == some field) := by
  simp [isMatch, holds, Tree.sitsIn]

/-- A test of a longer path is a test of a child. -/
theorem isMatch_equals_cons (hfirst : IsSlotName first) (hsecond : IsSlotName second) :
    (equals (first :: second :: rest) value).isMatch tree id =
      (tree.child? id first).any fun child => (equals (second :: rest) value).isMatch tree child := by
  simp only [equals, isMatch, holds, AttributeTest.holds, Tree.path?_cons hfirst hsecond]
  cases tree.child? id first with
  | none => cases value <;> rfl
  | some child => rfl

/-- A text is compared with the text form of a scalar. -/
theorem isMatch_equals_literal (hfield : IsSlotName field) (text : String) :
    (equals [field] (.literal text)).isMatch tree id =
      (tree.value? id field).any fun scalar => scalar.toText == text := by
  simp only [equals, isMatch, holds, AttributeTest.holds, Tree.path?_singleton hfield, Tree.value?,
    AttributeTest.reachedText?, TestValue.text]
  obtain _ | _ | _ | _ := tree.slot? id field <;> rfl

/-- A pattern is asked of a scalar that is a text. -/
theorem isMatch_equals_pattern (hfield : IsSlotName field) (source : String) (pattern : Pattern) :
    (equals [field] (.pattern source pattern)).isMatch tree id =
      (tree.str? id field).any pattern.isMatch := by
  simp only [equals, isMatch, holds, AttributeTest.holds, Tree.path?_singleton hfield, Tree.str?,
    Tree.value?]
  obtain _ | _ | _ | (_ | _ | _ | _) := tree.slot? id field <;> rfl

end Selector

end ReactiveLint
