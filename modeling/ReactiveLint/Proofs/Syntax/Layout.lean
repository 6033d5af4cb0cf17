import ReactiveLint.Proofs.Syntax.Nearest

/-!
# Nodes in the text

A parser gives a node the text from its first part to its last one, so the spans of
nodes nest and those of siblings lie apart.  The exception is a shorthand, which writes
two names once.  An identifier in the text of a node is thus part of the node, or of what
stands for the same text in a shorthand.
-/

namespace ReactiveLint

def Span.IsApartFrom (left right : Span) : Prop :=
  left.stop ≤ right.start ∨ right.stop ≤ left.start

instance (left right : Span) : Decidable (left.IsApartFrom right) :=
  inferInstanceAs (Decidable (_ ∨ _))

theorem Span.contains_iff {outer inner : Span} :
    outer.contains inner = true ↔ outer.start ≤ inner.start ∧ inner.stop ≤ outer.stop := by
  simp [contains]

theorem Span.contains_trans {outer middle inner : Span} (hmiddle : outer.contains middle = true)
    (hinner : middle.contains inner = true) : outer.contains inner = true := by
  rw [contains_iff] at *
  omega

namespace Tree

variable {tree : Tree} {id node whole left right : NodeId}

/-- The fields that a shorthand may write once, by the kind of the node that has them. -/
def shorthandFields : List (Kind × String × String) :=
  [ (.property, "key", "value"), (.exportSpecifier, "exported", "local")
  , (.importSpecifier, "imported", "local") ]

/-- Two children of one node. -/
def AreSiblings (tree : Tree) (left right : NodeId) : Prop :=
  left ≠ right ∧ ∃ whole ∈ tree.parent? left, tree.parent? right = some whole

/-- Two children of a node that may stand for one text. -/
def AreHalves (tree : Tree) (left right : NodeId) : Prop :=
  ∃ whole ∈ tree.parent? left, tree.parent? right = some whole ∧
    ∃ fields ∈ shorthandFields, tree.kind whole = fields.1 ∧
      (tree.fieldName? left = some fields.2.1 ∧ tree.fieldName? right = some fields.2.2 ∨
        tree.fieldName? left = some fields.2.2 ∧ tree.fieldName? right = some fields.2.1)

instance : DecidableRel tree.AreSiblings := fun _ _ =>
  inferInstanceAs (Decidable (_ ∧ ∃ whole ∈ _, _))

instance : DecidableRel tree.AreHalves := fun _ _ =>
  inferInstanceAs (Decidable (∃ whole ∈ _, _))

/-- A node stands in one half of a shorthand, and another one in the other half. -/
def IsBeside (tree : Tree) (id node : NodeId) : Prop :=
  ∃ left right, tree.AreHalves left right ∧ tree.Within id left ∧ tree.Within node right

/-- The spans of a tree are those of its text. -/
structure IsLaidOut (tree : Tree) : Prop where
  nested : ∀ id < tree.size, ∀ whole ∈ tree.parent? id,
    (tree.span whole).contains (tree.span id) = true
  apart : ∀ left < tree.size, ∀ right < tree.size, tree.AreSiblings left right →
    ¬ tree.AreHalves left right → (tree.span left).IsApartFrom (tree.span right)
  written : ∀ id < tree.size, tree.kind id = .identifier →
    (tree.span id).start < (tree.span id).stop
  /-- A type behind an identifier has text of its own. -/
  narrower : ∀ id < tree.size, ∀ whole ∈ tree.parent? id, tree.kind whole = .identifier →
    tree.span id ≠ tree.span whole

theorem AreSiblings.lt_size (hsiblings : tree.AreSiblings left right) (hbuilt : tree.IsBuilt) :
    left < tree.size ∧ right < tree.size := by
  obtain ⟨-, whole, hleft, hright⟩ := hsiblings
  exact ⟨hbuilt.lt_of_parent? hleft, hbuilt.lt_of_parent? hright⟩

theorem isLaidOut_iff : tree.IsLaidOut ↔
    (∀ id < tree.size, ∀ whole ∈ tree.parent? id,
      (tree.span whole).contains (tree.span id) = true) ∧
    (∀ left < tree.size, ∀ right < tree.size, tree.AreSiblings left right →
      ¬ tree.AreHalves left right → (tree.span left).IsApartFrom (tree.span right)) ∧
    (∀ id < tree.size, tree.kind id = .identifier →
      (tree.span id).start < (tree.span id).stop) ∧
    ∀ id < tree.size, ∀ whole ∈ tree.parent? id, tree.kind whole = .identifier →
      tree.span id ≠ tree.span whole :=
  ⟨fun ⟨hnested, hapart, hwritten, hnarrower⟩ => ⟨hnested, hapart, hwritten, hnarrower⟩,
    fun ⟨hnested, hapart, hwritten, hnarrower⟩ => ⟨hnested, hapart, hwritten, hnarrower⟩⟩

instance (tree : Tree) : Decidable tree.IsLaidOut := decidable_of_iff _ isLaidOut_iff.symm

section Built

variable (hbuilt : tree.IsBuilt)

include hbuilt

/-- Two nodes not within one another are within two siblings. -/
theorem exists_siblings (hnode : node < tree.size) (hid : id < tree.size)
    (hout : ¬ tree.Within id node) (hin : ¬ tree.Within node id) :
    ∃ left right, tree.AreSiblings left right ∧ tree.Within id left ∧
      tree.Within node right := by
  have hroot := hbuilt.within_root hnode
  induction hroot using Relation.ReflTransGen.head_induction_on with
  | refl => exact absurd (hbuilt.within_root hid) hout
  | @head lower upper hparent _ ih =>
      by_cases hup : tree.Within id upper
      · rcases hup.cases_tail with rfl | ⟨left, hleft, hwhole⟩
        · exact absurd (.single hparent) hin
        · have hne : left ≠ lower := fun heq => hout (heq ▸ hleft)
          exact ⟨left, lower, ⟨hne, upper, hwhole, hparent⟩, hleft, .refl⟩
      · obtain ⟨left, right, hsiblings, hleft, hright⟩ :=
          ih (hbuilt.parent?_lt hparent) hup fun hdown => hin (hdown.head hparent)
        exact ⟨left, right, hsiblings, hleft, hright.head hparent⟩

namespace IsLaidOut

variable (hlaid : tree.IsLaidOut)

include hlaid

theorem contains_of_within (hwithin : tree.Within id node) :
    (tree.span node).contains (tree.span id) = true := by
  induction hwithin using Relation.ReflTransGen.head_induction_on with
  | refl => exact (tree.span node).contains_self
  | head hparent _ ih =>
      exact Span.contains_trans ih (hlaid.nested _ (hbuilt.lt_of_parent? hparent) _ hparent)

/-- What is below an identifier does not have its text. -/
theorem not_contains_of_above (hkind : tree.kind id = .identifier)
    (habove : tree.Above node id) : (tree.span node).contains (tree.span id) = false := by
  obtain ⟨child, hwithin, hparent⟩ := Relation.TransGen.tail'_iff.mp habove
  have hchild := hbuilt.lt_of_parent? hparent
  have hlower := contains_of_within hbuilt hlaid hwithin
  have hupper := hlaid.nested child hchild id hparent
  have hne := hlaid.narrower child hchild id hparent hkind
  rw [Bool.eq_false_iff]
  intro hcontains
  rw [Span.contains_iff] at hlower hupper hcontains
  apply hne
  rw [Span.mk.injEq]
  omega

/-- An identifier in the text of a node is within the node or beside it in a shorthand. -/
theorem within_or_isBeside (hnode : node < tree.size) (hid : id < tree.size)
    (hkind : tree.kind id = .identifier)
    (hcontains : (tree.span node).contains (tree.span id) = true) :
    tree.Within id node ∨ tree.IsBeside id node := by
  by_cases hout : tree.Within id node
  · exact .inl hout
  have hin : ¬ tree.Within node id := by
    intro hin
    rcases Relation.reflTransGen_iff_eq_or_transGen.mp hin with rfl | habove
    · exact hout .refl
    · exact absurd hcontains (by simp [not_contains_of_above hbuilt hlaid hkind habove])
  obtain ⟨left, right, hsiblings, hleft, hright⟩ :=
    exists_siblings hbuilt hnode hid hout hin
  refine .inr ⟨left, right, ?_, hleft, hright⟩
  -- otherwise the written identifier would stand in two spans that lie apart
  by_contra hhalves
  obtain ⟨hleft_size, hright_size⟩ := hsiblings.lt_size hbuilt
  have hapart := hlaid.apart left hleft_size right hright_size hsiblings hhalves
  have hinner := contains_of_within hbuilt hlaid hleft
  have houter := contains_of_within hbuilt hlaid hright
  have hwritten := hlaid.written id hid hkind
  rw [Span.IsApartFrom] at hapart
  rw [Span.contains_iff] at hcontains hinner houter
  omega

end IsLaidOut

end Built

end Tree

end ReactiveLint
