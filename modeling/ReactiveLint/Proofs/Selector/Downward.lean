import ReactiveLint.Proofs.Syntax.Nearest
import ReactiveLint.Selector.Parser
import ReactiveLint.Selector.Printer

/-!
# Upward and downward matching

A combinator climbs from a node to those above it, and a `:has` searches those below.  Where
what is searched for does not look at the scope, the two ways find the same pairs of nodes.
-/

namespace ReactiveLint

namespace Selector

variable {tree other : Tree} {scope scope' : Option NodeId} {id id' : NodeId}
  {left right selector : Selector} {parts options : List Selector}

/-! ## Lists of selectors -/

theorem allHold_congr
    (hparts : ∀ part ∈ parts, part.holds tree scope id = part.holds other scope' id') :
    allHold tree scope id parts = allHold other scope' id' parts := by
  induction parts with
  | nil => rfl
  | cons part parts ih =>
      rw [List.forall_mem_cons] at hparts
      rw [allHold, allHold, hparts.1, ih hparts.2]

theorem someHolds_congr
    (hoptions : ∀ option ∈ options, option.holds tree scope id = option.holds other scope' id') :
    someHolds tree scope id options = someHolds other scope' id' options := by
  induction options with
  | nil => rfl
  | cons option options ih =>
      rw [List.forall_mem_cons] at hoptions
      rw [someHolds, someHolds, hoptions.1, ih hoptions.2]

@[simp]
theorem allHold_nil : allHold tree scope id [] = true := by rw [allHold]

@[simp]
theorem allHold_cons : allHold tree scope id (selector :: parts) =
    (selector.holds tree scope id && allHold tree scope id parts) := by rw [allHold]

@[simp]
theorem someHolds_nil : someHolds tree scope id [] = false := by rw [someHolds]

@[simp]
theorem someHolds_cons : someHolds tree scope id (selector :: options) =
    (selector.holds tree scope id || someHolds tree scope id options) := by rw [someHolds]

/-! ## Selectors without a scope -/

/-- Combinators and `:scope` occur within a `:has` only. -/
inductive IsScopeless : Selector → Prop
  | wildcard : IsScopeless .wildcard
  | kind (wanted : Kind) : IsScopeless (.kind wanted)
  | field (path : List String) : IsScopeless (.field path)
  | attr (test : AttributeTest) : IsScopeless (.attr test)
  | compound {parts : List Selector} (hparts : ∀ part ∈ parts, IsScopeless part) :
      IsScopeless (.compound parts)
  | not {options : List Selector} (hoptions : ∀ option ∈ options, IsScopeless option) :
      IsScopeless (.not options)
  | any {options : List Selector} (hoptions : ∀ option ∈ options, IsScopeless option) :
      IsScopeless (.any options)
  | has (options : List Selector) : IsScopeless (.has options)
  | nthChild (position : Nat) : IsScopeless (.nthChild position)
  | nthLastChild (position : Nat) : IsScopeless (.nthLastChild position)

/-- A selector without a scope matches the same nodes within any scope. -/
theorem IsScopeless.holds_eq (hscopeless : selector.IsScopeless) (scope : Option NodeId)
    (id : NodeId) : selector.holds tree scope id = selector.isMatch tree id := by
  rw [isMatch]
  induction hscopeless with
  | wildcard | kind | field | attr | has | nthChild | nthLastChild => simp only [holds]
  | compound _ ih => rw [holds, holds, allHold_congr ih]
  | not _ ih => rw [holds, holds, someHolds_congr ih]
  | any _ ih => rw [holds, holds, someHolds_congr ih]

/-! ## Combinators and searches -/

theorem isMatch_child_iff : (combine .child left right).isMatch tree id = true ↔
    right.isMatch tree id = true ∧
      ∃ parent, tree.parent? id = some parent ∧ left.isMatch tree parent = true := by
  simp only [isMatch, holds, Tree.parentInScope?, reduceCtorEq, if_false, Bool.and_eq_true,
    Option.any_eq_true]

theorem isMatch_descendant_iff (hbuilt : tree.IsBuilt) (hid : id < tree.size) :
    (combine .descendant left right).isMatch tree id = true ↔
      right.isMatch tree id = true ∧
        ∃ above, tree.Above id above ∧ left.isMatch tree above = true := by
  simp only [isMatch, holds, Tree.ancestorsInScope, reduceCtorEq, if_false, Bool.and_eq_true,
    List.any_eq_true, hbuilt.mem_ancestors_iff hid]

theorem isMatch_has_iff (hbuilt : tree.IsBuilt) (hid : id < tree.size) :
    (has options).isMatch tree id = true ↔
      ∃ below, tree.Above below id ∧ someHolds tree (some id) below options = true := by
  simp only [isMatch, holds, List.any_eq_true, hbuilt.mem_descendants_iff hid]

theorem isMatch_pair : (compound [left, right]).isMatch tree id =
    (left.isMatch tree id && right.isMatch tree id) := by
  simp only [isMatch, holds, allHold_cons, allHold_nil, Bool.and_true]

/-- A selector for a child of the scope holds where its parent is the scope. -/
theorem holds_child_scope_iff (hscopeless : right.IsScopeless) :
    (combine .child .scope right).holds tree (some id) id' = true ↔
      id ≠ id' ∧ tree.parent? id' = some id ∧ right.isMatch tree id' = true := by
  rw [holds, hscopeless.holds_eq, Bool.and_eq_true, Option.any_eq_true, Tree.parentInScope?]
  constructor
  · rintro ⟨hright, parent, hparent, hscope⟩
    rw [holds, beq_iff_eq, Option.some_inj] at hscope
    rw [Option.ite_none_left_eq_some, Option.some_inj] at hparent
    exact ⟨hparent.1, hscope ▸ hparent.2, hright⟩
  · rintro ⟨hne, hparent, hright⟩
    refine ⟨hright, id, ?_, by rw [holds, beq_self_eq_true]⟩
    rw [if_neg (by simpa using hne), hparent]

/-- What a node has below it is what has the node above it: a search for children is a child
combinator asked of them, a search for any node below finds exactly those, and the pairs that a
descendant combinator finds from below are found from above. -/
theorem isMatch_has_iff_combine {drafts : List NodeDraft} {root : NodeId} {source : String}
    (hbuild : Tree.build? drafts root source = .ok tree) (subject : Selector) {sought : Selector}
    (hscopeless : sought.IsScopeless) :
    (∀ id < tree.size,
      ((compound [subject, has [combine .child .scope sought]]).isMatch tree id = true ↔
        subject.isMatch tree id = true ∧
          ∃ child ∈ tree.children id, (combine .child subject sought).isMatch tree child = true)) ∧
    (∀ id < tree.size,
      ((compound [subject, has [sought]]).isMatch tree id = true ↔
        subject.isMatch tree id = true ∧
          ∃ below, tree.Above below id ∧ sought.isMatch tree below = true)) ∧
    ((∃ id < tree.size, (combine .descendant subject sought).isMatch tree id = true) ↔
      ∃ id < tree.size, (compound [subject, has [sought]]).isMatch tree id = true) := by
  have hbuilt := Tree.isBuilt_of_build? hbuild
  have hbelow : ∀ id < tree.size, ((compound [subject, has [sought]]).isMatch tree id = true ↔
      subject.isMatch tree id = true ∧
        ∃ below, tree.Above below id ∧ sought.isMatch tree below = true) := by
    intro id hid
    simp only [isMatch_pair, Bool.and_eq_true, isMatch_has_iff hbuilt hid, someHolds_cons,
      someHolds_nil, Bool.or_false, hscopeless.holds_eq]
  refine ⟨fun id hid => ?_, hbelow, ?_⟩
  · simp only [isMatch_pair, Bool.and_eq_true, isMatch_has_iff hbuilt hid, someHolds_cons,
      someHolds_nil, Bool.or_false, holds_child_scope_iff hscopeless, isMatch_child_iff,
      hbuilt.mem_children_iff hid]
    constructor
    · rintro ⟨hsubject, child, -, -, hparent, hsought⟩
      exact ⟨hsubject, child, hparent, hsought, id, hparent, hsubject⟩
    · rintro ⟨hsubject, child, hparent, hsought, -⟩
      refine ⟨hsubject, child, .single hparent, ?_, hparent, hsought⟩
      rintro rfl
      exact hbuilt.not_above_self (.single hparent)
  · constructor
    · rintro ⟨below, hlt, hmatch⟩
      obtain ⟨hsought, id, habove, hsubject⟩ := (isMatch_descendant_iff hbuilt hlt).mp hmatch
      have hid := habove.lt_size hbuilt
      exact ⟨id, hid, (hbelow id hid).mpr ⟨hsubject, below, habove, hsought⟩⟩
    · rintro ⟨id, hid, hmatch⟩
      obtain ⟨hsubject, below, habove, hsought⟩ := (hbelow id hid).mp hmatch
      obtain ⟨parent, hparent, -⟩ := Relation.TransGen.head'_iff.mp habove
      have hlt := hbuilt.lt_of_parent? hparent
      exact ⟨below, hlt, (isMatch_descendant_iff hbuilt hlt).mpr ⟨hsought, id, habove, hsubject⟩⟩

/-- A call has an argument below it that has nothing below it. -/
theorem isMatch_callArena_leaf :
    ∃ tree, Tree.build? Tree.callArena 2 "f(, x)" = .ok tree ∧
      (compound [kind .identifier, not [has [combine .child .scope wildcard]]]).IsScopeless ∧
      (compound [kind .callExpression, has [combine .child .scope
        (compound [kind .identifier, not [has [combine .child .scope wildcard]]])]]).isMatch
          tree 2 = true := by
  have hbuild : Tree.build? Tree.callArena 2 "f(, x)" = .ok _ := rfl
  have hscopeless :
      (compound [kind .identifier, not [has [combine .child .scope wildcard]]]).IsScopeless := by
    refine .compound (List.forall_mem_cons.mpr ⟨.kind _, List.forall_mem_singleton.mpr ?_⟩)
    exact .not (List.forall_mem_singleton.mpr (.has _))
  refine ⟨_, hbuild, hscopeless, ?_⟩
  refine ((isMatch_has_iff_combine hbuild (kind .callExpression) hscopeless).1 2 (by decide)).mpr ?_
  exact ⟨by decide, 0, by decide, by decide⟩

-- A combinator at the start of a `:has` relates to the scope.
example : (parse "CallExpression:has(> Identifier)").map display =
    .ok "CallExpression:has(:scope > Identifier)" := by
  decide +kernel

end Selector

end ReactiveLint
