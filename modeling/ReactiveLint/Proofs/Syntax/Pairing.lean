import Mathlib.Data.List.Forall2
import Mathlib.Data.Option.Basic
import ReactiveLint.Proofs.Syntax.Nearest

/-!
# Equal subtrees

Two subtrees are equal when their nodes can be paired such that partners have the same kind and
hold the same in the same slots.  Attributes do not tell partners apart.  The nodes that sit at
the same places of two equal subtrees are partners; going up, down or aside within the subtrees
leads from such nodes to such nodes.
-/

namespace ReactiveLint

/-! ## Related lists and options -/

section Related

variable {A B : Type*} {rel : A → B → Prop} {items : List A} {items' : List B}

theorem rel_getElem? (hitems : List.Forall₂ rel items items') (index : Nat) :
    Option.Rel rel items[index]? items'[index]? := by
  induction hitems generalizing index with
  | nil => exact .none
  | cons hitem _ ih =>
      cases index with
      | zero => exact .some hitem
      | succ index => simpa using ih index

theorem rel_getLast? (hitems : List.Forall₂ rel items items') :
    Option.Rel rel items.getLast? items'.getLast? := by
  rw [List.getLast?_eq_getElem?, List.getLast?_eq_getElem?, hitems.length_eq]
  exact rel_getElem? hitems _

theorem any_congr_of_forall₂ {test : A → Bool} {test' : B → Bool}
    (hitems : List.Forall₂ rel items items') (htest : ∀ a b, rel a b → test a = test' b) :
    items.any test = items'.any test' := by
  induction hitems with
  | nil => rfl
  | cons hitem _ ih => rw [List.any_cons, List.any_cons, htest _ _ hitem, ih]

theorem any_congr_of_rel {test : A → Bool} {test' : B → Bool} {item : Option A}
    {item' : Option B} (hitem : Option.Rel rel item item')
    (htest : ∀ a b, rel a b → test a = test' b) : item.any test = item'.any test' := by
  cases hitem with
  | none => rfl
  | some hrel => exact htest _ _ hrel

theorem rel_flip {item : Option A} {item' : Option B} (hitem : Option.Rel rel item item') :
    Option.Rel (flip rel) item' item := by
  cases hitem with
  | none => exact .none
  | some hrel => exact .some hrel

theorem rel_join {item : Option (Option A)} {item' : Option (Option B)}
    (hitem : Option.Rel (Option.Rel rel) item item') : Option.Rel rel item.join item'.join := by
  cases hitem with
  | none => exact .none
  | some hrel => exact hrel

theorem rel_map {C D : Type*} {rel' : C → D → Prop} {item : Option A} {item' : Option B}
    {f : A → C} {f' : B → D} (hitem : Option.Rel rel item item')
    (hf : ∀ a b, rel a b → rel' (f a) (f' b)) : Option.Rel rel' (item.map f) (item'.map f') := by
  cases hitem with
  | none => exact .none
  | some hrel => exact .some (hf _ _ hrel)

theorem rel_bind {C D : Type*} {rel' : C → D → Prop} {item : Option A} {item' : Option B}
    {next : A → Option C} {next' : B → Option D} (hitem : Option.Rel rel item item')
    (hnext : ∀ a b, rel a b → Option.Rel rel' (next a) (next' b)) :
    Option.Rel rel' (item.bind next) (item'.bind next') := by
  cases hitem with
  | none => exact .none
  | some hrel => exact hnext _ _ hrel

theorem forall₂_ids {pair : NodeId → NodeId → Prop} {nodes nodes' : NodeList}
    (hnodes : List.Forall₂ (Option.Rel pair) nodes nodes') :
    List.Forall₂ pair nodes.ids nodes'.ids := by
  induction hnodes with
  | nil => exact .nil
  | cons hnode _ ih =>
      cases hnode with
      | none => exact ih
      | some hpair => exact .cons hpair ih

end Related

/-! ## Pairings -/

variable {pair : NodeId → NodeId → Prop}

/-- Slots that hold the same, where the nodes of the one are partners of those of the other. -/
inductive Slot.Alike (pair : NodeId → NodeId → Prop) : Slot → Slot → Prop
  | node {id id' : NodeId} (hpair : pair id id') : Alike pair (.node id) (.node id')
  | list {items items' : NodeList} (hitems : List.Forall₂ (Option.Rel pair) items items') :
      Alike pair (.list items) (.list items')
  | value (scalar : Scalar) : Alike pair (.value scalar) (.value scalar)

theorem Slot.Alike.symm {slot slot' : Slot} (halike : slot.Alike pair slot') :
    slot'.Alike (flip pair) slot := by
  cases halike with
  | node hpair => exact .node hpair
  | list hitems => exact .list (hitems.imp fun _ _ hitem => rel_flip hitem).flip
  | value scalar => exact .value scalar

theorem Slot.Alike.at? {slot slot' : Slot} (halike : slot.Alike pair slot') (index : Option Nat) :
    Option.Rel pair (slot.at? index) (slot'.at? index) := by
  cases halike with
  | node hpair =>
      cases index with
      | none => exact .some hpair
      | some index => exact .none
  | list hitems =>
      cases index with
      | none => exact .none
      | some index => exact rel_join (rel_getElem? hitems index)
  | value => exact .none

namespace Tree

/-- Partners have the same kind and the same slots under the same names. -/
structure IsPairing (left right : Tree) (pair : NodeId → NodeId → Prop) : Prop where
  kind_eq : ∀ {id id' : NodeId}, pair id id' → left.kind id = right.kind id'
  fields : ∀ {id id' : NodeId}, pair id id' →
    List.Forall₂ (fun field field' => field.1 = field'.1 ∧ field.2.Alike pair field'.2)
      (left.fields id) (right.fields id')

theorem IsPairing.symm {left right : Tree} (hpairing : left.IsPairing right pair) :
    right.IsPairing left (flip pair) where
  kind_eq hpair := (hpairing.kind_eq hpair).symm
  fields hpair := List.Forall₂.flip
    ((hpairing.fields hpair).imp fun _ _ hfield => ⟨hfield.1.symm, hfield.2.symm⟩)

/-- The subtrees of two nodes are equal: there is a pairing with these two as partners.  The order
of the children, which follows the source, is not asked for, as no search depends on it. -/
def SameSubtree (left : Tree) (top : NodeId) (right : Tree) (top' : NodeId) : Prop :=
  ∃ pair, left.IsPairing right pair ∧ pair top top'

variable {left right : Tree} {top top' id id' parent parent' : NodeId}

namespace IsPairing

variable (hpairing : left.IsPairing right pair)

include hpairing

theorem rel_fieldAt? (hpair : pair id id') (field : Nat) :
    Option.Rel (fun field field' => field.1 = field'.1 ∧ field.2.Alike pair field'.2)
      (left.fieldAt? id field) (right.fieldAt? id' field) :=
  rel_getElem? (hpairing.fields hpair) field

/-- What sits at a place of a node is the partner of what sits at this place of its partner. -/
theorem rel_occupant? (hpair : pair id id') (field : Nat) (index : Option Nat) :
    Option.Rel pair (occupant? left.arena ⟨id, field, index⟩)
      (occupant? right.arena ⟨id', field, index⟩) := by
  rw [occupant?_eq_fieldAt?, occupant?_eq_fieldAt?]
  exact rel_bind (hpairing.rel_fieldAt? hpair field) fun _ _ halike => halike.2.at? index

theorem rel_slot? (hpair : pair id id') (name : String) :
    Option.Rel (Slot.Alike pair) (left.slot? id name) (right.slot? id' name) := by
  rw [slot?, slot?]
  have hfields := hpairing.fields hpair
  generalize left.fields id = fields, right.fields id' = fields' at hfields
  induction hfields with
  | nil => exact .none
  | @cons field field' _ _ hfield _ ih =>
      rw [List.find?_cons, List.find?_cons, ← hfield.1]
      cases field.1 == name with
      | true => exact .some hfield.2
      | false => exact ih

end IsPairing

end Tree

/-! ## Attributes -/

/-- Attributes that are the same but for their nodes, which are partners. -/
inductive Attribute.Alike (pair : NodeId → NodeId → Prop) : Attribute → Attribute → Prop
  | node {id id' : NodeId} (hpair : pair id id') : Alike pair (.node id) (.node id')
  | list {items items' : NodeList} (hitems : List.Forall₂ (Option.Rel pair) items items') :
      Alike pair (.list items) (.list items')
  | value (scalar : Scalar) : Alike pair (.value scalar) (.value scalar)
  | kind (kind : Kind) : Alike pair (.kind kind) (.kind kind)
  | length (count : Nat) : Alike pair (.length count) (.length count)

namespace Attribute.Alike

variable {reached reached' : Attribute} (halike : reached.Alike pair reached')

include halike

theorem isPresent_eq : reached.isPresent = reached'.isPresent := by cases halike <;> rfl

theorem text?_eq : reached.text? = reached'.text? := by cases halike <;> rfl

theorem number?_eq : reached.number? = reached'.number? := by cases halike <;> rfl

theorem order?_eq (value : TestValue) : value.order? reached = value.order? reached' := by
  cases value with
  | literal text => simp only [TestValue.order?, halike.text?_eq, halike.number?_eq]
  | number x => simp only [TestValue.order?, halike.number?_eq]
  | pattern source pattern => rfl

theorem likePattern_eq (pattern : Pattern) :
    AttributeTest.likePattern pattern (some reached) =
      AttributeTest.likePattern pattern (some reached') := by
  cases halike <;> rfl

end Attribute.Alike

namespace Tree

variable {left right : Tree} {top top' id id' parent parent' : NodeId}

namespace IsPairing

variable (hpairing : left.IsPairing right pair)

include hpairing

theorem rel_step? {reached reached' : Attribute} (halike : reached.Alike pair reached')
    (segment : String) :
    Option.Rel (Attribute.Alike pair) (reached.step? left segment)
      (reached'.step? right segment) := by
  cases halike with
  | @node id id' hpair =>
      rw [Attribute.step?, Attribute.step?]
      split
      next =>
        rw [hpairing.kind_eq hpair]
        exact .some (.kind _)
      next =>
        refine rel_map (hpairing.rel_slot? hpair segment) fun slot slot' hslot => ?_
        cases hslot with
        | node hpair => exact .node hpair
        | list hitems => exact .list hitems
        | value scalar => exact .value scalar
  | @list items items' hitems =>
      rw [Attribute.step?, Attribute.step?, hitems.length_eq]
      split
      next => exact .some (.length _)
      next =>
        cases listPosition? segment with
        | none => exact .none
        | some index =>
            have hitem : Option.Rel pair (items.at? index) (items'.at? index) :=
              rel_join (rel_getElem? hitems index)
            exact rel_map hitem fun _ _ => .node
  | value scalar =>
      cases scalar with
      | text s =>
          rw [Attribute.step?, Attribute.step?]
          split
          next => exact .some (.length _)
          next => exact .none
      | _ => exact .none
  | kind | length => exact .none

theorem rel_path? (hpair : pair id id') (path : List String) :
    Option.Rel (Attribute.Alike pair) (left.path? id path) (right.path? id' path) := by
  have hsteps : ∀ {reached reached' : Attribute}, reached.Alike pair reached' →
      Option.Rel (Attribute.Alike pair)
        (path.foldlM (fun (reached : Attribute) segment => reached.step? left segment) reached)
        (path.foldlM (fun (reached : Attribute) segment => reached.step? right segment)
          reached') := by
    induction path with
    | nil => exact fun halike => .some halike
    | cons segment path ih =>
        intro reached reached' halike
        rw [List.foldlM_cons, List.foldlM_cons]
        exact rel_bind (hpairing.rel_step? halike segment) fun _ _ => ih
  exact hsteps (.node hpair)

/-- No attribute test tells partners apart. -/
theorem test_holds_eq (hpair : pair id id') (test : AttributeTest) :
    test.holds left id = test.holds right id' := by
  have hpath := hpairing.rel_path? hpair test.path
  rw [AttributeTest.holds, AttributeTest.holds]
  generalize left.path? id test.path = reached, right.path? id' test.path = reached' at hpath
  cases hpath with
  | none => rfl
  | some halike =>
      simp only [Option.any_some, AttributeTest.reachedText?, Option.bind_some, halike.isPresent_eq,
        halike.text?_eq, halike.likePattern_eq, halike.order?_eq]

end IsPairing

end Tree

end ReactiveLint
