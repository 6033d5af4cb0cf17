import Mathlib.Data.List.Nodup
import ReactiveLint.Syntax.Tree
import ReactiveLint.Syntax.Query

/-!
# Slot positions

A node of an arena sits at a place of another: the number of a field, and the index
when the field is a list.  These lemmas read the links of an arena as the map from
places to the nodes that sit there, which holds each place at most once.
-/

namespace ReactiveLint

namespace Slot

/-- The node at a position of a slot.  The items of a list have numbers, a single
child has none. -/
def at? : Slot → Option Nat → Option NodeId
  | node id, none => some id
  | list items, some index => items[index]?.join
  | _, _ => none

/-- The nodes of a slot, in order. -/
def ids : Slot → List NodeId
  | node id => [id]
  | list items => NodeList.ids items
  | value _ => []

end Slot

/-- The nodes in the slots of a draft, in order. -/
def NodeDraft.slotIds (draft : NodeDraft) : List NodeId :=
  draft.fields.flatMap fun (_, slot) => slot.ids

namespace Tree

/-- The node that sits at a place of an arena. -/
def occupant? (drafts : List NodeDraft) (place : Place) : Option NodeId := do
  let draft ← drafts[place.parent]?
  let (_, slot) ← draft.fields[place.field]?
  slot.at? place.index

end Tree

/-- Lists whose items know the number of the item they come from do not meet. -/
theorem nodup_flatMap_zipIdx {A B : Type*} (position : B → Nat) {f : A × Nat → List B}
    (hnodup : ∀ pair, (f pair).Nodup) (hposition : ∀ pair, ∀ b ∈ f pair, position b = pair.2)
    (items : List A) : (items.zipIdx.flatMap f).Nodup := by
  refine List.nodup_flatMap.mpr ⟨fun pair _ => hnodup pair, ?_⟩
  have hnumbers : (items.zipIdx.map Prod.snd).Pairwise (· ≠ ·) := by
    rw [List.zipIdx_map_snd]
    exact List.nodup_range'
  refine (List.pairwise_map.mp hnumbers).imp ?_
  intro left right hne b hleft hright
  exact hne ((hposition left b hleft).symm.trans (hposition right b hright))

namespace NodeDraft

theorem mem_slotLinks_iff {parent field : Nat} {slot : Slot} {link : Link} :
    link ∈ slotLinks parent field slot ↔
      link.place.parent = parent ∧ link.place.field = field ∧
        slot.at? link.place.index = some link.child := by
  obtain ⟨⟨owner, position, index⟩, child⟩ := link
  cases slot with
  | node id =>
      cases index <;> simp [slotLinks, Slot.at?, and_assoc, eq_comm]
  | list items =>
      cases index with
      | none => simp [slotLinks, Slot.at?]
      | some index =>
          simp only [slotLinks, Slot.at?, List.mem_filterMap, Option.map_eq_some_iff,
            List.mem_zipIdx_iff_getElem?, Option.join_eq_some_iff, Prod.exists]
          constructor
          · rintro ⟨item, position', hitem, child', rfl, heq⟩
            simp only [Link.mk.injEq, Place.mk.injEq, Option.some.injEq] at heq
            obtain ⟨⟨rfl, rfl, rfl⟩, rfl⟩ := heq
            exact ⟨rfl, rfl, hitem⟩
          · rintro ⟨rfl, rfl, hitem⟩
            exact ⟨some child, index, hitem, child, rfl, rfl⟩
  | value scalar => simp [slotLinks, Slot.at?]

theorem mem_links_iff {draft : NodeDraft} {id : NodeId} {link : Link} :
    link ∈ draft.links id ↔
      link.place.parent = id ∧
        ∃ name slot, draft.fields[link.place.field]? = some (name, slot) ∧
          slot.at? link.place.index = some link.child := by
  simp only [links, List.mem_flatMap, Prod.exists, mem_slotLinks_iff,
    List.mem_zipIdx_iff_getElem?]
  constructor
  · rintro ⟨name, slot, field, hfield, hparent, rfl, hat⟩
    exact ⟨hparent, name, slot, hfield, hat⟩
  · rintro ⟨hparent, name, slot, hfield, hat⟩
    exact ⟨name, slot, _, hfield, hparent, rfl, hat⟩

theorem nodup_slotLinks (parent field : Nat) (slot : Slot) :
    (slotLinks parent field slot).Nodup := by
  cases slot with
  | node id => simp [slotLinks]
  | list items =>
      rw [slotLinks, List.filterMap_eq_flatMap_toList]
      refine nodup_flatMap_zipIdx (fun link => link.place.index.getD 0) ?_ ?_ items
      · rintro ⟨item, index⟩
        cases item <;> simp
      · rintro ⟨item, index⟩ link hlink
        cases item <;> simp_all
  | value scalar => simp [slotLinks]

theorem nodup_links (draft : NodeDraft) (id : NodeId) : (draft.links id).Nodup := by
  refine nodup_flatMap_zipIdx (·.place.field) (fun pair => nodup_slotLinks id pair.2 _) ?_ _
  intro pair link hlink
  exact (mem_slotLinks_iff.mp hlink).2.1

theorem map_child_slotLinks (parent field : Nat) (slot : Slot) :
    (slotLinks parent field slot).map (·.child) = slot.ids := by
  cases slot with
  | node id => rfl
  | list items =>
      have hpositions (first : Nat) :
          ((items.zipIdx first).filterMap fun entry =>
            entry.1.map fun child => (⟨⟨parent, field, some entry.2⟩, child⟩ : Link)).map
              (·.child) = NodeList.ids items := by
        induction items generalizing first with
        | nil => rfl
        | cons item items ih =>
            cases item <;> simp_all [NodeList.ids]
      exact hpositions 0
  | value scalar => rfl

/-- The links of a node lead to the nodes of its slots, in the same order. -/
theorem map_child_links (draft : NodeDraft) (id : NodeId) :
    (draft.links id).map (·.child) = draft.slotIds := by
  have hfields (first : Nat) :
      ((draft.fields.zipIdx first).flatMap fun entry =>
        slotLinks id entry.2 entry.1.2).map (·.child) =
          draft.fields.flatMap fun field => field.2.ids := by
    induction draft.fields generalizing first with
    | nil => rfl
    | cons field fields ih =>
        simp [List.flatMap_cons, map_child_slotLinks, ih]
  exact hfields 0

end NodeDraft

namespace Tree

variable {drafts : List NodeDraft}

theorem occupant?_eq_some_iff {place : Place} {id : NodeId} :
    occupant? drafts place = some id ↔
      ∃ draft name slot, drafts[place.parent]? = some draft ∧
        draft.fields[place.field]? = some (name, slot) ∧ slot.at? place.index = some id := by
  simp only [occupant?, Option.bind_eq_bind, Option.bind_eq_some_iff, Prod.exists]
  constructor
  · rintro ⟨draft, hdraft, name, slot, hfield, hat⟩
    exact ⟨draft, name, slot, hdraft, hfield, hat⟩
  · rintro ⟨draft, name, slot, hdraft, hfield, hat⟩
    exact ⟨draft, hdraft, name, slot, hfield, hat⟩

theorem parent_lt_of_occupant? {place : Place} {id : NodeId}
    (hoccupant : occupant? drafts place = some id) : place.parent < drafts.length := by
  obtain ⟨draft, _, _, hdraft, -⟩ := occupant?_eq_some_iff.mp hoccupant
  exact (List.getElem?_eq_some_iff.mp hdraft).1

/-- The links of an arena are its occupied places. -/
theorem mem_allLinks_iff {link : Link} :
    link ∈ allLinks drafts ↔ occupant? drafts link.place = some link.child := by
  simp only [allLinks, List.mem_flatMap, Prod.exists, NodeDraft.mem_links_iff,
    List.mem_zipIdx_iff_getElem?, occupant?_eq_some_iff]
  constructor
  · rintro ⟨draft, id, hdraft, rfl, name, slot, hfield, hat⟩
    exact ⟨draft, name, slot, hdraft, hfield, hat⟩
  · rintro ⟨draft, name, slot, hdraft, hfield, hat⟩
    exact ⟨draft, _, hdraft, rfl, name, slot, hfield, hat⟩

theorem nodup_allLinks (drafts : List NodeDraft) : (allLinks drafts).Nodup := by
  refine nodup_flatMap_zipIdx (·.place.parent) (fun pair => pair.1.nodup_links pair.2) ?_ _
  intro pair link hlink
  exact (NodeDraft.mem_links_iff.mp hlink).1

/-- The children of links repeat exactly when a node sits at two places. -/
theorem nodup_children_iff :
    ((allLinks drafts).map (·.child)).Nodup ↔
      ∀ first second id, occupant? drafts first = some id →
        occupant? drafts second = some id → first = second := by
  constructor
  · intro hnodup first second id hfirst hsecond
    have hfirst' : (⟨first, id⟩ : Link) ∈ allLinks drafts := mem_allLinks_iff.mpr hfirst
    have hsecond' : (⟨second, id⟩ : Link) ∈ allLinks drafts := mem_allLinks_iff.mpr hsecond
    exact congrArg Link.place (List.inj_on_of_nodup_map hnodup hfirst' hsecond' rfl)
  · intro hunique
    refine List.Nodup.map_on ?_ (nodup_allLinks drafts)
    intro left hleft right hright hchild
    have hplace : left.place = right.place :=
      hunique left.place right.place left.child (mem_allLinks_iff.mp hleft)
        (hchild ▸ mem_allLinks_iff.mp hright)
    cases left
    cases right
    simp_all

end Tree

end ReactiveLint
