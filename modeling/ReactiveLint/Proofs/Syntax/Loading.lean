import Mathlib.Data.List.Forall2
import ReactiveLint.Proofs.Rule.Report
import ReactiveLint.Proofs.Syntax.Growing
import ReactiveLint.Proofs.Syntax.NodeObjects
import ReactiveLint.Proofs.Text.Utf16

/-!
# Loading node objects

Loading succeeds exactly when each node object can be read by itself; otherwise it fails with
the first error on the way.  It appends one draft for every node object, in the order of their
listing, and the new part of the arena is numbered in post-order.
-/

namespace ReactiveLint.Estree

variable {source : String} {arena arena' : List NodeDraft} {value : Json} {items : List Json}
  {members object : Members} {objects : List Members}

/-! ## Which objects can be read -/

/-- What a node object says by itself: its kind and where it stands. -/
def readHead (source : String) (object : Members) : Except TreeError (Kind × Span) :=
  match typeName? object with
  | none => .error .rootWithoutType
  | some typeName =>
      match Kind.ofName? typeName with
      | none => .error (.unknownKind typeName)
      | some kind => (spanOf source typeName object).map (kind, ·)

/-- The error of a reader, if it fails. -/
def refusal? {A : Type} : Except TreeError A → Option TreeError
  | .ok _ => none
  | .error error => some error

/-- The error of the first of some objects that cannot be read. -/
def firstRefusal? (source : String) (objects : List Members) : Option TreeError :=
  objects.findSome? fun object => refusal? (readHead source object)

theorem refusal?_eq_some_iff {A : Type} {result : Except TreeError A} {error : TreeError} :
    refusal? result = some error ↔ result = .error error := by
  cases result <;> simp [refusal?]

theorem refusal?_eq_none_iff {A : Type} {result : Except TreeError A} :
    refusal? result = none ↔ ∃ answer, result = .ok answer := by
  cases result <;> simp [refusal?]

@[simp]
theorem firstRefusal?_nil : firstRefusal? source [] = none := rfl

theorem firstRefusal?_cons (object : Members) (objects : List Members) :
    firstRefusal? source (object :: objects) =
      (refusal? (readHead source object)).or (firstRefusal? source objects) := by
  rw [firstRefusal?, List.findSome?_cons]
  cases refusal? (readHead source object) <;> rfl

theorem firstRefusal?_append (left right : List Members) :
    firstRefusal? source (left ++ right) =
      (firstRefusal? source left).or (firstRefusal? source right) :=
  List.findSome?_append

mutual

theorem refusal?_slotOf : ∀ (value : Json) (arena : List NodeDraft),
    refusal? (slotOf source arena value) = firstRefusal? source (visitsIn value)
  | .null, _ | .bool _, _ | .int _, _ | .float _, _ | .str _, _ => by
      simp [slotOf, visitsIn, refusal?]
  | .list items, arena => by
      rw [slotOf, visitsIn, ← refusal?_itemsOf items arena]
      cases itemsOf source arena items <;> rfl
  | .object members, arena => by
      rw [slotOf, visitsIn, ← refusal?_nodeOf members arena]
      cases nodeOf source arena members <;> rfl

theorem refusal?_itemsOf : ∀ (items : List Json) (arena : List NodeDraft),
    refusal? (itemsOf source arena items) = firstRefusal? source (visitsOfItems items)
  | [], _ => by simp [itemsOf, visitsOfItems, refusal?]
  | item :: items, arena => by
      rw [itemsOf, visitsOfItems, firstRefusal?_append, ← refusal?_itemOf item arena]
      cases itemOf source arena item with
      | error error => rfl
      | ok first =>
          obtain ⟨arena, id⟩ := first
          rw [← refusal?_itemsOf items arena]
          cases hrest : itemsOf source arena items <;> simp [hrest, refusal?]

theorem refusal?_itemOf : ∀ (item : Json) (arena : List NodeDraft),
    refusal? (itemOf source arena item) = firstRefusal? source (visitsOfItem item)
  | .object members, arena => by
      rw [itemOf, visitsOfItem]
      exact refusal?_nodeOf members arena
  | .list _, _ | .null, _ | .bool _, _ | .int _, _ | .float _, _ | .str _, _ => by
      simp [itemOf, visitsOfItem, refusal?]

theorem refusal?_fieldsOf : ∀ (members : Members) (arena : List NodeDraft),
    refusal? (fieldsOf source arena members) = firstRefusal? source (visitsOfMembers members)
  | [], _ => by simp [fieldsOf, visitsOfMembers, refusal?]
  | (key, value) :: members, arena => by
      rw [fieldsOf, visitsOfMembers]
      split
      next => exact refusal?_fieldsOf members arena
      next =>
        rw [firstRefusal?_append, ← refusal?_slotOf value arena]
        cases slotOf source arena value with
        | error error => rfl
        | ok first =>
            obtain ⟨arena, slot⟩ := first
            rw [← refusal?_fieldsOf members arena]
            cases hrest : fieldsOf source arena members <;> simp [hrest, refusal?]

/-- A node object fails with the first error on the way through the objects at and below it. -/
theorem refusal?_nodeOf : ∀ (members : Members) (arena : List NodeDraft),
    refusal? (nodeOf source arena members) = firstRefusal? source (visits members)
  | members, arena => by
      cases htype : typeName? members with
      | none =>
          rw [visits_of_not_isNode (not_not.mpr htype)]
          simp [nodeOf, htype, refusal?]
      | some typeName =>
          rw [visits_of_isNode (isNode_iff_exists.mpr ⟨typeName, htype⟩), firstRefusal?_cons,
            ← refusal?_fieldsOf members arena]
          cases hkind : Kind.ofName? typeName with
          | none => simp [nodeOf, readHead, htype, hkind, refusal?]
          | some kind =>
              cases hspan : spanOf source typeName members with
              | error error => simp [nodeOf, readHead, htype, hkind, hspan, refusal?, Except.map]
              | ok span =>
                  simp only [nodeOf, readHead, htype, hkind, hspan, Except.map]
                  cases fieldsOf source arena members <;> rfl

end

/-- A reader fails only with the error of one of the objects that it reads. -/
def Answers {A : Type} (source : String) (objects : List Members) : Except TreeError A → Prop
  | .ok _ => ∀ object ∈ objects, ∃ head, readHead source object = .ok head
  | .error e => ∃ object ∈ objects, readHead source object = .error e

theorem answers_nodeOf (members : Members) (arena : List NodeDraft) :
    Answers source (objectsOf members) (nodeOf source arena members) := by
  have hrefusal := @refusal?_nodeOf source members arena
  cases hread : nodeOf source arena members with
  | ok read =>
      rw [hread, refusal?, firstRefusal?, eq_comm, List.findSome?_eq_none_iff] at hrefusal
      exact fun object hobject =>
        refusal?_eq_none_iff.mp (hrefusal object ((perm_visits members).mem_iff.mpr hobject))
  | error error =>
      rw [hread, refusal?, firstRefusal?] at hrefusal
      obtain ⟨object, hobject, herror⟩ := List.exists_of_findSome?_eq_some hrefusal.symm
      exact ⟨object, (perm_visits members).mem_iff.mp hobject, refusal?_eq_some_iff.mp herror⟩

/-! ## What is appended -/

/-- An object without a type, which no slot is made of. -/
def isPlain : Json → Bool
  | .object members => (typeName? members).isNone
  | _ => false

/-- Whether a slot is made of a member. -/
def isSlot (member : String × Json) : Bool :=
  !positionKeys.contains member.1 && !isPlain member.2

/-- What sits at a position of a list slot: the node that an object stands for, under its
number in a listing of objects, and a hole for everything else. -/
inductive Sits (objects : List Members) : Json → Option NodeId → Prop
  | node {members : Members} {id : NodeId} (hnode : IsNode members)
      (hid : objects[id]? = some members) : Sits objects (.object members) (some id)
  | hole {item : Json} (hplain : ∀ members, item = .object members → ¬ IsNode members) :
      Sits objects item none

/-- The slot that is made of a value. -/
inductive Fills (objects : List Members) : Json → Slot → Prop
  | null : Fills objects .null (.value .null)
  | bool (value : Bool) : Fills objects (.bool value) (.value (.bool value))
  | int (value : Int) : Fills objects (.int value) (.value (.number (.ofInt value)))
  | float (value : Number) : Fills objects (.float value) (.value (.number value))
  | str (value : String) : Fills objects (.str value) (.value (.text value))
  | list {items : List Json} {ids : List (Option NodeId)}
      (hitems : List.Forall₂ (Sits objects) items ids) : Fills objects (.list items) (.list ids)
  | node {members : Members} {id : NodeId} (hid : objects[id]? = some members) :
      Fills objects (.object members) (.node id)

/-- A draft that has the kind, the span and the slots of an object. -/
structure Depicts (source : String) (objects : List Members) (object : Members)
    (draft : NodeDraft) : Prop where
  kind : ∃ typeName, typeName? object = some typeName ∧ Kind.ofName? typeName = some draft.kind
  span : ∃ start stop, unitRange? object = some (start, stop) ∧
    draft.span = ⟨Text.Utf16.byteIndex source start, Text.Utf16.byteIndex source stop⟩
  fields : List.Forall₂ (fun member field => field.1 = member.1 ∧ Fills objects member.2 field.2)
    (object.filter isSlot) draft.fields

/-- What the loader adds to an arena for some node objects. -/
abbrev Reads (source : String) (arena arena' : List NodeDraft) (objects : List Members)
    (ids : List NodeId) (fact : List Members → Prop) : Prop :=
  Tree.Extends (fun all _ => Depicts source all) arena arena' objects ids fun all _ => fact all

theorem byteOffset_eq_ok {index offset : Nat} (hoffset : byteOffset source index = .ok offset) :
    offset = Text.Utf16.byteIndex source index := by
  rw [byteOffset] at hoffset
  split at hoffset
  next found hfound =>
    obtain rfl := Except.ok.inj hoffset
    exact (Text.Utf16.byteIndex_of_byteOffset? hfound).symm
  next => simp at hoffset

theorem readHead_eq_ok {kind : Kind} {span : Span}
    (hhead : readHead source object = .ok (kind, span)) :
    (∃ typeName, typeName? object = some typeName ∧ Kind.ofName? typeName = some kind) ∧
      ∃ start stop, unitRange? object = some (start, stop) ∧
        span = ⟨Text.Utf16.byteIndex source start, Text.Utf16.byteIndex source stop⟩ := by
  cases htype : typeName? object with
  | none => simp [readHead, htype] at hhead
  | some typeName =>
      cases hkind : Kind.ofName? typeName with
      | none => simp [readHead, htype, hkind] at hhead
      | some found =>
          cases hspan : spanOf source typeName object with
          | error e => simp [readHead, htype, hkind, hspan, Except.map] at hhead
          | ok read =>
              simp only [readHead, htype, hkind, hspan, Except.map, Except.ok.injEq,
                Prod.mk.injEq] at hhead
              obtain ⟨rfl, rfl⟩ := hhead
              refine ⟨⟨typeName, rfl, hkind⟩, ?_⟩
              rw [spanOf] at hspan
              split at hspan
              next => simp [throw, throwThe, MonadExceptOf.throw] at hspan
              next start stop hrange =>
                obtain ⟨first, hfirst, hspan⟩ := bind_eq_ok_iff.mp hspan
                obtain ⟨last, hlast, hspan⟩ := bind_eq_ok_iff.mp hspan
                obtain rfl := Except.ok.inj hspan
                refine ⟨start, stop, hrange, ?_⟩
                rw [byteOffset_eq_ok hfirst, byteOffset_eq_ok hlast]

/-- What fills the slot of a member, if one is made of it. -/
def Filled (all : List Members) (value : Json) : Option Slot → Prop
  | none => isPlain value = true
  | some slot => isPlain value = false ∧ Fills all value slot

mutual

theorem reads_slotOf : ∀ (value : Json) {arena arena' : List NodeDraft} {slot : Option Slot},
    slotOf source arena value = .ok (arena', slot) →
      Reads source arena arena' (objectsIn value) (slot.toList.flatMap Slot.ids)
        fun all => Filled all value slot
  | .null, arena, arena', slot, hslot => by
      simp only [slotOf, Except.ok.injEq, Prod.mk.injEq] at hslot
      obtain ⟨rfl, rfl⟩ := hslot
      simp only [objectsIn]
      exact .nothing fun all _ => ⟨rfl, .null⟩
  | .bool value, arena, arena', slot, hslot => by
      simp only [slotOf, Except.ok.injEq, Prod.mk.injEq] at hslot
      obtain ⟨rfl, rfl⟩ := hslot
      simp only [objectsIn]
      exact .nothing fun all _ => ⟨rfl, .bool value⟩
  | .int value, arena, arena', slot, hslot => by
      simp only [slotOf, Except.ok.injEq, Prod.mk.injEq] at hslot
      obtain ⟨rfl, rfl⟩ := hslot
      simp only [objectsIn]
      exact .nothing fun all _ => ⟨rfl, .int value⟩
  | .float value, arena, arena', slot, hslot => by
      simp only [slotOf, Except.ok.injEq, Prod.mk.injEq] at hslot
      obtain ⟨rfl, rfl⟩ := hslot
      simp only [objectsIn]
      exact .nothing fun all _ => ⟨rfl, .float value⟩
  | .str value, arena, arena', slot, hslot => by
      simp only [slotOf, Except.ok.injEq, Prod.mk.injEq] at hslot
      obtain ⟨rfl, rfl⟩ := hslot
      simp only [objectsIn]
      exact .nothing fun all _ => ⟨rfl, .str value⟩
  | .list items, arena, arena', slot, hslot => by
      rw [slotOf] at hslot
      split at hslot
      next => simp at hslot
      next ids hitems =>
        obtain ⟨rfl, rfl⟩ := Prod.mk.inj (Except.ok.inj hslot)
        have hreads := reads_itemsOf items hitems
        rw [objectsIn, Option.toList_some, List.flatMap_singleton, Slot.ids]
        exact hreads.imp fun all _ hall => ⟨rfl, .list hall⟩
  | .object members, arena, arena', slot, hslot => by
      rw [slotOf] at hslot
      split at hslot
      next => simp at hslot
      next id hnode =>
        obtain ⟨rfl, rfl⟩ := Prod.mk.inj (Except.ok.inj hslot)
        have hreads := reads_nodeOf members hnode
        rw [objectsIn]
        cases id with
        | none => exact hreads.imp fun all _ hall => by simpa [Filled, isPlain, IsNode] using hall
        | some id =>
            exact hreads.imp fun all _ hall =>
              ⟨by simpa [isPlain, IsNode, Option.isSome_iff_ne_none] using hall.1, .node hall.2⟩

theorem reads_itemsOf : ∀ (items : List Json) {arena arena' : List NodeDraft}
    {ids : List (Option NodeId)}, itemsOf source arena items = .ok (arena', ids) →
      Reads source arena arena' (objectsOfItems items) (NodeList.ids ids)
        fun all => List.Forall₂ (Sits all) items ids
  | [], arena, arena', ids, hitems => by
      simp only [itemsOf, Except.ok.injEq, Prod.mk.injEq] at hitems
      obtain ⟨rfl, rfl⟩ := hitems
      simp only [objectsOfItems]
      exact .nothing fun all _ => .nil
  | item :: items, arena, arena', ids, hitems => by
      rw [itemsOf] at hitems
      split at hitems
      next => simp at hitems
      next first id hitem =>
        split at hitems
        next => simp at hitems
        next last rest hrest =>
          obtain ⟨rfl, rfl⟩ := Prod.mk.inj (Except.ok.inj hitems)
          have hreads := (reads_itemOf item hitem).append (reads_itemsOf items hrest)
          have hids : NodeList.ids (id :: rest) = id.toList ++ NodeList.ids rest := by
            cases id <;> rfl
          rw [objectsOfItems, hids]
          exact hreads.imp fun all _ hall => .cons hall.1 hall.2

theorem reads_itemOf : ∀ (item : Json) {arena arena' : List NodeDraft} {id : Option NodeId},
    itemOf source arena item = .ok (arena', id) →
      Reads source arena arena' (objectsOfItem item) id.toList fun all => Sits all item id
  | .object members, arena, arena', id, hitem => by
      rw [itemOf] at hitem
      have hreads := reads_nodeOf members hitem
      rw [objectsOfItem]
      cases id with
      | none =>
          refine hreads.imp fun all _ hall => .hole fun other hother => ?_
          obtain rfl := Json.object.inj hother
          exact hall
      | some id => exact hreads.imp fun all _ hall => .node hall.1 hall.2
  | .list _, arena, arena', id, hitem | .null, arena, arena', id, hitem
  | .bool _, arena, arena', id, hitem | .int _, arena, arena', id, hitem
  | .float _, arena, arena', id, hitem | .str _, arena, arena', id, hitem => by
      simp only [itemOf, Except.ok.injEq, Prod.mk.injEq] at hitem
      obtain ⟨rfl, rfl⟩ := hitem
      simp only [objectsOfItem]
      exact .nothing fun all _ => .hole (by simp)

theorem reads_fieldsOf : ∀ (members : Members) {arena arena' : List NodeDraft}
    {fields : List (String × Slot)}, fieldsOf source arena members = .ok (arena', fields) →
      Reads source arena arena' (objectsOfMembers members) (fields.flatMap fun (_, slot) => slot.ids)
        fun all => List.Forall₂ (fun member field => field.1 = member.1 ∧ Fills all member.2 field.2)
          (members.filter isSlot) fields
  | [], arena, arena', fields, hfields => by
      simp only [fieldsOf, Except.ok.injEq, Prod.mk.injEq] at hfields
      obtain ⟨rfl, rfl⟩ := hfields
      simp only [objectsOfMembers]
      exact .nothing fun all _ => .nil
  | (key, value) :: members, arena, arena', fields, hfields => by
      rw [fieldsOf] at hfields
      rw [objectsOfMembers]
      split at hfields
      next hkey =>
        rw [if_pos hkey, List.filter_cons_of_neg (by rw [isSlot, hkey]; exact Bool.false_ne_true)]
        exact reads_fieldsOf members hfields
      next hkey =>
        split at hfields
        next => simp at hfields
        next first slot hslot =>
          split at hfields
          next => simp at hfields
          next last rest hrest =>
            obtain ⟨rfl, rfl⟩ := Prod.mk.inj (Except.ok.inj hfields)
            have hreads := (reads_slotOf value hslot).append (reads_fieldsOf members hrest)
            rw [if_neg hkey]
            cases slot with
            | none =>
                refine hreads.imp fun all _ hall => ?_
                have hplain : isPlain value = true := hall.1
                rw [List.filter_cons_of_neg (by simp [isSlot, hplain])]
                exact hall.2
            | some slot =>
                rw [Option.toList_some, List.flatMap_singleton] at hreads
                rw [List.flatMap_cons]
                refine hreads.imp fun all _ hall => ?_
                rw [List.filter_cons_of_pos (by simpa [isSlot, hall.1.1] using hkey)]
                exact .cons ⟨rfl, hall.1.2⟩ hall.2

theorem reads_nodeOf : ∀ (members : Members) {arena arena' : List NodeDraft}
    {id : Option NodeId}, nodeOf source arena members = .ok (arena', id) →
      Reads source arena arena' (objectsOf members) id.toList fun all =>
        match id with
        | none => ¬ IsNode members
        | some id => IsNode members ∧ all[id]? = some members
  | members, arena, arena', id, hnode => by
      cases htype : typeName? members with
      | none =>
          simp only [nodeOf, htype, Except.ok.injEq, Prod.mk.injEq] at hnode
          obtain ⟨rfl, rfl⟩ := hnode
          rw [objectsOf, htype]
          exact .nothing fun all _ => not_not.mpr htype
      | some typeName =>
          cases hkind : Kind.ofName? typeName with
          | none => simp [nodeOf, htype, hkind] at hnode
          | some kind =>
              cases hspan : spanOf source typeName members with
              | error e => simp [nodeOf, htype, hkind, hspan] at hnode
              | ok span =>
                  cases hfields : fieldsOf source arena members with
                  | error e => simp [nodeOf, htype, hkind, hspan, hfields] at hnode
                  | ok read =>
                      obtain ⟨below, fields⟩ := read
                      simp only [nodeOf, htype, hkind, hspan, hfields, Except.ok.injEq,
                        Prod.mk.injEq] at hnode
                      obtain ⟨rfl, rfl⟩ := hnode
                      have hhead : readHead source members = .ok (kind, span) := by
                        simp only [readHead, htype, hkind, hspan, Except.map]
                      obtain ⟨hname, hrange⟩ := readHead_eq_ok hhead
                      have hself : Reads source arena below (objectsOfMembers members)
                          (⟨kind, span, fields⟩ : NodeDraft).slotIds fun all =>
                            Depicts source all members ⟨kind, span, fields⟩ :=
                        (reads_fieldsOf members hfields).imp fun all _ hall => ⟨hname, hrange, hall⟩
                      have hisNode : IsNode members := by simp [IsNode, htype]
                      rw [objectsOf_of_isNode hisNode]
                      exact hself.node.imp fun all _ hall => ⟨hisNode, hall.1⟩

end

end ReactiveLint.Estree
