import Mathlib.Data.List.Lex
import Mathlib.Data.String.Basic
import Mathlib.Logic.Relation
import ReactiveLint.Syntax.Estree

/-!
# Node objects

The objects with a type that a JSON value holds under its structural keys, directly or as
items of a list, are its nodes.  `objectsOf` lists them in post-order, and `visits` in the
order in which they are read.  In canonical JSON the members of every object stand in strict
key order.
-/

namespace ReactiveLint

/-- The members of a JSON object. -/
abbrev Members := List (String × Json)

namespace Json

/-! ## Canonical values -/

/-- A value whose objects have been put in key order. -/
def IsCanonical (json : Json) : Prop := ∃ other : Json, json = other.canonical

variable {json : Json} {members : Members} {items : List Json} {key : String}

theorem mem_insertMember {value : Json} {member : String × Json}
    (hmem : member ∈ insertMember key value members) :
    member = (key, value) ∨ member ∈ members := by
  induction members with
  | nil => exact .inl (List.mem_singleton.mp hmem)
  | cons first rest ih =>
      rw [insertMember] at hmem
      split at hmem
      · exact (List.mem_cons.mp hmem).imp_right (List.mem_cons_of_mem _)
      · split at hmem
        · exact List.mem_cons.mp hmem
        · rcases List.mem_cons.mp hmem with rfl | hmem
          · exact .inr List.mem_cons_self
          · exact (ih hmem).imp_right (List.mem_cons_of_mem _)

/-- Members stand in strict key order. -/
def InKeyOrder (members : Members) : Prop := (members.map (·.1)).Pairwise (· < ·)

theorem inKeyOrder_insertMember (horder : InKeyOrder members) (value : Json) :
    InKeyOrder (insertMember key value members) := by
  induction members with
  | nil => exact List.pairwise_singleton _ _
  | cons first rest ih =>
      obtain ⟨hfirst, hrest⟩ := List.pairwise_cons.mp horder
      rw [insertMember]
      split
      next heq => exact List.pairwise_cons.mpr ⟨by rwa [heq], hrest⟩
      next hne =>
        split
        next hlt =>
          refine List.pairwise_cons.mpr ⟨fun other hother => ?_, horder⟩
          rcases List.mem_cons.mp hother with rfl | hother
          · exact hlt
          · exact lt_trans hlt (hfirst other hother)
        next hge =>
          have hgt : first.1 < key := lt_of_le_of_ne (not_lt.mp hge) (Ne.symm hne)
          refine List.pairwise_cons.mpr ⟨fun other hother => ?_, ih hrest⟩
          obtain ⟨member, hmember, rfl⟩ := List.mem_map.mp hother
          rcases mem_insertMember hmember with rfl | hmember
          · exact hgt
          · exact hfirst _ (List.mem_map_of_mem hmember)

theorem sortMembers_induction {P : Members → Prop} (hnil : P [])
    (hinsert : ∀ sorted, ∀ member ∈ members, P sorted → P (insertMember member.1 member.2 sorted)) :
    P (sortMembers members) := by
  rw [sortMembers]
  have hstart : ∀ sorted, P sorted → P (members.foldl
      (fun sorted member => insertMember member.1 member.2 sorted) sorted) := by
    induction members with
    | nil => exact fun _ hsorted => hsorted
    | cons first rest ih =>
        intro sorted hsorted
        exact ih (fun sorted member hmem => hinsert sorted member (List.mem_cons_of_mem _ hmem)) _
          (hinsert sorted first List.mem_cons_self hsorted)
  exact hstart [] hnil

theorem inKeyOrder_sortMembers (members : Members) : InKeyOrder (sortMembers members) :=
  sortMembers_induction List.Pairwise.nil
    fun _ member _ hsorted => inKeyOrder_insertMember hsorted member.2

theorem isCanonical_of_mem_canonicalItems (hmem : json ∈ canonicalItems items) :
    json.IsCanonical := by
  induction items with
  | nil => simp [canonicalItems] at hmem
  | cons item items ih =>
      rw [canonicalItems] at hmem
      rcases List.mem_cons.mp hmem with rfl | hmem
      · exact ⟨item, rfl⟩
      · exact ih hmem

theorem isCanonical_of_mem_canonicalMembers {member : String × Json}
    (hmem : member ∈ canonicalMembers members) : member.2.IsCanonical := by
  induction members with
  | nil => simp [canonicalMembers] at hmem
  | cons first rest ih =>
      rw [canonicalMembers] at hmem
      rcases List.mem_cons.mp hmem with rfl | hmem
      · exact ⟨first.2, rfl⟩
      · exact ih hmem

namespace IsCanonical

theorem of_object (hobject : (object members).IsCanonical) :
    InKeyOrder members ∧ ∀ member ∈ members, member.2.IsCanonical := by
  obtain ⟨other, hother⟩ := hobject
  cases other with
  | object written =>
      rw [canonical, object.injEq] at hother
      subst hother
      refine ⟨inKeyOrder_sortMembers _, ?_⟩
      refine sortMembers_induction (P := fun sorted => ∀ member ∈ sorted, member.2.IsCanonical)
        (by simp) fun sorted member hmember hsorted other hother => ?_
      rcases mem_insertMember hother with rfl | hother
      · exact isCanonical_of_mem_canonicalMembers hmember
      · exact hsorted other hother
  | _ => simp [canonical] at hother

theorem of_list (hlist : (list items).IsCanonical) : ∀ item ∈ items, item.IsCanonical := by
  obtain ⟨other, hother⟩ := hlist
  cases other with
  | list written =>
      rw [canonical, list.injEq] at hother
      subst hother
      exact fun item hitem => isCanonical_of_mem_canonicalItems hitem
  | _ => simp [canonical] at hother

end IsCanonical

end Json

namespace Estree

/-! ## Nodes of a value -/

/-- An object that stands for a node. -/
def IsNode (members : Members) : Prop := typeName? members ≠ none

/-- One object holds another one, which is a node, in a slot. -/
inductive Holds : Members → Members → Prop
  | child {outer inner : Members} {key : String} (hkey : key ∉ positionKeys)
      (hmember : (key, .object inner) ∈ outer) (hnode : IsNode inner) : Holds outer inner
  | item {outer inner : Members} {key : String} {items : List Json} (hkey : key ∉ positionKeys)
      (hmember : (key, .list items) ∈ outer) (hitem : .object inner ∈ items)
      (hnode : IsNode inner) : Holds outer inner

/-- The second object is the first one or lies below it. -/
def Reaches : Members → Members → Prop := Relation.ReflTransGen Holds

mutual

/-- The nodes of a member, each after those below it. -/
def objectsIn : Json → List Members
  | .object members => objectsOf members
  | .list items => objectsOfItems items
  | _ => []

def objectsOfItems : List Json → List Members
  | [] => []
  | item :: items => objectsOfItem item ++ objectsOfItems items

def objectsOfItem : Json → List Members
  | .object members => objectsOf members
  | _ => []

def objectsOfMembers : Members → List Members
  | [] => []
  | (key, value) :: members =>
      if positionKeys.contains key then objectsOfMembers members
      else objectsIn value ++ objectsOfMembers members

/-- The nodes at and below an object, each after those below it. -/
def objectsOf (members : Members) : List Members :=
  match typeName? members with
  | none => []
  | some _ => objectsOfMembers members ++ [members]

end

variable {members outer inner object : Members} {value : Json} {items : List Json}

theorem isNode_iff_exists : IsNode members ↔ ∃ typeName, typeName? members = some typeName :=
  Option.ne_none_iff_exists'

theorem objectsOf_of_isNode (hnode : IsNode members) :
    objectsOf members = objectsOfMembers members ++ [members] := by
  obtain ⟨typeName, htype⟩ := isNode_iff_exists.mp hnode
  rw [objectsOf, htype]

theorem objectsOf_of_not_isNode (hplain : ¬ IsNode members) : objectsOf members = [] := by
  rw [objectsOf, not_not.mp hplain]

theorem Holds.cons (hholds : Holds outer inner) (member : String × Json) :
    Holds (member :: outer) inner := by
  cases hholds with
  | child hkey hmember hnode => exact .child hkey (List.mem_cons_of_mem _ hmember) hnode
  | item hkey hmember hitem hnode =>
      exact .item hkey (List.mem_cons_of_mem _ hmember) hitem hnode

mutual

theorem reaches_of_mem_objectsIn : ∀ value : Json, object ∈ objectsIn value →
    ∃ inner, (value = .object inner ∨ ∃ items, value = .list items ∧ .object inner ∈ items) ∧
      IsNode inner ∧ Reaches inner object
  | .object members, hmem => by
      rw [objectsIn] at hmem
      exact ⟨members, .inl rfl, reaches_of_mem_objectsOf members hmem⟩
  | .list items, hmem => by
      rw [objectsIn] at hmem
      obtain ⟨inner, hitem, hreaches⟩ := reaches_of_mem_objectsOfItems items hmem
      exact ⟨inner, .inr ⟨items, rfl, hitem⟩, hreaches⟩
  | .null, hmem | .bool _, hmem | .int _, hmem | .float _, hmem | .str _, hmem => by
      simp [objectsIn] at hmem

theorem reaches_of_mem_objectsOfItems : ∀ items : List Json, object ∈ objectsOfItems items →
    ∃ inner, .object inner ∈ items ∧ IsNode inner ∧ Reaches inner object
  | [], hmem => by simp [objectsOfItems] at hmem
  | item :: items, hmem => by
      rw [objectsOfItems, List.mem_append] at hmem
      rcases hmem with hmem | hmem
      · obtain ⟨inner, rfl, hreaches⟩ := reaches_of_mem_objectsOfItem item hmem
        exact ⟨inner, List.mem_cons_self, hreaches⟩
      · obtain ⟨inner, hitem, hreaches⟩ := reaches_of_mem_objectsOfItems items hmem
        exact ⟨inner, List.mem_cons_of_mem _ hitem, hreaches⟩

theorem reaches_of_mem_objectsOfItem : ∀ item : Json, object ∈ objectsOfItem item →
    ∃ inner, item = .object inner ∧ IsNode inner ∧ Reaches inner object
  | .object members, hmem => by
      rw [objectsOfItem] at hmem
      exact ⟨members, rfl, reaches_of_mem_objectsOf members hmem⟩
  | .list _, hmem | .null, hmem | .bool _, hmem | .int _, hmem | .float _, hmem | .str _, hmem => by
      simp [objectsOfItem] at hmem

theorem reaches_of_mem_objectsOfMembers : ∀ members : Members,
    object ∈ objectsOfMembers members → ∃ inner, Holds members inner ∧ Reaches inner object
  | [], hmem => by simp [objectsOfMembers] at hmem
  | (key, value) :: members, hmem => by
      have hrest : object ∈ objectsOfMembers members →
          ∃ inner, Holds ((key, value) :: members) inner ∧ Reaches inner object := by
        intro hmem
        obtain ⟨inner, hholds, hreaches⟩ := reaches_of_mem_objectsOfMembers members hmem
        exact ⟨inner, hholds.cons _, hreaches⟩
      rw [objectsOfMembers] at hmem
      split at hmem
      next => exact hrest hmem
      next hkey =>
        have hkey : key ∉ positionKeys := by simpa using hkey
        rcases List.mem_append.mp hmem with hmem | hmem
        · obtain ⟨inner, hvalue, hnode, hreaches⟩ := reaches_of_mem_objectsIn value hmem
          rcases hvalue with rfl | ⟨items, rfl, hitem⟩
          · exact ⟨inner, .child hkey List.mem_cons_self hnode, hreaches⟩
          · exact ⟨inner, .item hkey List.mem_cons_self hitem hnode, hreaches⟩
        · exact hrest hmem

theorem reaches_of_mem_objectsOf : ∀ members : Members, object ∈ objectsOf members →
    IsNode members ∧ Reaches members object
  | members, hmem => by
      by_cases hnode : IsNode members
      · rw [objectsOf_of_isNode hnode, List.mem_append, List.mem_singleton] at hmem
        rcases hmem with hmem | rfl
        · obtain ⟨inner, hholds, hreaches⟩ := reaches_of_mem_objectsOfMembers members hmem
          exact ⟨hnode, .head hholds hreaches⟩
        · exact ⟨hnode, .refl⟩
      · rw [objectsOf_of_not_isNode hnode] at hmem
        simp at hmem

end

theorem objectsOf_subset_objectsOfItems (hitem : .object inner ∈ items) :
    objectsOf inner ⊆ objectsOfItems items := by
  induction items with
  | nil => simp at hitem
  | cons item items ih =>
      rw [objectsOfItems]
      rcases List.mem_cons.mp hitem with rfl | hitem
      · rw [objectsOfItem]
        exact List.subset_append_left _ _
      · exact List.subset_append_of_subset_right _ (ih hitem)

theorem objectsIn_subset_objectsOfMembers {key : String} (hkey : key ∉ positionKeys)
    (hmember : (key, value) ∈ members) : objectsIn value ⊆ objectsOfMembers members := by
  induction members with
  | nil => simp at hmember
  | cons member members ih =>
      rw [objectsOfMembers]
      rcases List.mem_cons.mp hmember with rfl | hmember
      · rw [if_neg (by simpa using hkey)]
        exact List.subset_append_left _ _
      · split
        · exact ih hmember
        · exact List.subset_append_of_subset_right _ (ih hmember)

theorem Holds.objectsOf_subset (hholds : Holds outer inner) :
    objectsOf inner ⊆ objectsOfMembers outer := by
  cases hholds with
  | child hkey hmember hnode =>
      have hsubset := objectsIn_subset_objectsOfMembers hkey hmember
      rwa [objectsIn] at hsubset
  | item hkey hmember hitem hnode =>
      have hsubset := objectsIn_subset_objectsOfMembers hkey hmember
      rw [objectsIn] at hsubset
      exact List.Subset.trans (objectsOf_subset_objectsOfItems hitem) hsubset

theorem Holds.isNode (hholds : Holds outer inner) : IsNode inner := by
  cases hholds <;> assumption

/-- The objects of the listing are those that can be reached. -/
theorem mem_objectsOf_iff :
    object ∈ objectsOf members ↔ IsNode members ∧ Reaches members object := by
  refine ⟨reaches_of_mem_objectsOf members, ?_⟩
  rintro ⟨hnode, hreaches⟩
  induction hreaches using Relation.ReflTransGen.head_induction_on with
  | refl => simp [objectsOf_of_isNode hnode]
  | head hholds _ ih =>
      rw [objectsOf_of_isNode hnode]
      exact List.mem_append_left _ (hholds.objectsOf_subset (ih hholds.isNode))

theorem Reaches.isCanonical (hreaches : Reaches members object)
    (hcanonical : (Json.object members).IsCanonical) : (Json.object object).IsCanonical := by
  induction hreaches with
  | refl => exact hcanonical
  | tail _ hholds ih =>
      cases hholds with
      | child _ hmember _ => exact ih.of_object.2 _ hmember
      | item _ hmember hitem _ => exact (ih.of_object.2 _ hmember).of_list _ hitem

/-! ## The order of reading -/

mutual

/-- The nodes of a member, each before those below it. -/
def visitsIn : Json → List Members
  | .object members => visits members
  | .list items => visitsOfItems items
  | _ => []

def visitsOfItems : List Json → List Members
  | [] => []
  | item :: items => visitsOfItem item ++ visitsOfItems items

def visitsOfItem : Json → List Members
  | .object members => visits members
  | _ => []

def visitsOfMembers : Members → List Members
  | [] => []
  | (key, value) :: members =>
      if positionKeys.contains key then visitsOfMembers members
      else visitsIn value ++ visitsOfMembers members

/-- The nodes at and below an object, each before those below it. -/
def visits (members : Members) : List Members :=
  match typeName? members with
  | none => []
  | some _ => members :: visitsOfMembers members

end

theorem visits_of_isNode (hnode : IsNode members) :
    visits members = members :: visitsOfMembers members := by
  obtain ⟨typeName, htype⟩ := isNode_iff_exists.mp hnode
  rw [visits, htype]

theorem visits_of_not_isNode (hplain : ¬ IsNode members) : visits members = [] := by
  rw [visits, not_not.mp hplain]

mutual

theorem perm_visitsIn : ∀ value : Json, (visitsIn value).Perm (objectsIn value)
  | .object members => by
      rw [visitsIn, objectsIn]
      exact perm_visits members
  | .list items => by
      rw [visitsIn, objectsIn]
      exact perm_visitsOfItems items
  | .null | .bool _ | .int _ | .float _ | .str _ => by simp [visitsIn, objectsIn]

theorem perm_visitsOfItems : ∀ items : List Json,
    (visitsOfItems items).Perm (objectsOfItems items)
  | [] => by simp [visitsOfItems, objectsOfItems]
  | item :: items => by
      rw [visitsOfItems, objectsOfItems]
      exact (perm_visitsOfItem item).append (perm_visitsOfItems items)

theorem perm_visitsOfItem : ∀ item : Json, (visitsOfItem item).Perm (objectsOfItem item)
  | .object members => by
      rw [visitsOfItem, objectsOfItem]
      exact perm_visits members
  | .list _ | .null | .bool _ | .int _ | .float _ | .str _ => by simp [visitsOfItem, objectsOfItem]

theorem perm_visitsOfMembers : ∀ members : Members,
    (visitsOfMembers members).Perm (objectsOfMembers members)
  | [] => by simp [visitsOfMembers, objectsOfMembers]
  | (key, value) :: members => by
      rw [visitsOfMembers, objectsOfMembers]
      split
      next => exact perm_visitsOfMembers members
      next => exact (perm_visitsIn value).append (perm_visitsOfMembers members)

theorem perm_visits : ∀ members : Members, (visits members).Perm (objectsOf members)
  | members => by
      by_cases hnode : IsNode members
      · rw [visits_of_isNode hnode, objectsOf_of_isNode hnode]
        exact ((perm_visitsOfMembers members).cons members).trans
          (List.perm_append_singleton _ _).symm
      · rw [visits_of_not_isNode hnode, objectsOf_of_not_isNode hnode]

end

/-- The objects that are read are those that can be reached from a root that is a node. -/
theorem mem_visits_iff : object ∈ visits members ↔ IsNode members ∧ Reaches members object :=
  (perm_visits members).mem_iff.trans mem_objectsOf_iff

end Estree

end ReactiveLint
