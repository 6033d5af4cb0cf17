import Mathlib.Data.List.Forall2
import ReactiveLint.Proofs.Syntax.PostOrder

/-!
# Growing arenas

A reader or a writer of trees adds the nodes for some listed things to the end of an arena,
each node after those in its slots.  What a node shows may depend on where the things stand
in the whole listing and the nodes in the whole arena, so both are left open until the end.
-/

namespace ReactiveLint

/-- A part of a list that starts at a position. -/
def Occurs {A : Type} (part : List A) (first : Nat) (whole : List A) : Prop :=
  ∀ index item, part[index]? = some item → whole[first + index]? = some item

theorem occurs_append_iff {A : Type} {left right whole : List A} {first : Nat} :
    Occurs (left ++ right) first whole ↔
      Occurs left first whole ∧ Occurs right (first + left.length) whole := by
  constructor
  · intro hoccurs
    refine ⟨fun index item hitem => ?_, fun index item hitem => ?_⟩
    · have hlt := (List.getElem?_eq_some_iff.mp hitem).1
      exact hoccurs index item (by rwa [List.getElem?_append_left hlt])
    · rw [Nat.add_assoc]
      refine hoccurs _ item ?_
      rwa [List.getElem?_append_right (Nat.le_add_right _ _), Nat.add_sub_cancel_left]
  · rintro ⟨hleft, hright⟩ index item hitem
    by_cases hlt : index < left.length
    · exact hleft index item (by rwa [List.getElem?_append_left hlt] at hitem)
    · have hle := Nat.le_of_not_lt hlt
      rw [List.getElem?_append_right hle] at hitem
      have hitem := hright _ item hitem
      rwa [Nat.add_assoc, Nat.add_sub_cancel' hle] at hitem

theorem occurs_self {A : Type} (items : List A) : Occurs items 0 items := by
  intro index item hitem
  rwa [Nat.zero_add]

namespace Tree

variable {A : Type} {shows : List A → List NodeDraft → A → NodeDraft → Prop}
  {arena arena' arena'' new more : List NodeDraft} {things others : List A} {thing : A}
  {ids moreIds : List NodeId} {first : Nat} {fact factToo : List A → List NodeDraft → Prop}

/-- New drafts show some things, wherever in a listing and in an arena these stand; and they
are in post-order below some ids. -/
structure Lays (shows : List A → List NodeDraft → A → NodeDraft → Prop) (first : Nat)
    (things : List A) (new : List NodeDraft) (ids : List NodeId) : Prop where
  length_eq : things.length = new.length
  shown : ∀ all whole, Occurs things first all → Occurs new first whole →
    List.Forall₂ (shows all whole) things new
  postOrder : ∀ whole, Occurs new first whole →
    PostOrder whole ids (List.range' first new.length)

namespace Lays

theorem nil (first : Nat) : Lays shows first [] [] [] :=
  ⟨rfl, fun _ _ _ _ => .nil, fun _ _ => .nil⟩

theorem append (hfirst : Lays shows first things new ids)
    (hsecond : Lays shows (first + new.length) others more moreIds) :
    Lays shows first (things ++ others) (new ++ more) (ids ++ moreIds) := by
  refine ⟨?_, fun all whole hall hwhole => ?_, fun whole hwhole => ?_⟩
  · rw [List.length_append, List.length_append, hfirst.length_eq, hsecond.length_eq]
  · obtain ⟨hthings, hothers⟩ := occurs_append_iff.mp hall
    obtain ⟨hnew, hmore⟩ := occurs_append_iff.mp hwhole
    rw [hfirst.length_eq] at hothers
    exact List.rel_append (hfirst.shown all whole hthings hnew)
      (hsecond.shown all whole hothers hmore)
  · obtain ⟨hnew, hmore⟩ := occurs_append_iff.mp hwhole
    rw [List.length_append, ← List.range'_append_1]
    exact (hfirst.postOrder whole hnew).append (hsecond.postOrder whole hmore)

/-- A node after the nodes in its slots. -/
theorem node {draft : NodeDraft} (hbelow : Lays shows first things new draft.slotIds)
    (hdraft : ∀ all whole, Occurs things first all → Occurs new first whole →
      shows all whole thing draft) :
    Lays shows first (things ++ [thing]) (new ++ [draft]) [first + new.length] := by
  refine ⟨?_, fun all whole hall hwhole => ?_, fun whole hwhole => ?_⟩
  · rw [List.length_append, List.length_append, hbelow.length_eq]
    rfl
  · have hthings := (occurs_append_iff.mp hall).1
    have hnew := (occurs_append_iff.mp hwhole).1
    exact List.rel_append (hbelow.shown all whole hthings hnew)
      (.cons (hdraft all whole hthings hnew) .nil)
  · obtain ⟨hnew, hlast⟩ := occurs_append_iff.mp hwhole
    have hid : whole[first + new.length]? = some draft := hlast 0 draft rfl
    rw [List.length_append, List.length_singleton, List.range'_1_concat]
    exact .cons hid (hbelow.postOrder whole hnew) .nil

end Lays

/-- An arena has been extended by the nodes of some things, and something holds of their
numbers in a listing and in an arena. -/
def Extends (shows : List A → List NodeDraft → A → NodeDraft → Prop)
    (arena arena' : List NodeDraft) (things : List A) (ids : List NodeId)
    (fact : List A → List NodeDraft → Prop) : Prop :=
  ∃ new, arena' = arena ++ new ∧ Lays shows arena.length things new ids ∧
    ∀ all whole, Occurs things arena.length all → Occurs new arena.length whole → fact all whole

namespace Extends

theorem length_eq (hextends : Extends shows arena arena' things ids fact) :
    arena'.length = arena.length + things.length := by
  obtain ⟨new, rfl, hlays, -⟩ := hextends
  rw [List.length_append, hlays.length_eq]

theorem nothing (hfact : ∀ all whole, fact all whole) :
    Extends shows arena arena [] [] fact :=
  ⟨[], (List.append_nil arena).symm, .nil _, fun all whole _ _ => hfact all whole⟩

theorem imp (hextends : Extends shows arena arena' things ids fact)
    (himp : ∀ all whole, fact all whole → factToo all whole) :
    Extends shows arena arena' things ids factToo := by
  obtain ⟨new, hnew, hlays, hfact⟩ := hextends
  exact ⟨new, hnew, hlays, fun all whole hall hwhole =>
    himp all whole (hfact all whole hall hwhole)⟩

theorem append (hfirst : Extends shows arena arena' things ids fact)
    (hsecond : Extends shows arena' arena'' others moreIds factToo) :
    Extends shows arena arena'' (things ++ others) (ids ++ moreIds)
      fun all whole => fact all whole ∧ factToo all whole := by
  obtain ⟨new, rfl, hlays, hfact⟩ := hfirst
  obtain ⟨more, rfl, hmore, hfactToo⟩ := hsecond
  rw [List.length_append] at hmore hfactToo
  refine ⟨new ++ more, List.append_assoc .., hlays.append hmore, fun all whole hall hwhole => ?_⟩
  obtain ⟨hthings, hothers⟩ := occurs_append_iff.mp hall
  obtain ⟨hnew, hrest⟩ := occurs_append_iff.mp hwhole
  rw [hlays.length_eq] at hothers
  exact ⟨hfact all whole hthings hnew, hfactToo all whole hothers hrest⟩

/-- A node is added after the nodes in its slots. -/
theorem node {draft : NodeDraft}
    (hbelow : Extends shows arena arena' things draft.slotIds fun all whole =>
      shows all whole thing draft) :
    Extends shows arena (arena' ++ [draft]) (things ++ [thing]) [arena'.length]
      fun all whole => all[arena'.length]? = some thing ∧ whole[arena'.length]? = some draft := by
  obtain ⟨new, rfl, hlays, hfact⟩ := hbelow
  rw [List.length_append]
  refine ⟨new ++ [draft], List.append_assoc .., hlays.node hfact, fun all whole hall hwhole =>
    ⟨?_, (occurs_append_iff.mp hwhole).2 0 draft rfl⟩⟩
  rw [← hlays.length_eq]
  exact (occurs_append_iff.mp hall).2 0 thing rfl

/-- The whole of a listing and of an arena that was empty before. -/
theorem whole (hextends : Extends shows [] arena' things ids fact) :
    Lays shows 0 things arena' ids ∧ fact things arena' := by
  obtain ⟨new, hnew, hlays, hfact⟩ := hextends
  rw [List.nil_append] at hnew
  subst hnew
  exact ⟨hlays, hfact things arena' (occurs_self _) (occurs_self _)⟩

theorem shown (hextends : Extends shows [] arena' things ids fact) :
    List.Forall₂ (shows things arena') things arena' :=
  hextends.whole.1.shown _ _ (occurs_self _) (occurs_self _)

theorem postOrder (hextends : Extends shows [] arena' things ids fact) :
    PostOrder arena' ids (List.range arena'.length) := by
  rw [List.range_eq_range']
  exact hextends.whole.1.postOrder _ (occurs_self _)

end Extends

/-! ## Growth whatever the slots are -/

/-- An arena has grown by one node for each of some things, and something holds of where these
stand in a listing and in an arena. -/
def Grows (arena arena' : List NodeDraft) (things : List A)
    (fact : List A → List NodeDraft → Prop) : Prop :=
  ∃ new, arena' = arena ++ new ∧ things.length = new.length ∧
    ∀ all whole, Occurs things arena.length all → Occurs new arena.length whole → fact all whole

namespace Grows

theorem length_eq (hgrows : Grows arena arena' things fact) :
    arena'.length = arena.length + things.length := by
  obtain ⟨new, rfl, hlength, -⟩ := hgrows
  rw [List.length_append, hlength]

theorem nothing (hfact : ∀ all whole, fact all whole) : Grows arena arena ([] : List A) fact :=
  ⟨[], (List.append_nil arena).symm, rfl, fun all whole _ _ => hfact all whole⟩

theorem imp (hgrows : Grows arena arena' things fact)
    (himp : ∀ all whole, fact all whole → factToo all whole) :
    Grows arena arena' things factToo := by
  obtain ⟨new, hnew, hlength, hfact⟩ := hgrows
  exact ⟨new, hnew, hlength, fun all whole hall hwhole =>
    himp all whole (hfact all whole hall hwhole)⟩

theorem and (hgrows : Grows arena arena' things fact) (htoo : Grows arena arena' things factToo) :
    Grows arena arena' things fun all whole => fact all whole ∧ factToo all whole := by
  obtain ⟨new, rfl, hlength, hfact⟩ := hgrows
  obtain ⟨new', hnew', -, hfactToo⟩ := htoo
  obtain rfl := List.append_cancel_left hnew'
  exact ⟨new, rfl, hlength, fun all whole hall hwhole =>
    ⟨hfact all whole hall hwhole, hfactToo all whole hall hwhole⟩⟩

theorem append (hfirst : Grows arena arena' things fact)
    (hsecond : Grows arena' arena'' others factToo) :
    Grows arena arena'' (things ++ others) fun all whole => fact all whole ∧ factToo all whole := by
  obtain ⟨new, rfl, hlength, hfact⟩ := hfirst
  obtain ⟨more, rfl, hmore, hfactToo⟩ := hsecond
  rw [List.length_append] at hfactToo
  refine ⟨new ++ more, List.append_assoc .., by simp [hlength, hmore], ?_⟩
  intro all whole hall hwhole
  obtain ⟨hthings, hothers⟩ := occurs_append_iff.mp hall
  obtain ⟨hnew, hrest⟩ := occurs_append_iff.mp hwhole
  rw [hlength] at hothers
  exact ⟨hfact all whole hthings hnew, hfactToo all whole hothers hrest⟩

/-- One more node is added for one more thing. -/
theorem add (hgrows : Grows arena arena' things fact) (thing : A) (draft : NodeDraft) :
    Grows arena (arena' ++ [draft]) (things ++ [thing]) fun all whole =>
      fact all whole ∧ all[arena'.length]? = some thing ∧ whole[arena'.length]? = some draft := by
  refine hgrows.append ⟨[draft], rfl, rfl, fun all whole hall hwhole => ?_⟩
  exact ⟨hall 0 thing rfl, hwhole 0 draft rfl⟩

theorem whole (hgrows : Grows [] arena' things fact) : fact things arena' := by
  obtain ⟨new, rfl, -, hfact⟩ := hgrows
  exact hfact things _ (occurs_self _) (occurs_self _)

end Grows

/-- The nodes of an extension are reached from its top nodes. -/
theorem Extends.grows {shows : List A → List NodeDraft → A → NodeDraft → Prop} {ids : List NodeId}
    (hextends : Extends shows arena arena' things ids fact) :
    Grows arena arena' things fun _ whole =>
      ∀ id ∈ List.range' arena.length things.length, ∃ top ∈ ids, Reachable whole top id := by
  obtain ⟨new, rfl, hlays, -⟩ := hextends
  refine ⟨new, rfl, hlays.length_eq, fun all whole _ hwhole => ?_⟩
  rw [hlays.length_eq]
  exact (hlays.postOrder whole hwhole).exists_reachable

end Tree

end ReactiveLint
