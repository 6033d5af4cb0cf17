import Mathlib.Logic.Relation
import ReactiveLint.Proofs.Syntax.Ancestry
import ReactiveLint.Proofs.Syntax.Occupant

/-!
# Which arenas make a tree

`Tree.build?` links an arena in three passes: it gives every linked node its place,
it climbs from every node to the root, and it orders the children.  The first pass
succeeds exactly when no link is dangling, leads to the root or shares its node, and
then the places are the slot positions of the arena; the second one exactly when
every node can be reached from the root.
-/

namespace ReactiveLint.Tree

variable {drafts : List NodeDraft} {root : NodeId}

/-! ## Places -/

/-- Links can be given places when they lead to free nodes other than the root, each
to its own. -/
theorem exists_assignPlaces_iff {links : List Link} {places : Array (Option Place)} :
    (∃ linked, assignPlaces root links places = .ok linked) ↔
      (∀ link ∈ links, link.child ≠ root ∧ places[link.child]? = some none) ∧
        (links.map (·.child)).Nodup := by
  induction links generalizing places with
  | nil => simp [assignPlaces]
  | cons link links ih =>
      simp only [assignPlaces, List.forall_mem_cons, List.map_cons, List.nodup_cons]
      cases htaken : places[link.child]? with
      | none => simp
      | some taken =>
          by_cases hrefused : link.child = root ∨ taken.isSome
          · simp only [hrefused, if_true, reduceCtorEq, exists_const, false_iff]
            rintro ⟨⟨⟨hroot, hfree⟩, -⟩, -⟩
            rcases hrefused with hchild | hsome
            · exact hroot hchild
            · simp_all
          · simp only [hrefused, if_false, ih]
            obtain ⟨hroot, hnone⟩ := not_or.mp hrefused
            obtain rfl : taken = none := by simpa using hnone
            have hbound : link.child < places.size := (Array.getElem?_eq_some_iff.mp htaken).1
            -- a free place stays free exactly when the new link leads elsewhere
            have hfree (child : NodeId) :
                (places.setIfInBounds link.child (some link.place))[child]? = some none ↔
                  child ≠ link.child ∧ places[child]? = some none := by
              rw [Array.getElem?_setIfInBounds]
              by_cases hsame : link.child = child
              · simp [hsame, hsame ▸ hbound]
              · simp [hsame, Ne.symm hsame]
            simp only [hfree, hroot, ne_eq, not_false_eq_true, and_self, true_and,
              List.mem_map, not_exists, not_and]
            constructor
            · rintro ⟨hlinks, hnodup⟩
              exact ⟨fun other hother => ⟨(hlinks other hother).1, (hlinks other hother).2.2⟩,
                fun other hother => (hlinks other hother).2.1, hnodup⟩
            · rintro ⟨hlinks, hapart, hnodup⟩
              exact ⟨fun other hother => ⟨(hlinks other hother).1, hapart other hother,
                (hlinks other hother).2⟩, hnodup⟩

/-- Only links give places, and each gives its own. -/
theorem assignPlaces_eq_ok {links : List Link} {places linked : Array (Option Place)}
    (hlinked : assignPlaces root links places = .ok linked) :
    linked.size = places.size ∧
      ∀ id place, linked[id]?.join = some place ↔
        ⟨place, id⟩ ∈ links ∨ places[id]?.join = some place := by
  induction links generalizing places with
  | nil =>
      obtain rfl : places = linked := by simpa [assignPlaces] using hlinked
      simp
  | cons link links ih =>
      rw [assignPlaces] at hlinked
      cases htaken : places[link.child]? with
      | none => simp [htaken] at hlinked
      | some taken =>
          simp only [htaken] at hlinked
          split at hlinked
          next => simp at hlinked
          next hrefused =>
            obtain ⟨hsize, hplaces⟩ := ih hlinked
            refine ⟨by simpa using hsize, fun id place => ?_⟩
            obtain rfl : taken = none := by simpa using (not_or.mp hrefused).2
            obtain ⟨hbound, hfree⟩ := Array.getElem?_eq_some_iff.mp htaken
            rw [hplaces, List.mem_cons, Array.getElem?_setIfInBounds]
            by_cases hsame : link.child = id
            · subst hsame
              have hlink : (⟨place, link.child⟩ : Link) = link ↔ link.place = place := by
                cases link
                simp [eq_comm]
              simp [hbound, hfree, hlink, or_comm]
            · have hlink : (⟨place, id⟩ : Link) ≠ link := by
                rintro rfl
                exact hsame rfl
              simp [hsame, hlink]

/-- The places of an arena are its slot positions, read backwards. -/
theorem place_eq_some_iff {linked : Array (Option Place)}
    (hlinked : assignPlaces root (allLinks drafts) (Array.replicate drafts.length none) =
      .ok linked) (id : NodeId) (place : Place) :
    linked[id]?.join = some place ↔ occupant? drafts place = some id := by
  rw [(assignPlaces_eq_ok hlinked).2, mem_allLinks_iff]
  have hfree : ((Array.replicate drafts.length (none : Option Place))[id]?).join = none := by
    rw [Array.getElem?_replicate]
    split <;> rfl
  simp [hfree]

/-! ## The way to the root -/

/-- One node holds another in a slot. -/
def Holds (drafts : List NodeDraft) (parent child : NodeId) : Prop :=
  ∃ place, place.parent = parent ∧ occupant? drafts place = some child

/-- Slots lead from one node to another. -/
def Reachable (drafts : List NodeDraft) : NodeId → NodeId → Prop :=
  Relation.ReflTransGen (Holds drafts)

/-- The parents that places record. -/
def parentIn (places : Array (Option Place)) (id : NodeId) : Option NodeId :=
  places[id]?.join.map (·.parent)

theorem parentChain_eq_climb (places : Array (Option Place)) (fuel : Nat) (id : NodeId) :
    parentChain places fuel id = Ancestry.climb (parentIn places) fuel id := by
  induction fuel generalizing id with
  | zero => rfl
  | succ fuel ih =>
      rw [parentChain, Ancestry.climb, parentIn]
      cases places[id]?.join with
      | none => rfl
      | some place => simp [ih]

section Linked

variable {linked : Array (Option Place)}
  (hlinked : assignPlaces root (allLinks drafts) (Array.replicate drafts.length none) =
    .ok linked)

include hlinked

theorem size_linked : linked.size = drafts.length := by
  simpa using (assignPlaces_eq_ok hlinked).1

theorem parentIn_eq_some_iff {id parent : NodeId} :
    parentIn linked id = some parent ↔ Holds drafts parent id := by
  simp only [parentIn, Option.map_eq_some_iff, place_eq_some_iff hlinked, Holds, and_comm]

theorem root_unoccupied (place : Place) : occupant? drafts place ≠ some root := by
  intro hplace
  have hlink : (⟨place, root⟩ : Link) ∈ allLinks drafts := mem_allLinks_iff.mpr hplace
  exact ((exists_assignPlaces_iff.mp ⟨linked, hlinked⟩).1 _ hlink).1 rfl

theorem parentIn_root : parentIn linked root = none := by
  rw [Option.eq_none_iff_forall_ne_some]
  intro parent hparent
  obtain ⟨place, -, hplace⟩ := (parentIn_eq_some_iff hlinked).mp hparent
  exact root_unoccupied hlinked place hplace

theorem parentIn_lt {id parent : NodeId} (hparent : parentIn linked id = some parent) :
    parent < drafts.length := by
  obtain ⟨place, rfl, hplace⟩ := (parentIn_eq_some_iff hlinked).mp hparent
  exact parent_lt_of_occupant? hplace

/-- A node that slots lead to from the root climbs back to it, and conversely. -/
theorem reachable_iff_rises {id : NodeId} :
    Reachable drafts root id ↔ ∃ steps, Ancestry.Rises (parentIn linked) root steps id := by
  constructor
  · intro hreachable
    induction hreachable with
    | refl => exact ⟨0, .root⟩
    | tail _ hholds ih =>
        obtain ⟨steps, hrises⟩ := ih
        exact ⟨steps + 1, .step ((parentIn_eq_some_iff hlinked).mpr hholds) hrises⟩
  · rintro ⟨steps, hrises⟩
    induction hrises with
    | root => exact .refl
    | step hparent _ ih => exact ih.tail ((parentIn_eq_some_iff hlinked).mp hparent)

theorem checkReachable_eq_ok_iff :
    checkReachable root linked = .ok () ↔ ∀ id < drafts.length, Reachable drafts root id := by
  have hclimb : checkReachable root linked = .ok () ↔
      ∀ id < drafts.length, root ∈ id :: Ancestry.climb (parentIn linked) linked.size id := by
    rw [checkReachable]
    split
    next id hfound =>
      have hid : id < drafts.length := by
        have := List.mem_of_find?_eq_some hfound
        rwa [List.mem_range, size_linked hlinked] at this
      have hlost := List.find?_some hfound
      simp only [parentChain_eq_climb, Bool.not_eq_true', Bool.or_eq_false_iff, beq_eq_false_iff_ne,
        List.contains_eq_mem, decide_eq_false_iff_not] at hlost
      simp only [reduceCtorEq, false_iff, not_forall]
      refine ⟨id, hid, ?_⟩
      rw [List.mem_cons, not_or]
      exact ⟨Ne.symm hlost.1, hlost.2⟩
    next hnone =>
      simp only [true_iff]
      intro id hid
      have hreaches := List.find?_eq_none.mp hnone id
        (by rwa [List.mem_range, size_linked hlinked])
      simp only [parentChain_eq_climb, Bool.not_eq_true, Bool.not_eq_false', Bool.or_eq_true,
        beq_iff_eq, List.contains_eq_mem, decide_eq_true_eq] at hreaches
      exact List.mem_cons.mpr (hreaches.imp_left Eq.symm)
  rw [hclimb]
  refine forall₂_congr fun id hid => ?_
  rw [reachable_iff_rises hlinked]
  refine ⟨Ancestry.rises_of_mem_climb, ?_⟩
  rintro ⟨steps, hrises⟩
  have hsteps : steps < linked.size := by
    refine hrises.lt_size (parentIn_root hlinked) ?_ (by rwa [size_linked hlinked])
    intro below above habove
    rw [size_linked hlinked]
    exact parentIn_lt hlinked habove
  rw [hrises.climb_eq (parentIn_root hlinked) (Nat.le_of_lt hsteps)]
  exact hrises.mem_climb_self

end Linked

/-! ## Success -/

/-- An arena and a root that make one tree over a source. -/
structure Linkable (drafts : List NodeDraft) (root : NodeId) (source : String) : Prop where
  root_lt : root < drafts.length
  fitsIn : ∀ draft ∈ drafts, draft.span.FitsIn (Text.byteLength source.toList)
  occupant_lt : ∀ place id, occupant? drafts place = some id → id < drafts.length
  root_unoccupied : ∀ place, occupant? drafts place ≠ some root
  place_unique : ∀ first second id, occupant? drafts first = some id →
    occupant? drafts second = some id → first = second
  reachable : ∀ id < drafts.length, Reachable drafts root id

/-- The tree of linked drafts. -/
def assembled (drafts : List NodeDraft) (linked : Array (Option Place)) (root : NodeId)
    (source : String) : Tree where
  nodes := (drafts.zipIdx.map fun (draft, id) =>
    { draft with
      place := linked[id]?.join
      children := orderedChildren drafts.toArray draft id }).toArray
  root := root
  source := source

theorem checkSpans_eq_ok_iff {size : Nat} :
    checkSpans drafts size = .ok () ↔ ∀ draft ∈ drafts, draft.span.FitsIn size := by
  rw [checkSpans]
  split
  next draft hfound =>
    simp only [reduceCtorEq, false_iff, not_forall]
    exact ⟨draft, List.mem_of_find?_eq_some hfound, by simpa using List.find?_some hfound⟩
  next hnone =>
    simp only [true_iff]
    intro draft hdraft
    simpa using List.find?_eq_none.mp hnone draft hdraft

theorem build?_eq_ok_iff {source : String} {tree : Tree} :
    build? drafts root source = .ok tree ↔
      root < drafts.length ∧
      (∀ draft ∈ drafts, draft.span.FitsIn (Text.byteLength source.toList)) ∧
      ∃ linked,
        assignPlaces root (allLinks drafts) (Array.replicate drafts.length none) =
          .ok linked ∧
        checkReachable root linked = .ok () ∧ tree = assembled drafts linked root source := by
  by_cases hroot : drafts.length ≤ root
  · simp [build?, hroot, throw, throwThe, MonadExceptOf.throw, bind, Except.bind,
      Nat.not_lt_of_le hroot]
  · rw [← checkSpans_eq_ok_iff]
    cases hspans : checkSpans drafts (Text.byteLength source.toList) with
    | error e => simp [build?, hroot, hspans, bind, Except.bind]
    | ok =>
        cases hlinked : assignPlaces root (allLinks drafts)
          (Array.replicate drafts.length none) with
        | error e => simp [build?, hroot, hspans, hlinked, bind, Except.bind]
        | ok linked =>
            cases hreachable : checkReachable root linked with
            | error e =>
                simp [build?, hroot, hspans, hlinked, hreachable, bind, Except.bind]
            | ok =>
                simp [build?, hroot, hspans, hlinked, hreachable, bind, Except.bind, pure,
                  Except.pure, assembled, eq_comm, Nat.lt_of_not_le hroot]

theorem exists_build?_iff {source : String} :
    (∃ tree, build? drafts root source = .ok tree) ↔ Linkable drafts root source := by
  have hlinks : (∃ linked, assignPlaces root (allLinks drafts)
      (Array.replicate drafts.length none) = .ok linked) ↔
        (∀ place id, occupant? drafts place = some id → id < drafts.length) ∧
        (∀ place, occupant? drafts place ≠ some root) ∧
        ∀ first second id, occupant? drafts first = some id →
          occupant? drafts second = some id → first = second := by
    rw [exists_assignPlaces_iff, nodup_children_iff, ← and_assoc]
    refine and_congr_left' ⟨fun hchildren => ⟨?_, ?_⟩, ?_⟩
    · intro place id hplace
      have hfree := (hchildren ⟨place, id⟩ (mem_allLinks_iff.mpr hplace)).2
      rw [Array.getElem?_replicate] at hfree
      by_contra hid
      simp [hid] at hfree
    · intro place hplace
      exact (hchildren ⟨place, root⟩ (mem_allLinks_iff.mpr hplace)).1 rfl
    · rintro ⟨hbound, hroot⟩ link hlink
      have hplace := mem_allLinks_iff.mp hlink
      refine ⟨fun hchild => hroot link.place (hchild ▸ hplace), ?_⟩
      rw [Array.getElem?_replicate, if_pos (hbound _ _ hplace)]
  constructor
  · rintro ⟨tree, htree⟩
    obtain ⟨hroot, hspans, linked, hlinked, hreachable, -⟩ := build?_eq_ok_iff.mp htree
    obtain ⟨hbound, hfree, hunique⟩ := hlinks.mp ⟨linked, hlinked⟩
    exact ⟨hroot, hspans, hbound, hfree, hunique,
      (checkReachable_eq_ok_iff hlinked).mp hreachable⟩
  · intro h
    obtain ⟨linked, hlinked⟩ :=
      hlinks.mpr ⟨h.occupant_lt, h.root_unoccupied, h.place_unique⟩
    exact ⟨_, build?_eq_ok_iff.mpr ⟨h.root_lt, h.fitsIn, linked, hlinked,
      (checkReachable_eq_ok_iff hlinked).mpr h.reachable, rfl⟩⟩

end ReactiveLint.Tree
