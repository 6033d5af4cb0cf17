import ReactiveLint.Proofs.Syntax.Linking

/-!
# Arenas in post-order

Slots list the nodes below others, each node after those in its own slots.  An arena whose
nodes are numbered in this order from the root is a tree: every node has one place, and
the root leads to all of them.
-/

namespace ReactiveLint.Tree

variable {drafts : List NodeDraft} {ids first second listing before after : List NodeId}
  {root id : NodeId} {source : String}

/-- A listing of the nodes at and below some nodes, in which the nodes in the slots of
each stand before it. -/
inductive PostOrder (drafts : List NodeDraft) : List NodeId → List NodeId → Prop
  | nil : PostOrder drafts [] []
  | cons {id : NodeId} {draft : NodeDraft} {ids below after : List NodeId}
      (hdraft : drafts[id]? = some draft) (hbelow : PostOrder drafts draft.slotIds below)
      (hafter : PostOrder drafts ids after) : PostOrder drafts (id :: ids) (below ++ id :: after)

/-- The nodes in the slots of a node, none for an id outside the arena. -/
def slotIdsOf (drafts : List NodeDraft) (id : NodeId) : List NodeId :=
  (drafts[id]?.map (·.slotIds)).getD []

namespace PostOrder

theorem append (hfirst : PostOrder drafts first before) (hsecond : PostOrder drafts second after) :
    PostOrder drafts (first ++ second) (before ++ after) := by
  induction hfirst with
  | nil => exact hsecond
  | cons hdraft hbelow _ _ ih =>
      rw [List.append_assoc]
      exact .cons hdraft hbelow ih

/-- Every listed node is at the top or in a slot of a listed node, and only once. -/
theorem perm (horder : PostOrder drafts ids listing) :
    (listing.flatMap (slotIdsOf drafts) ++ ids).Perm listing := by
  induction horder with
  | nil => exact .refl _
  | @cons id draft ids below after hdraft _ _ ihbelow ihafter =>
      have hslots : slotIdsOf drafts id = draft.slotIds := by rw [slotIdsOf, hdraft]; rfl
      rw [List.flatMap_append, List.flatMap_cons, hslots]
      have hparts : (below.flatMap (slotIdsOf drafts) ++
          (draft.slotIds ++ after.flatMap (slotIdsOf drafts)) ++ id :: ids).Perm
            (id :: ((below.flatMap (slotIdsOf drafts) ++ draft.slotIds) ++
              (after.flatMap (slotIdsOf drafts) ++ ids))) := by
        refine List.perm_middle.trans (List.Perm.of_eq ?_)
        simp only [List.append_assoc]
      exact hparts.trans (((ihbelow.append ihafter).cons id).trans List.perm_middle.symm)

theorem exists_reachable (horder : PostOrder drafts ids listing) :
    ∀ id ∈ listing, ∃ top ∈ ids, Reachable drafts top id := by
  induction horder with
  | nil => simp
  | @cons id draft ids below after hdraft _ _ ihbelow ihafter =>
      intro node hnode
      rcases List.mem_append.mp hnode with hnode | hnode
      · obtain ⟨top, htop, hreachable⟩ := ihbelow node hnode
        refine ⟨id, List.mem_cons_self, .head ?_ hreachable⟩
        rw [← draft.map_child_links id] at htop
        obtain ⟨link, hlink, rfl⟩ := List.mem_map.mp htop
        obtain ⟨hparent, name, slot, hfield, hat⟩ := NodeDraft.mem_links_iff.mp hlink
        exact ⟨link.place, hparent,
          occupant?_eq_some_iff.mpr ⟨draft, name, slot, hparent ▸ hdraft, hfield, hat⟩⟩
      · rcases List.mem_cons.mp hnode with rfl | hnode
        · exact ⟨node, List.mem_cons_self, .refl⟩
        · obtain ⟨top, htop, hreachable⟩ := ihafter node hnode
          exact ⟨top, List.mem_cons_of_mem _ htop, hreachable⟩

end PostOrder

theorem map_child_allLinks (drafts : List NodeDraft) :
    (allLinks drafts).map (·.child) =
      (List.range drafts.length).flatMap (slotIdsOf drafts) := by
  have hids : List.range drafts.length = drafts.zipIdx.map Prod.snd := by
    rw [List.zipIdx_map_snd, List.range_eq_range']
  rw [allLinks, List.map_flatMap, hids, List.flatMap_map]
  refine List.flatMap_congr fun pair hpair => ?_
  rw [NodeDraft.map_child_links, slotIdsOf, List.mem_zipIdx_iff_getElem?.mp hpair]
  rfl

namespace PostOrder

variable (horder : PostOrder drafts [root] (List.range drafts.length))

include horder

/-- The nodes in slots are all but the root, each once. -/
theorem perm_children :
    ((allLinks drafts).map (·.child) ++ [root]).Perm (List.range drafts.length) := by
  rw [map_child_allLinks]
  exact horder.perm

/-- An arena that is numbered in post-order makes a tree if its spans lie in the source. -/
theorem linkable
    (hspans : ∀ draft ∈ drafts, draft.span.FitsIn (Text.byteLength source.toList)) :
    Linkable drafts root source := by
  have hperm := horder.perm_children
  have hnodup : ((allLinks drafts).map (·.child) ++ [root]).Nodup :=
    hperm.nodup_iff.mpr List.nodup_range
  have hchild : ∀ place id, occupant? drafts place = some id →
      id ∈ (allLinks drafts).map (·.child) := fun place id hplace =>
    List.mem_map.mpr ⟨⟨place, id⟩, mem_allLinks_iff.mpr hplace, rfl⟩
  obtain ⟨hchildren, -, hapart⟩ := List.nodup_append.mp hnodup
  constructor
  · exact List.mem_range.mp (hperm.subset (by simp))
  · exact hspans
  · intro place id hplace
    exact List.mem_range.mp (hperm.subset (List.mem_append_left _ (hchild place id hplace)))
  · intro place hplace
    exact hapart root (hchild place root hplace) root (List.mem_singleton_self root) rfl
  · exact nodup_children_iff.mp hchildren
  · intro id hid
    obtain ⟨top, htop, hreachable⟩ := horder.exists_reachable id (List.mem_range.mpr hid)
    rwa [List.mem_singleton.mp htop] at hreachable

/-- Such an arena is refused only for a span. -/
theorem build?_eq_error {error : TreeError} (hbuild : build? drafts root source = .error error) :
    ∃ draft ∈ drafts, error = .spanOutOfBounds draft.span (Text.byteLength source.toList) := by
  have hroot : root < drafts.length := List.mem_range.mp (horder.perm_children.subset (by simp))
  cases hspans : checkSpans drafts (Text.byteLength source.toList) with
  | ok =>
      obtain ⟨tree, htree⟩ :=
        exists_build?_iff.mpr (horder.linkable (checkSpans_eq_ok_iff.mp hspans))
      rw [htree] at hbuild
      simp at hbuild
  | error found =>
      have hfound : found = error := by
        simpa [build?, Nat.not_le_of_lt hroot, hspans, bind, Except.bind] using hbuild
      subst hfound
      rw [checkSpans] at hspans
      split at hspans
      next draft hdraft =>
        exact ⟨draft, List.mem_of_find?_eq_some hdraft, (Except.error.inj hspans).symm⟩
      next => simp at hspans

end PostOrder

end ReactiveLint.Tree
