import ReactiveLint.Proofs.Syntax.Descent
import ReactiveLint.Selector.Match

/-!
# The nearest node above

In a built tree the chain of parents of a node has the nodes above it, and each of them
is within those behind it.  What a search along the chain finds first is the nearest
node above that fits.
-/

namespace ReactiveLint

namespace Ancestry

variable {parentOf : NodeId → Option NodeId} {root id next : NodeId} {rest left right : List NodeId}

namespace IsLineage

theorem tail (hlineage : IsLineage parentOf root (id :: next :: rest)) :
    IsLineage parentOf root (next :: rest) where
  isChain := (List.isChain_cons_cons.mp hlineage.isChain).2
  nodup := hlineage.nodup.tail
  getLast?_eq := by rw [← hlineage.getLast?_eq, List.getLast?_cons_cons]

theorem parent?_eq (hlineage : IsLineage parentOf root (id :: next :: rest)) :
    parentOf id = some next :=
  (List.isChain_cons_cons.mp hlineage.isChain).1

/-- There is one chain from a node to the root. -/
theorem unique (hroot : parentOf root = none) (hleft : IsLineage parentOf root (id :: left))
    (hright : IsLineage parentOf root (id :: right)) : left = right := by
  induction left generalizing id right with
  | nil =>
      obtain rfl : id = root := by simpa using hleft.getLast?_eq
      cases right with
      | nil => rfl
      | cons next rest => exact absurd (hroot.symm.trans hright.parent?_eq) (by simp)
  | cons next left ih =>
      cases right with
      | nil =>
          obtain rfl : id = root := by simpa using hright.getLast?_eq
          exact absurd (hroot.symm.trans hleft.parent?_eq) (by simp)
      | cons other right =>
          obtain rfl : next = other :=
            Option.some.inj (hleft.parent?_eq.symm.trans hright.parent?_eq)
          rw [ih hleft.tail hright.tail]

end IsLineage

end Ancestry

namespace Tree

variable {tree : Tree} {id above other parent : NodeId} {fits : NodeId → Prop}

/-- A node is higher up than another. -/
def Above (tree : Tree) : NodeId → NodeId → Prop :=
  Relation.TransGen fun lower upper => tree.parent? lower = some upper

/-- The first node that fits on the way from a node to the root. -/
structure IsNearest (tree : Tree) (fits : NodeId → Prop) (id above : NodeId) : Prop where
  isAbove : tree.Above id above
  fit : fits above
  nearest : ∀ other, tree.Above id other → fits other → tree.Within above other

theorem Above.lt_size (hbuilt : tree.IsBuilt) (habove : tree.Above id above) :
    above < tree.size := by
  obtain ⟨_, -, hparent⟩ := Relation.TransGen.tail'_iff.mp habove
  exact hbuilt.parent?_lt hparent

theorem Above.lower_lt_size (hbuilt : tree.IsBuilt) (habove : tree.Above id above) :
    id < tree.size := by
  obtain ⟨_, hparent, -⟩ := Relation.TransGen.head'_iff.mp habove
  exact hbuilt.lt_of_parent? hparent

theorem Within.antisymm (hbuilt : tree.IsBuilt) (hid : id < tree.size)
    (hup : tree.Within id above) (hdown : tree.Within above id) : id = above := by
  obtain ⟨steps, -, hrises⟩ := hbuilt.exists_rises hid
  obtain ⟨more, hmore, habove⟩ := hdown.exists_rises hrises
  obtain ⟨most, hmost, hid'⟩ := hup.exists_rises habove
  have hunique := hrises.unique hbuilt.parent?_root hid'
  obtain rfl : steps = more := by omega
  exact hup.eq_of_rises hbuilt hrises habove

theorem IsNearest.unique (hbuilt : tree.IsBuilt) (habove : tree.IsNearest fits id above)
    (hother : tree.IsNearest fits id other) : above = other :=
  Within.antisymm hbuilt (habove.isAbove.lt_size hbuilt)
    (habove.nearest other hother.isAbove hother.fit) (hother.nearest above habove.isAbove habove.fit)

theorem ancestors_of_parent?_eq_none (hparent : tree.parent? id = none) :
    tree.ancestors id = [] := by
  rw [ancestors]
  cases tree.nodes.size <;> simp [ancestorsWithin, hparent]

namespace IsBuilt

theorem ancestors_of_parent? (hbuilt : tree.IsBuilt) (hparent : tree.parent? id = some parent) :
    tree.ancestors id = parent :: tree.ancestors parent := by
  have hid := hbuilt.isLineage_ancestors (hbuilt.lt_of_parent? hparent)
  have hup := hbuilt.isLineage_ancestors (hbuilt.parent?_lt hparent)
  cases hancestors : tree.ancestors id with
  | nil =>
      rw [hancestors] at hid
      obtain rfl : id = tree.root := by simpa using hid.getLast?_eq
      exact absurd (hbuilt.parent?_root.symm.trans hparent) (by simp)
  | cons next rest =>
      rw [hancestors] at hid
      obtain rfl : next = parent := Option.some.inj (hid.parent?_eq.symm.trans hparent)
      rw [hid.tail.unique hbuilt.parent?_root hup]

theorem pairwise_ancestors (hbuilt : tree.IsBuilt) (hid : id < tree.size) :
    (id :: tree.ancestors id).Pairwise tree.Above := by
  have htrans : Trans tree.Above tree.Above tree.Above := ⟨Relation.TransGen.trans⟩
  have hchain : (id :: tree.ancestors id).IsChain tree.Above :=
    (hbuilt.isLineage_ancestors hid).isChain.imp fun _ _ hparent => .single hparent
  exact hchain.pairwise

theorem mem_ancestors_iff (hbuilt : tree.IsBuilt) (hid : id < tree.size) :
    above ∈ tree.ancestors id ↔ tree.Above id above := by
  constructor
  · intro hmem
    exact (List.pairwise_cons.mp (hbuilt.pairwise_ancestors hid)).1 above hmem
  · intro habove
    induction habove using Relation.TransGen.head_induction_on with
    | single hparent => simp [hbuilt.ancestors_of_parent? hparent]
    | head hparent _ ih =>
        rw [hbuilt.ancestors_of_parent? hparent]
        exact List.mem_cons_of_mem _ (ih (hbuilt.parent?_lt hparent))

/-- Also a node that the tree does not have has only nodes above it on its chain. -/
theorem above_of_mem_ancestors (hbuilt : tree.IsBuilt) (hmem : above ∈ tree.ancestors id) :
    tree.Above id above := by
  cases hparent : tree.parent? id with
  | none =>
      rw [ancestors_of_parent?_eq_none hparent] at hmem
      cases hmem
  | some parent => exact (hbuilt.mem_ancestors_iff (hbuilt.lt_of_parent? hparent)).mp hmem

/-- What is reached from a node through slots is that node or below it. -/
theorem eq_or_above_of_reachable (hbuilt : tree.IsBuilt)
    (hreachable : Reachable tree.arena above id) : above = id ∨ tree.Above id above := by
  induction hreachable with
  | refl => exact .inl rfl
  | tail _ hholds ih =>
      have hparent := hbuilt.parent?_eq_some_iff.mpr hholds
      rcases ih with rfl | habove
      · exact .inr (.single hparent)
      · exact .inr (.head hparent habove)

theorem not_above_self (hbuilt : tree.IsBuilt) : ¬ tree.Above id id := by
  intro habove
  have hid := habove.lt_size hbuilt
  exact (List.nodup_cons.mp (hbuilt.isLineage_ancestors hid).nodup).1
    ((hbuilt.mem_ancestors_iff hid).mpr habove)

/-- A search along the chain of parents finds the nearest node that fits. -/
theorem find?_ancestors_eq_some_iff (hbuilt : tree.IsBuilt) (hid : id < tree.size)
    {test : NodeId → Bool} :
    (tree.ancestors id).find? test = some above ↔
      tree.IsNearest (fun node => test node = true) id above := by
  have hfound : ∀ above, (tree.ancestors id).find? test = some above →
      tree.IsNearest (fun node => test node = true) id above := by
    intro above hfind
    obtain ⟨htest, before, after, hsplit, hbefore⟩ := List.find?_eq_some_iff_append.mp hfind
    have hmem : above ∈ tree.ancestors id := by simp [hsplit]
    refine ⟨(hbuilt.mem_ancestors_iff hid).mp hmem, htest, fun other hother htest' => ?_⟩
    have hother := (hbuilt.mem_ancestors_iff hid).mpr hother
    rw [hsplit, List.mem_append, List.mem_cons] at hother
    rcases hother with hother | rfl | hother
    · exact absurd (hbefore other hother) (by simp [htest'])
    · exact .refl
    · -- the nodes behind it on the chain are above it
      have hpairwise := (List.pairwise_cons.mp (hbuilt.pairwise_ancestors hid)).2
      rw [hsplit] at hpairwise
      have hafter := (List.pairwise_cons.mp (List.pairwise_append.mp hpairwise).2.1).1
      exact (hafter other hother).to_reflTransGen
  refine ⟨hfound above, fun hnearest => ?_⟩
  have hsome : ((tree.ancestors id).find? test).isSome := by
    rw [List.find?_isSome]
    exact ⟨above, (hbuilt.mem_ancestors_iff hid).mpr hnearest.isAbove, hnearest.fit⟩
  obtain ⟨found, hfind⟩ := Option.isSome_iff_exists.mp hsome
  rw [hfind, (hfound found hfind).unique hbuilt hnearest]

theorem getLast?_ancestors (hbuilt : tree.IsBuilt) (hid : id < tree.size) :
    (tree.ancestors id).getLast? = if id = tree.root then none else some tree.root := by
  have hlast := (hbuilt.isLineage_ancestors hid).getLast?_eq
  split
  next hroot =>
    rw [hroot, ancestors_of_parent?_eq_none hbuilt.parent?_root, List.getLast?_nil]
  next hroot =>
    cases hancestors : tree.ancestors id with
    | nil =>
        rw [hancestors, List.getLast?_singleton] at hlast
        exact absurd (Option.some.inj hlast) hroot
    | cons next rest =>
        rw [hancestors, List.getLast?_cons_cons] at hlast
        exact hlast

/-!
## The nodes below a node

The descendants of a node are listed by going down from child to child.  In a built tree they
are the nodes from which parents lead up to it.
-/

variable {below : NodeId} {fuel : Nat}

theorem above_of_mem_descendantsWithin (hbuilt : tree.IsBuilt) (hid : id < tree.size)
    (hmem : below ∈ tree.descendantsWithin fuel id) : tree.Above below id := by
  induction fuel generalizing id with
  | zero => cases hmem
  | succ fuel ih =>
      obtain ⟨child, hchild, hmem⟩ := List.mem_flatMap.mp hmem
      have hparent := (hbuilt.mem_children_iff hid).mp hchild
      rcases List.mem_cons.mp hmem with rfl | hmem
      · exact .single hparent
      · exact (ih (hbuilt.child_lt hid hchild) hmem).tail hparent

/-- The fuel that the way down takes is the number of steps that the node is farther from the
root. -/
theorem mem_descendantsWithin_of_above (hbuilt : tree.IsBuilt) (habove : tree.Above below id)
    {steps more : Nat} (hid : Ancestry.Rises tree.parent? tree.root steps id)
    (hbelow : Ancestry.Rises tree.parent? tree.root more below) (hfuel : more ≤ steps + fuel) :
    below ∈ tree.descendantsWithin fuel id := by
  induction fuel generalizing id steps with
  | zero =>
      obtain ⟨child, hwithin, hparent⟩ := Relation.TransGen.tail'_iff.mp habove
      obtain ⟨most, hmost, hrises⟩ := Within.exists_rises hwithin (.step hparent hid)
      have hunique := hrises.unique hbuilt.parent?_root hbelow
      omega
  | succ fuel ih =>
      obtain ⟨child, hwithin, hparent⟩ := Relation.TransGen.tail'_iff.mp habove
      have hchild := (hbuilt.mem_children_iff (hbuilt.parent?_lt hparent)).mpr hparent
      refine List.mem_flatMap.mpr ⟨child, hchild, List.mem_cons.mpr ?_⟩
      rcases Relation.reflTransGen_iff_eq_or_transGen.mp hwithin with heq | habove
      · exact .inl heq.symm
      · exact .inr (ih habove (.step hparent hid) (by omega))

theorem mem_descendants_iff (hbuilt : tree.IsBuilt) (hid : id < tree.size) :
    below ∈ tree.descendants id ↔ tree.Above below id := by
  refine ⟨hbuilt.above_of_mem_descendantsWithin hid, fun habove => ?_⟩
  obtain ⟨child, hwithin, hparent⟩ := Relation.TransGen.tail'_iff.mp habove
  have hbelow := Within.lt_size hbuilt (hbuilt.lt_of_parent? hparent) hwithin
  obtain ⟨steps, -, hrises⟩ := hbuilt.exists_rises hid
  obtain ⟨more, hlt, hmore⟩ := hbuilt.exists_rises hbelow
  refine hbuilt.mem_descendantsWithin_of_above habove hrises hmore ?_
  exact Nat.le_trans (Nat.le_of_lt hlt) (Nat.le_add_left _ _)

end IsBuilt

end Tree

end ReactiveLint
