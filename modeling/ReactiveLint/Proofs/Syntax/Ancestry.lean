import Mathlib.Data.List.Nodup
import Mathlib.Data.List.Perm.Subperm
import ReactiveLint.Syntax.Query

/-!
# Chains of parents

A partial map that sends a node to its parent is climbed with fuel.  When the root
has no parent, the number of steps from a node to the root is a function of the
node, so a climb that gets there repeats nothing and is shorter than the arena.
-/

namespace ReactiveLint.Ancestry

variable {parentOf : NodeId → Option NodeId} {root id : NodeId}

/-- The nodes above a node, nearest first, as far as the fuel goes. -/
def climb (parentOf : NodeId → Option NodeId) : Nat → NodeId → List NodeId
  | 0, _ => []
  | fuel + 1, id =>
      match parentOf id with
      | some parent => parent :: climb parentOf fuel parent
      | none => []

/-- A number of steps that leads from a node to the root. -/
inductive Rises (parentOf : NodeId → Option NodeId) (root : NodeId) : Nat → NodeId → Prop
  | root : Rises parentOf root 0 root
  | step {steps : Nat} {id parent : NodeId} (hparent : parentOf id = some parent)
      (hrises : Rises parentOf root steps parent) : Rises parentOf root (steps + 1) id

/-- A complete chain of parents: every node is followed by its parent, none comes
twice, and the last one is the root. -/
structure IsLineage (parentOf : NodeId → Option NodeId) (root : NodeId)
    (chain : List NodeId) : Prop where
  isChain : chain.IsChain fun below above => parentOf below = some above
  nodup : chain.Nodup
  getLast?_eq : chain.getLast? = some root

theorem rises_of_mem_climb {fuel : Nat} (hroot : root ∈ id :: climb parentOf fuel id) :
    ∃ steps, Rises parentOf root steps id := by
  induction fuel generalizing id with
  | zero =>
      obtain rfl : root = id := by simpa [climb] using hroot
      exact ⟨0, .root⟩
  | succ fuel ih =>
      rcases List.mem_cons.mp hroot with rfl | hroot
      · exact ⟨0, .root⟩
      · cases hparent : parentOf id with
        | none => simp [climb, hparent] at hroot
        | some parent =>
            obtain ⟨steps, hrises⟩ := ih (by simpa [climb, hparent] using hroot)
            exact ⟨steps + 1, .step hparent hrises⟩

namespace Rises

theorem unique (hroot : parentOf root = none) {left right : Nat}
    (hleft : Rises parentOf root left id) (hright : Rises parentOf root right id) :
    left = right := by
  induction hleft generalizing right with
  | root =>
      cases hright with
      | root => rfl
      | step hparent _ => simp [hroot] at hparent
  | step hparent _ ih =>
      cases hright with
      | root => simp [hroot] at hparent
      | step hparent' hrises =>
          obtain rfl := Option.some.inj (hparent.symm.trans hparent')
          rw [ih hrises]

/-- Enough fuel makes the climb that of as many steps as the root is away. -/
theorem climb_eq (hroot : parentOf root = none) {steps fuel : Nat}
    (hrises : Rises parentOf root steps id) (hfuel : steps ≤ fuel) :
    climb parentOf fuel id = climb parentOf steps id := by
  induction hrises generalizing fuel with
  | root => cases fuel <;> simp [climb, hroot]
  | step hparent _ ih =>
      cases fuel with
      | zero => omega
      | succ fuel => simp [climb, hparent, ih (Nat.le_of_succ_le_succ hfuel)]

theorem rises_of_mem_climb {steps : Nat} (hrises : Rises parentOf root steps id) :
    ∀ above ∈ climb parentOf steps id, ∃ fewer < steps, Rises parentOf root fewer above := by
  induction hrises with
  | root => simp [climb]
  | step hparent hrises ih =>
      intro above habove
      rw [climb, hparent] at habove
      rcases List.mem_cons.mp habove with rfl | habove
      · exact ⟨_, Nat.lt_succ_self _, hrises⟩
      · obtain ⟨fewer, hlt, habove⟩ := ih above habove
        exact ⟨fewer, Nat.lt_succ_of_lt hlt, habove⟩

theorem isLineage (hroot : parentOf root = none) {steps : Nat}
    (hrises : Rises parentOf root steps id) :
    IsLineage parentOf root (id :: climb parentOf steps id) := by
  induction hrises with
  | root => exact ⟨by simp [climb], by simp [climb], by simp [climb]⟩
  | @step steps id parent hparent hrises ih =>
      have hclimb : climb parentOf (steps + 1) id = parent :: climb parentOf steps parent := by
        simp [climb, hparent]
      rw [hclimb]
      refine ⟨List.isChain_cons_cons.mpr ⟨hparent, ih.isChain⟩, ?_, ?_⟩
      · refine List.nodup_cons.mpr ⟨?_, ih.nodup⟩
        -- the nodes above are fewer steps from the root than the node itself
        intro hmem
        rw [← hclimb] at hmem
        obtain ⟨fewer, hlt, hrises'⟩ := (step hparent hrises).rises_of_mem_climb id hmem
        exact Nat.ne_of_lt hlt (hrises'.unique hroot (step hparent hrises))
      · simpa using ih.getLast?_eq

theorem length_climb {steps : Nat} (hrises : Rises parentOf root steps id) :
    (climb parentOf steps id).length = steps := by
  induction hrises with
  | root => rfl
  | step hparent _ ih => simp [climb, hparent, ih]

theorem mem_climb_self {steps : Nat} (hrises : Rises parentOf root steps id) :
    root ∈ id :: climb parentOf steps id := by
  induction hrises with
  | root => exact List.mem_cons_self
  | step hparent _ ih =>
      rw [climb, hparent]
      exact List.mem_cons_of_mem _ ih

/-- In an arena the root is fewer steps away than there are nodes. -/
theorem lt_size (hroot : parentOf root = none) {size : Nat}
    (hparents : ∀ below above, parentOf below = some above → above < size)
    {steps : Nat} (hrises : Rises parentOf root steps id) (hid : id < size) : steps < size := by
  have hbound : ∀ node ∈ id :: climb parentOf steps id, node < size := by
    clear hroot
    induction hrises with
    | root => simpa [climb] using hid
    | step hparent _ ih =>
        rw [climb, hparent]
        exact List.forall_mem_cons.mpr ⟨hid, ih (hparents _ _ hparent)⟩
  have hsubset : id :: climb parentOf steps id ⊆ List.range size := fun node hnode =>
    List.mem_range.mpr (hbound node hnode)
  have hlength := ((hrises.isLineage hroot).nodup.subperm hsubset).length_le
  rw [List.length_range, List.length_cons, hrises.length_climb] at hlength
  exact hlength

end Rises

end ReactiveLint.Ancestry
