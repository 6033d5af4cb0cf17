import Mathlib.Data.List.Basic
import ReactiveLint.Selector.Match

/-!
# The kinds of a subject

Where `Selector.subjectKinds?` names kinds, a matching node has one of them.
-/

namespace ReactiveLint.Selector

variable {tree : Tree} {scope : Option NodeId} {id : NodeId} {kind : Kind}
  {left right found : List Kind}

theorem mem_commonKinds : kind ∈ commonKinds left right ↔ kind ∈ left ∧ kind ∈ right := by
  simp [commonKinds]

theorem mem_mergeKinds : kind ∈ mergeKinds left right ↔ kind ∈ left ∨ kind ∈ right := by
  induction right generalizing left with
  | nil => simp [mergeKinds]
  | cons next right ih =>
      rw [mergeKinds, List.foldl_cons]
      change kind ∈ mergeKinds _ right ↔ _
      rw [ih, List.mem_cons]
      split
      next hknown =>
        have hmem : next ∈ left := by simpa using hknown
        constructor
        · exact Or.imp_right .inr
        · rintro (hleft | rfl | hright)
          · exact .inl hleft
          · exact .inl hmem
          · exact .inr hright
      next => rw [List.mem_append, List.mem_singleton, or_assoc]

/-- A bound on kinds that leaves a kind in. -/
def Admits (bound : Option (List Kind)) (kind : Kind) : Prop :=
  ∀ kinds, bound = some kinds → kind ∈ kinds

@[simp]
theorem admits_none (kind : Kind) : Admits none kind := by simp [Admits]

@[simp]
theorem admits_some {kinds : List Kind} : Admits (some kinds) kind ↔ kind ∈ kinds := by
  simp [Admits]

mutual

/-- The kind of a matching node is among the kinds of the subject. -/
theorem admits_subjectKinds? : ∀ selector : Selector,
    selector.holds tree scope id = true → Admits selector.subjectKinds? (tree.kind id)
  | .kind wanted, hholds => by
      rw [holds, beq_iff_eq] at hholds
      simp [subjectKinds?, hholds]
  | compound parts, hholds => by
      rw [holds] at hholds
      rw [subjectKinds?]
      exact admits_narrowestKinds? parts none hholds (admits_none _)
  | any options, hholds => by
      rw [holds] at hholds
      rw [subjectKinds?]
      exact admits_unionKinds? options [] (.inr hholds)
  | combine combinator left right, hholds => by
      simp only [holds, Bool.and_eq_true] at hholds
      rw [subjectKinds?]
      exact admits_subjectKinds? right hholds.1
  | wildcard, _ | .scope, _ | field _, _ | attr _, _ | .not _, _ | has _, _ | nthChild _, _
  | nthLastChild _, _ => by simp [subjectKinds?]

/-- All parts must match, so each may narrow the bound. -/
theorem admits_narrowestKinds? : ∀ (parts : List Selector) (bound : Option (List Kind)),
    allHold tree scope id parts = true → Admits bound (tree.kind id) →
      Admits (narrowestKinds? bound parts) (tree.kind id)
  | [], bound, _, hbound => by rwa [narrowestKinds?]
  | part :: parts, bound, hholds, hbound => by
      rw [allHold, Bool.and_eq_true] at hholds
      have hpart := admits_subjectKinds? part hholds.1
      cases hkinds : part.subjectKinds? with
      | none =>
          simp only [narrowestKinds?, hkinds]
          exact admits_narrowestKinds? parts bound hholds.2 hbound
      | some kinds =>
          have hmem : tree.kind id ∈ kinds := hpart kinds hkinds
          cases bound with
          | none =>
              simp only [narrowestKinds?, hkinds]
              exact admits_narrowestKinds? parts _ hholds.2 (admits_some.mpr hmem)
          | some bound =>
              simp only [narrowestKinds?, hkinds]
              refine admits_narrowestKinds? parts _ hholds.2 (admits_some.mpr ?_)
              exact mem_commonKinds.mpr ⟨admits_some.mp hbound, hmem⟩

/-- Some option must match, so the kinds of all are kept. -/
theorem admits_unionKinds? : ∀ (options : List Selector) (found : List Kind),
    tree.kind id ∈ found ∨ someHolds tree scope id options = true →
      Admits (unionKinds? found options) (tree.kind id)
  | [], found, hholds => by
      rw [unionKinds?, admits_some]
      simpa [someHolds] using hholds
  | option :: options, found, hholds => by
      rw [unionKinds?]
      split
      next kinds hkinds =>
        refine admits_unionKinds? options _ ?_
        rw [someHolds, Bool.or_eq_true] at hholds
        rw [mem_mergeKinds]
        rcases hholds with hfound | hoption | hoptions
        · exact .inl (.inl hfound)
        · exact .inl (.inr (admits_subjectKinds? option hoption kinds hkinds))
        · exact .inr hoptions
      next => exact admits_none _

end

end ReactiveLint.Selector
