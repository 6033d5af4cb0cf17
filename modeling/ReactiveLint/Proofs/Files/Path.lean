import Mathlib.Logic.Basic
import ReactiveLint.Files.Path

/-!
# The order of paths

Paths are told apart and compared by their parts.  The comparison is a linear order on the
lists of parts, so files can be sorted by their paths.
-/

namespace ReactiveLint

namespace PathPart

variable {left middle right : PathPart}

theorem before_irrefl (part : PathPart) : part.before part = false := by
  cases part <;> simp [before, rank]

theorem before_trans (hleft : left.before middle = true) (hright : middle.before right = true) :
    left.before right = true := by
  cases left <;> cases middle <;> cases right
  case name.name.name =>
    simp only [before, decide_eq_true_eq] at hleft hright ⊢
    exact String.lt_trans hleft hright
  all_goals simp_all [before, rank]

theorem before_trichotomy (left right : PathPart) :
    left.before right = true ∨ left = right ∨ right.before left = true := by
  cases left <;> cases right
  case name.name left right =>
    simpa only [before, decide_eq_true_eq, name.injEq] using Std.lt_trichotomy left right
  all_goals simp [before, rank]

end PathPart

namespace Path

variable {left middle right : List PathPart}

theorem beforeParts_cons_iff {first other : PathPart} :
    beforeParts (first :: left) (other :: right) = true ↔
      first.before other = true ∨ first = other ∧ beforeParts left right = true := by
  rw [beforeParts]
  split
  next hsame => simp [hsame, PathPart.before_irrefl]
  next hother => simp [hother]

theorem beforeParts_irrefl (parts : List PathPart) : beforeParts parts parts = false := by
  induction parts with
  | nil => rfl
  | cons part parts ih => rw [beforeParts, if_pos rfl, ih]

theorem beforeParts_trans (hleft : beforeParts left middle = true)
    (hright : beforeParts middle right = true) : beforeParts left right = true := by
  induction left generalizing middle right with
  | nil =>
      cases middle with
      | nil => cases hleft
      | cons second middle =>
          cases right with
          | nil => cases hright
          | cons third right => rfl
  | cons first left ih =>
      cases middle with
      | nil => cases hleft
      | cons second middle =>
          cases right with
          | nil => cases hright
          | cons third right =>
              rw [beforeParts_cons_iff] at hleft hright ⊢
              rcases hleft with hfirst | ⟨rfl, hleft⟩
              · rcases hright with hsecond | ⟨rfl, -⟩
                · exact .inl (PathPart.before_trans hfirst hsecond)
                · exact .inl hfirst
              · exact hright.imp_right fun ⟨hsame, hright⟩ => ⟨hsame, ih hleft hright⟩

theorem beforeParts_trichotomy (left right : List PathPart) :
    beforeParts left right = true ∨ left = right ∨ beforeParts right left = true := by
  induction left generalizing right with
  | nil =>
      cases right with
      | nil => exact .inr (.inl rfl)
      | cons other right => exact .inl rfl
  | cons first left ih =>
      cases right with
      | nil => exact .inr (.inr rfl)
      | cons other right =>
          simp only [beforeParts_cons_iff, List.cons.injEq]
          rcases PathPart.before_trichotomy first other with hfirst | rfl | hother
          · exact .inl (.inl hfirst)
          · rcases ih right with hleft | rfl | hright
            · exact .inl (.inr ⟨rfl, hleft⟩)
            · exact .inr (.inl ⟨rfl, rfl⟩)
            · exact .inr (.inr (.inr ⟨rfl, hright⟩))
          · exact .inr (.inr (.inl hother))

theorem same_iff {left right : String} : same left right = true ↔ parts left = parts right := by
  rw [same, beq_iff_eq]

theorem same_refl (path : String) : same path path = true := same_iff.mpr rfl

theorem same_comm (left right : String) : same left right = same right left := by
  rw [Bool.eq_iff_iff, same_iff, same_iff, eq_comm]

/-- A path that is the same as one of two that are apart is not the same as the other. -/
theorem same_eq_false_of_apart {left right path : String} (hapart : same left right = false)
    (hsame : same left path = true) : same right path = false := by
  refine Bool.eq_false_iff.mpr fun hright => Bool.eq_false_iff.mp hapart ?_
  exact same_iff.mpr ((same_iff.mp hsame).trans (same_iff.mp hright).symm)

theorem before_asymm {left right : String} (hbefore : before left right = true) :
    before right left = false := by
  refine Bool.eq_false_iff.mpr fun hback => ?_
  have hself := beforeParts_trans hbefore hback
  rw [beforeParts_irrefl] at hself
  cases hself

/-- Two paths neither of which comes first have the same parts. -/
theorem same_of_not_before {left right : String} (hleft : before left right = false)
    (hright : before right left = false) : same left right = true := by
  rw [before] at hleft hright
  rcases beforeParts_trichotomy (parts left) (parts right) with hbefore | hsame | hbefore
  · rw [hleft] at hbefore
    cases hbefore
  · exact same_iff.mpr hsame
  · rw [hright] at hbefore
    cases hbefore

theorem not_before_trans {first second third : String} (hfirst : (!before second first) = true)
    (hsecond : (!before third second) = true) : (!before third first) = true := by
  rw [Bool.not_eq_true'] at hfirst hsecond ⊢
  refine Bool.eq_false_iff.mpr fun hback => ?_
  rcases beforeParts_trichotomy (parts first) (parts second) with hbefore | hsame | hbefore
  · exact Bool.eq_false_iff.mp hsecond (beforeParts_trans hback hbefore)
  · exact Bool.eq_false_iff.mp hsecond (by rwa [before, ← hsame])
  · exact Bool.eq_false_iff.mp hfirst hbefore

theorem not_before_total (left right : String) :
    (!before right left || !before left right) = true := by
  cases hbefore : before left right with
  | false => simp
  | true => simp [before_asymm hbefore]

end Path

end ReactiveLint
