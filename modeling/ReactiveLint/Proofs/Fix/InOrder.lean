import Mathlib.Data.List.Basic
import ReactiveLint.Fix.Basic
import ReactiveLint.Proofs.Order.StableSort

/-!
# Accepted fixes

`Fix.ofEdits?` sorts edits and accepts them when each lies in the source and starts
no earlier than its predecessor ends.  Accepted edits are therefore apart from one
another in their order, and edits that are so already are accepted as they stand.
-/

namespace ReactiveLint

namespace Span

variable {left middle right : Span}

theorem before_iff : left.before right = true ↔
    left.start < right.start ∨ left.start = right.start ∧ left.stop ≤ right.stop := by
  simp [before]

theorem before_trans (hleft : left.before middle = true) (hright : middle.before right = true) :
    left.before right = true := by
  rw [before_iff] at *
  omega

theorem before_total (left right : Span) : (left.before right || right.before left) = true := by
  rw [Bool.or_eq_true, before_iff, before_iff]
  omega

theorem eq_of_before (hleft : left.before right = true) (hright : right.before left = true) :
    left = right := by
  rw [before_iff] at *
  cases left
  cases right
  simp_all only [Span.mk.injEq]
  omega

theorem start_le_of_before (hbefore : left.before right = true) : left.start ≤ right.start := by
  rw [before_iff] at hbefore
  omega

end Span

namespace Fix

/-- Edits that lie in a text of `size` bytes and follow one another. -/
structure InOrder (size : Nat) (edits : List Edit) : Prop where
  fitsIn : ∀ edit ∈ edits, edit.span.FitsIn size
  apart : edits.Pairwise fun left right => left.span.stop ≤ right.span.start

variable {size : Nat} {edits : List Edit}

theorem outOfBounds?_eq_none_iff :
    outOfBounds? edits size = none ↔ ∀ edit ∈ edits, edit.span.FitsIn size := by
  simp [outOfBounds?]

theorem overlap?_eq_none_iff :
    overlap? edits = none ↔
      edits.IsChain fun left right => left.span.stop ≤ right.span.start := by
  induction edits with
  | nil => simp [overlap?]
  | cons first edits ih =>
      cases edits with
      | nil => simp [overlap?]
      | cons second rest =>
          rw [overlap?, List.isChain_cons_cons, ← ih]
          split
          next hlt => simp [Nat.not_le_of_lt hlt]
          next hle => simp [Nat.le_of_not_lt hle]

/-- Where every edit runs forward, it is enough to compare neighbours. -/
theorem pairwise_of_isChain (hfits : ∀ edit ∈ edits, edit.span.FitsIn size)
    (hchain : edits.IsChain fun left right => left.span.stop ≤ right.span.start) :
    edits.Pairwise fun left right => left.span.stop ≤ right.span.start := by
  induction edits with
  | nil => exact .nil
  | cons first edits ih =>
      have hpairwise := ih (fun edit hedit => hfits edit (List.mem_cons_of_mem _ hedit))
        (List.IsChain.of_cons hchain)
      refine List.pairwise_cons.mpr ⟨?_, hpairwise⟩
      cases edits with
      | nil => simp
      | cons second rest =>
          have hnext := (List.isChain_cons_cons.mp hchain).1
          have hforward := (hfits second (by simp)).1
          intro edit hedit
          rcases List.mem_cons.mp hedit with rfl | hedit
          · exact hnext
          · have hlater := (List.pairwise_cons.mp hpairwise).1 edit hedit
            exact Nat.le_trans hnext (Nat.le_trans hforward hlater)

theorem ofEdits?_eq_ok_iff {fix : Fix} :
    ofEdits? edits size = .ok fix ↔
      edits ≠ [] ∧ InOrder size fix.edits ∧
        fix.edits = StableSort.sort (fun left right => left.span.before right.span) edits := by
  obtain ⟨ordered⟩ := fix
  by_cases hempty : edits = []
  · simp [ofEdits?, hempty]
  · simp only [ofEdits?, List.isEmpty_iff, hempty, if_false, ne_eq, not_false_eq_true, true_and]
    generalize hsorted :
      StableSort.sort (fun left right : Edit => left.span.before right.span) edits = sorted
    constructor
    · intro hok
      split at hok
      · simp at hok
      next hbounds =>
        split at hok
        · simp at hok
        next hoverlap =>
          obtain rfl : sorted = ordered := by simpa using hok
          have hfits := outOfBounds?_eq_none_iff.mp hbounds
          exact ⟨⟨hfits, pairwise_of_isChain hfits (overlap?_eq_none_iff.mp hoverlap)⟩, rfl⟩
    · rintro ⟨⟨hfits, hapart⟩, rfl⟩
      rw [outOfBounds?_eq_none_iff.mpr hfits, overlap?_eq_none_iff.mpr hapart.isChain]

theorem perm_of_ofEdits? {fix : Fix} (haccepted : ofEdits? edits size = .ok fix) :
    fix.edits.Perm edits := by
  rw [(ofEdits?_eq_ok_iff.mp haccepted).2.2]
  exact StableSort.perm_sort _ edits

theorem edits_ne_nil_of_ofEdits? {fix : Fix} (haccepted : ofEdits? edits size = .ok fix) :
    fix.edits ≠ [] := by
  intro hnil
  have hperm := perm_of_ofEdits? haccepted
  rw [hnil] at hperm
  exact (ofEdits?_eq_ok_iff.mp haccepted).1 hperm.symm.eq_nil

/-- Edits in order are accepted in that order. -/
theorem InOrder.ofEdits? (horder : InOrder size edits) (hne : edits ≠ []) :
    ofEdits? edits size = .ok ⟨edits⟩ := by
  refine ofEdits?_eq_ok_iff.mpr ⟨hne, horder, (StableSort.sort_of_pairwise ?_).symm⟩
  refine (List.Pairwise.and_mem.mp horder.apart).imp ?_
  rintro left right ⟨hleft, hright, hapart⟩
  have hforward := (horder.fitsIn left hleft).1
  have hforward' := (horder.fitsIn right hright).1
  rw [Span.before_iff]
  omega

theorem InOrder.append {first second : List Edit} (hfirst : InOrder size first)
    (hsecond : InOrder size second)
    (hapart : ∀ left ∈ first, ∀ right ∈ second, left.span.stop ≤ right.span.start) :
    InOrder size (first ++ second) where
  fitsIn edit hedit := (List.mem_append.mp hedit).elim (hfirst.fitsIn edit) (hsecond.fitsIn edit)
  apart := List.pairwise_append.mpr ⟨hfirst.apart, hsecond.apart, hapart⟩

/-! ## The range of a fix -/

@[simp]
theorem cursorAfter_nil (cursor : Nat) : cursorAfter cursor [] = cursor := rfl

@[simp]
theorem cursorAfter_cons (cursor : Nat) (edit : Edit) (edits : List Edit) :
    cursorAfter cursor (edit :: edits) = cursorAfter edit.span.stop edits := by
  cases edits with
  | nil => rfl
  | cons second rest => simp [cursorAfter, List.getLast?_cons]

theorem cursorAfter_append (cursor : Nat) (first second : List Edit) :
    cursorAfter cursor (first ++ second) = cursorAfter (cursorAfter cursor first) second := by
  induction first generalizing cursor with
  | nil => rfl
  | cons edit edits ih => rw [List.cons_append, cursorAfter_cons, cursorAfter_cons, ih]

theorem InOrder.tail {edit : Edit} (horder : InOrder size (edit :: edits)) :
    InOrder size edits where
  fitsIn other hother := horder.fitsIn other (List.mem_cons_of_mem _ hother)
  apart := (List.pairwise_cons.mp horder.apart).2

theorem InOrder.stop_le_start {edit other : Edit} (horder : InOrder size (edit :: edits))
    (hother : other ∈ edits) : edit.span.stop ≤ other.span.start :=
  (List.pairwise_cons.mp horder.apart).1 other hother

/-- The cursor of edits in order never runs backward. -/
theorem InOrder.le_cursorAfter (horder : InOrder size edits) {cursor : Nat}
    (hcursor : ∀ edit ∈ edits, cursor ≤ edit.span.start) : cursor ≤ cursorAfter cursor edits := by
  induction edits generalizing cursor with
  | nil => exact Nat.le_refl _
  | cons edit edits ih =>
      have hstep := ih horder.tail fun other hother => horder.stop_le_start hother
      have hforward := (horder.fitsIn edit (by simp)).1
      have hstart := hcursor edit (by simp)
      rw [cursorAfter_cons]
      omega

theorem InOrder.stop_le_cursorAfter (horder : InOrder size edits) (cursor : Nat) {edit : Edit}
    (hedit : edit ∈ edits) : edit.span.stop ≤ cursorAfter cursor edits := by
  induction edits generalizing cursor with
  | nil => simp at hedit
  | cons first edits ih =>
      rw [cursorAfter_cons]
      rcases List.mem_cons.mp hedit with rfl | hedit
      · exact horder.tail.le_cursorAfter fun other hother => horder.stop_le_start hother
      · exact ih horder.tail _ hedit

theorem InOrder.cursorAfter_le (horder : InOrder size edits) {cursor : Nat}
    (hcursor : cursor ≤ size) : cursorAfter cursor edits ≤ size := by
  induction edits generalizing cursor with
  | nil => exact hcursor
  | cons edit edits ih =>
      rw [cursorAfter_cons]
      exact ih horder.tail (horder.fitsIn edit (by simp)).2

/-- The greatest end of edits in order is the end of the last. -/
theorem InOrder.foldl_max (horder : InOrder size edits) {stop : Nat}
    (hstop : ∀ edit ∈ edits, stop ≤ edit.span.start) :
    edits.foldl (fun stop edit => max stop edit.span.stop) stop = cursorAfter stop edits := by
  induction edits generalizing stop with
  | nil => rfl
  | cons edit edits ih =>
      have hforward := (horder.fitsIn edit (by simp)).1
      have hstart := hstop edit (by simp)
      rw [List.foldl_cons, cursorAfter_cons, Nat.max_eq_right (by omega)]
      exact ih horder.tail fun other hother => horder.stop_le_start hother

variable {fix : Fix}

theorem range_stop (horder : InOrder size fix.edits) (hne : fix.edits ≠ []) (cursor : Nat) :
    fix.range.stop = cursorAfter cursor fix.edits := by
  obtain ⟨_ | ⟨first, rest⟩⟩ := fix
  · exact absurd rfl hne
  · rw [cursorAfter_cons]
    exact horder.tail.foldl_max fun other hother => horder.stop_le_start hother

theorem range_start_le (horder : InOrder size fix.edits) {edit : Edit} (hedit : edit ∈ fix.edits) :
    fix.range.start ≤ edit.span.start := by
  obtain ⟨_ | ⟨first, rest⟩⟩ := fix
  · simp at hedit
  · rcases List.mem_cons.mp hedit with rfl | hedit
    · exact Nat.le_refl _
    · exact Nat.le_trans (horder.fitsIn first (by simp)).1 (horder.stop_le_start hedit)

theorem stop_le_range_stop (horder : InOrder size fix.edits) {edit : Edit}
    (hedit : edit ∈ fix.edits) : edit.span.stop ≤ fix.range.stop := by
  rw [range_stop horder (List.ne_nil_of_mem hedit) 0]
  exact horder.stop_le_cursorAfter 0 hedit

theorem range_fitsIn (horder : InOrder size fix.edits) (hne : fix.edits ≠ []) :
    fix.range.FitsIn size := by
  obtain ⟨edit, hedit⟩ := List.exists_mem_of_ne_nil _ hne
  have hstart := range_start_le horder hedit
  have hstop := stop_le_range_stop horder hedit
  have hforward := (horder.fitsIn edit hedit).1
  refine ⟨by omega, ?_⟩
  rw [range_stop horder hne 0]
  exact horder.cursorAfter_le (Nat.zero_le _)

end Fix

end ReactiveLint
