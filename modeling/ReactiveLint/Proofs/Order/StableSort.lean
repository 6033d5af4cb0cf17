import Mathlib.Data.List.Nodup
import ReactiveLint.Order.StableSort

/-!
# What sorting does

A sorted list has the items of the list, each before those that it may not follow,
and items of which each may stand before the other are in their old order.  For a list
without repetition this describes sorting by a numeric key in full.  It is the sorting
by merging of the library, and a list may be sorted in parts first.
-/

namespace ReactiveLint.StableSort

variable {A : Type*} {before : A → A → Bool} {item left right : A} {items : List A}

theorem perm_insert (before : A → A → Bool) (item : A) (items : List A) :
    (insert before item items).Perm (item :: items) := by
  induction items with
  | nil => exact .refl _
  | cons next rest ih =>
      rw [insert]
      split
      · exact .refl _
      · exact (ih.cons next).trans (.swap item next rest)

theorem perm_sort (before : A → A → Bool) (items : List A) : (sort before items).Perm items := by
  induction items with
  | nil => exact .refl _
  | cons item rest ih => exact (perm_insert before item _).trans (ih.cons item)

section Order

variable (htrans : ∀ a b c : A, before a b = true → before b c = true → before a c = true)
  (htotal : ∀ a b : A, (before a b || before b a) = true)

include htrans htotal

theorem pairwise_insert (item : A) (hsorted : items.Pairwise fun a b => before a b = true) :
    (insert before item items).Pairwise fun a b => before a b = true := by
  induction items with
  | nil => exact List.pairwise_singleton _ _
  | cons next rest ih =>
      obtain ⟨hnext, hrest⟩ := List.pairwise_cons.mp hsorted
      rw [insert]
      split
      next hbefore =>
        refine List.pairwise_cons.mpr ⟨List.forall_mem_cons.mpr ⟨hbefore, ?_⟩, hsorted⟩
        exact fun other hother => htrans _ _ _ hbefore (hnext other hother)
      next hafter =>
        refine List.pairwise_cons.mpr ⟨fun other hother => ?_, ih hrest⟩
        rcases List.mem_cons.mp ((perm_insert before item rest).subset hother) with rfl | hother
        · exact ((Bool.or_eq_true _ _).mp (htotal other next)).resolve_left hafter
        · exact hnext other hother

theorem pairwise_sort (items : List A) :
    (sort before items).Pairwise fun a b => before a b = true := by
  induction items with
  | nil => exact .nil
  | cons item rest ih => exact pairwise_insert htrans htotal item ih

end Order

/-- A list in order is left as it is. -/
theorem sort_of_pairwise (hsorted : items.Pairwise fun a b => before a b = true) :
    sort before items = items := by
  induction items with
  | nil => rfl
  | cons item rest ih =>
      obtain ⟨hitem, hrest⟩ := List.pairwise_cons.mp hsorted
      rw [sort, ih hrest]
      cases rest with
      | nil => rfl
      | cons next rest => rw [insert, if_pos (hitem next (by simp))]

/-! ## Stability -/

theorem sublist_insert (before : A → A → Bool) (item : A) (items : List A) :
    items.Sublist (insert before item items) := by
  induction items with
  | nil => exact List.nil_sublist _
  | cons next rest ih =>
      rw [insert]
      split
      · exact List.sublist_cons_self _ _
      · exact ih.cons_cons next

theorem pair_sublist_insert (hbefore : before left right = true) (hright : right ∈ items) :
    [left, right].Sublist (insert before left items) := by
  induction items with
  | nil => simp at hright
  | cons next rest ih =>
      rw [insert]
      split
      next => exact (List.singleton_sublist.mpr hright).cons_cons left
      next hafter =>
        rcases List.mem_cons.mp hright with rfl | hright
        · exact absurd hbefore hafter
        · exact (ih hright).cons next

/-- An item stays before those that it may stand before. -/
theorem pair_sublist_sort (hbefore : before left right = true)
    (hpair : [left, right].Sublist items) : [left, right].Sublist (sort before items) := by
  induction items with
  | nil => simp at hpair
  | cons item rest ih =>
      cases hpair with
      | cons _ hpair => exact (ih hpair).trans (sublist_insert before item _)
      | cons_cons _ hright =>
          refine pair_sublist_insert hbefore ((perm_sort before rest).symm.subset ?_)
          exact List.singleton_sublist.mp hright

theorem not_pair_sublist_swap (hnodup : items.Nodup) (hpair : [left, right].Sublist items) :
    ¬ [right, left].Sublist items := by
  induction items with
  | nil => simp at hpair
  | cons item items ih =>
      obtain ⟨hitem, hnodup⟩ := List.nodup_cons.mp hnodup
      intro hswap
      cases hpair with
      | cons _ hpair =>
          cases hswap with
          | cons _ hswap => exact ih hnodup hpair hswap
          | cons_cons _ hswap => exact hitem (hpair.subset (by simp))
      | cons_cons _ hpair =>
          cases hswap with
          | cons _ hswap => exact hitem (hswap.subset (by simp))
          | cons_cons _ hswap => exact hitem (hpair.subset (by simp))

theorem pair_sublist_or_swap (hne : left ≠ right) (hleft : left ∈ items) (hright : right ∈ items) :
    [left, right].Sublist items ∨ [right, left].Sublist items := by
  induction items with
  | nil => simp at hleft
  | cons item items ih =>
      rcases List.mem_cons.mp hleft with rfl | hleft'
      · have hright' : right ∈ items := by simpa [Ne.symm hne] using hright
        exact .inl ((List.singleton_sublist.mpr hright').cons_cons left)
      · rcases List.mem_cons.mp hright with rfl | hright'
        · exact .inr ((List.singleton_sublist.mpr hleft').cons_cons right)
        · exact (ih hleft' hright').imp (·.cons item) (·.cons item)

/-- Sorting by a key orders by that key, and by the old places where keys agree. -/
theorem pairwise_sort_key (key : A → Nat) (hnodup : items.Nodup) :
    (sort (fun left right => decide (key left ≤ key right)) items).Pairwise
      fun left right => key left < key right ∨
        key left = key right ∧ [left, right].Sublist items := by
  set sorted := sort (fun left right => decide (key left ≤ key right)) items with hsorted
  have hperm : sorted.Perm items := perm_sort _ items
  have hordered : sorted.Pairwise fun left right => key left ≤ key right := by
    refine (pairwise_sort ?_ ?_ items).imp of_decide_eq_true
    · simp only [decide_eq_true_eq]
      exact fun _ _ _ => Nat.le_trans
    · simp only [Bool.or_eq_true, decide_eq_true_eq]
      exact fun a b => Nat.le_total (key a) (key b)
  rw [List.pairwise_iff_forall_sublist] at hordered ⊢
  intro left right hpair
  rcases Nat.lt_or_eq_of_le (hordered hpair) with hlt | heq
  · exact .inl hlt
  refine .inr ⟨heq, ?_⟩
  have hne : left ≠ right := by
    rintro rfl
    exact not_pair_sublist_swap (hperm.nodup_iff.mpr hnodup) hpair hpair
  have hleft : left ∈ items := hperm.mem_iff.mp (hpair.subset (by simp))
  have hright : right ∈ items := hperm.mem_iff.mp (hpair.subset (by simp))
  refine (pair_sublist_or_swap hne hleft hright).resolve_right fun hswap => ?_
  -- an inverted pair of one key would stand inverted in the result too
  exact not_pair_sublist_swap (hperm.nodup_iff.mpr hnodup) hpair
    (pair_sublist_sort (decide_eq_true (Nat.le_of_eq heq.symm)) hswap)

/-! ## Sorting in parts -/

theorem insert_of_pairwise_cons {prior rest : List A}
    (hprior : ∀ other ∈ prior, before item other = false)
    (hsorted : (item :: rest).Pairwise fun a b => before a b = true) :
    insert before item (prior ++ rest) = prior ++ item :: rest := by
  induction prior with
  | nil =>
      have hitem := (List.pairwise_cons.mp hsorted).1
      cases rest with
      | nil => rfl
      | cons next rest =>
          rw [List.nil_append, insert, if_pos (hitem next List.mem_cons_self), List.nil_append]
  | cons other prior ih =>
      obtain ⟨hother, hprior⟩ := List.forall_mem_cons.mp hprior
      rw [List.cons_append, insert, hother, if_neg Bool.false_ne_true, ih hprior,
        List.cons_append]

section Parts

variable (htrans : ∀ a b c : A, before a b = true → before b c = true → before a c = true)
  (htotal : ∀ a b : A, (before a b || before b a) = true)

include htrans htotal

/-- Two items of which one must stand first may be put in either way round. -/
theorem insert_insert_comm (hafter : before right left = false) (items : List A) :
    insert before right (insert before left items) =
      insert before left (insert before right items) := by
  have hbefore : before left right = true := by
    have heither := htotal left right
    rwa [hafter, Bool.or_false] at heither
  induction items with
  | nil => simp [insert, hafter, hbefore]
  | cons next rest ih =>
      by_cases hright : before right next = true
      · have hleft : before left next = true := htrans left right next hbefore hright
        simp [insert, hafter, hbefore, hleft, hright]
      · by_cases hleft : before left next = true
        · simp [insert, hafter, hleft, hright]
        · simp [insert, hleft, hright, ih]

/-- Items that are put in one after another may be sorted before. -/
theorem foldr_insert_insert (item : A) (items start : List A) :
    (insert before item items).foldr (insert before) start =
      insert before item (items.foldr (insert before) start) := by
  induction items with
  | nil => rfl
  | cons next rest ih =>
      by_cases hbefore : before item next = true
      · rw [insert, if_pos hbefore, List.foldr_cons]
      · have hafter : before item next = false := Bool.eq_false_iff.mpr hbefore
        rw [insert, if_neg hbefore, List.foldr_cons, List.foldr_cons, ih]
        exact (insert_insert_comm htrans htotal hafter _).symm

theorem foldr_insert_sort (items start : List A) :
    (sort before items).foldr (insert before) start = items.foldr (insert before) start := by
  induction items with
  | nil => rfl
  | cons item rest ih =>
      rw [sort, foldr_insert_insert htrans htotal, ih, List.foldr_cons]

omit htrans htotal in
theorem sort_append (first second : List A) :
    sort before (first ++ second) = first.foldr (insert before) (sort before second) := by
  induction first with
  | nil => rfl
  | cons item rest ih => rw [List.cons_append, sort, ih, List.foldr_cons]

/-- A list of parts is sorted alike when its parts have been sorted before. -/
theorem sort_flatMap_sort {B : Type*} (parts : List B) (items : B → List A) :
    sort before (parts.flatMap fun part => sort before (items part)) =
      sort before (parts.flatMap items) := by
  induction parts with
  | nil => rfl
  | cons part parts ih =>
      rw [List.flatMap_cons, List.flatMap_cons, sort_append, sort_append, ih,
        foldr_insert_sort htrans htotal]

/-- Sorting is the stable sorting of the library. -/
theorem sort_eq_mergeSort (items : List A) : sort before items = items.mergeSort before := by
  induction items with
  | nil => simp [sort]
  | cons item rest ih =>
      obtain ⟨prior, after, hcons, hrest, hprior⟩ :=
        List.mergeSort_cons htrans htotal item rest
      have hsorted : (prior ++ item :: after).Pairwise fun a b => before a b = true := by
        rw [← hcons]
        exact List.pairwise_mergeSort htrans htotal _
      have hprior' : ∀ other ∈ prior, before item other = false := by simpa using hprior
      rw [sort, ih, hrest, hcons]
      exact insert_of_pairwise_cons hprior' (List.pairwise_append.mp hsorted).2.1

omit htotal in
/-- What remains of a sorted list is in the order in which it would be sorted alone. -/
theorem filter_insert (keep : A → Bool) (hsorted : items.Pairwise fun a b => before a b = true) :
    (insert before item items).filter keep =
      if keep item then insert before item (items.filter keep) else items.filter keep := by
  induction items with
  | nil => simp [insert, List.filter_singleton]
  | cons next rest ih =>
      obtain ⟨hnext, hrest⟩ := List.pairwise_cons.mp hsorted
      by_cases hbefore : before item next = true
      · -- all that remains of the list may stand behind the item
        have hitem : (item :: (next :: rest).filter keep).Pairwise
            fun a b => before a b = true := by
          refine List.pairwise_cons.mpr ⟨fun other hother => ?_, hsorted.filter keep⟩
          rcases List.mem_cons.mp (List.mem_filter.mp hother).1 with rfl | hother
          · exact hbefore
          · exact htrans _ _ _ hbefore (hnext other hother)
        have hfront : insert before item ((next :: rest).filter keep) =
            item :: (next :: rest).filter keep :=
          @insert_of_pairwise_cons _ before item [] _ (by simp) hitem
        rw [insert, if_pos hbefore, List.filter_cons, hfront]
      · rw [insert, if_neg hbefore, List.filter_cons, ih hrest, List.filter_cons]
        cases keep item <;> cases keep next <;> simp [insert, hbefore]

/-- A list may be thinned out before or after it is sorted. -/
theorem filter_sort (keep : A → Bool) (items : List A) :
    (sort before items).filter keep = sort before (items.filter keep) := by
  induction items with
  | nil => rfl
  | cons item rest ih =>
      rw [sort, filter_insert htrans keep (pairwise_sort htrans htotal rest), ih,
        List.filter_cons]
      split <;> rfl

/-- The items of a list in order, those of one rank, of which each may stand before the
others, as they were. -/
structure IsStableSort (before : A → A → Bool) (items sorted : List A) : Prop where
  perm : sorted.Perm items
  ordered : sorted.Pairwise fun left right => before left right = true
  stable : ∀ item, (sorted.filter fun other => before item other && before other item) =
    items.filter fun other => before item other && before other item

theorem isStableSort_sort (items : List A) : IsStableSort before items (sort before items) where
  perm := perm_sort before items
  ordered := pairwise_sort htrans htotal items
  stable item := by
    rw [filter_sort htrans htotal]
    apply sort_of_pairwise
    rw [List.pairwise_filter]
    refine List.pairwise_of_forall fun left right hleft hright => ?_
    rw [Bool.and_eq_true] at hleft hright
    exact htrans left item right hleft.2 hright.1

end Parts

end ReactiveLint.StableSort
