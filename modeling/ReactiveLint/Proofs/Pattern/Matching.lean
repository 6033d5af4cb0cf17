import Mathlib.Tactic.ByContra
import Mathlib.Tactic.Set
import ReactiveLint.Pattern.Basic

/-!
# What a search finds

The meaning of a pattern is a relation of positions; a search carries lists of positions
through the pattern.  Both agree: from positions in the text, a search reaches the ends of
the pieces that start there.  Repetitions are counted in pieces, and a search may stop
after as many rounds as there are positions, since pieces without a character lead
nowhere.
-/

namespace ReactiveLint.Pattern

variable {text : Array Char} {pattern first second body : Pattern} {i j k least : Nat}
  {most : Option Nat}

/-! ## Pieces -/

theorem Matches.bounds (hmatches : Matches text pattern i j) : i ≤ j ∧ j ≤ text.size := by
  induction hmatches with
  | empty i hbound => exact ⟨Nat.le_refl i, hbound⟩
  | one hchar _ => exact ⟨Nat.le_succ _, (Array.getElem?_eq_some_iff.mp hchar).1⟩
  | anchor hbound _ => exact ⟨Nat.le_refl _, hbound⟩
  | seq _ _ ihfirst ihsecond => exact ⟨Nat.le_trans ihfirst.1 ihsecond.1, ihsecond.2⟩
  | left _ ih => exact ih
  | right _ ih => exact ih
  | stop hbound => exact ⟨Nat.le_refl _, hbound⟩
  | again _ _ _ ihbody ihrest => exact ⟨Nat.le_trans ihbody.1 ihrest.1, ihrest.2⟩

theorem matches_empty_iff : Matches text .empty i j ↔ i ≤ text.size ∧ i = j := by
  constructor
  · intro hmatches
    cases hmatches with
    | empty _ hbound => exact ⟨hbound, rfl⟩
  · rintro ⟨hbound, rfl⟩
    exact .empty i hbound

theorem matches_one_iff {set : CharSet} :
    Matches text (.one set) i j ↔ ∃ c, text[i]? = some c ∧ set.holds c = true ∧ i + 1 = j := by
  constructor
  · intro hmatches
    cases hmatches with
    | one hchar hset => exact ⟨_, hchar, hset, rfl⟩
  · rintro ⟨c, hchar, hset, rfl⟩
    exact .one hchar hset

theorem matches_anchor_iff {condition : Anchor} :
    Matches text (.anchor condition) i j ↔
      i ≤ text.size ∧ condition.holds text i = true ∧ i = j := by
  constructor
  · intro hmatches
    cases hmatches with
    | anchor hbound hholds => exact ⟨hbound, hholds, rfl⟩
  · rintro ⟨hbound, hholds, rfl⟩
    exact .anchor hbound hholds

theorem matches_seq_iff :
    Matches text (.seq first second) i k ↔ ∃ j, Matches text first i j ∧ Matches text second j k := by
  constructor
  · intro hmatches
    cases hmatches with
    | seq hfirst hsecond => exact ⟨_, hfirst, hsecond⟩
  · rintro ⟨j, hfirst, hsecond⟩
    exact .seq hfirst hsecond

theorem matches_either_iff :
    Matches text (.either first second) i j ↔ Matches text first i j ∨ Matches text second i j := by
  constructor
  · intro hmatches
    cases hmatches with
    | left hleft => exact .inl hleft
    | right hright => exact .inr hright
  · rintro (hleft | hright)
    · exact .left hleft
    · exact .right hright

/-- A number of pieces in a row. -/
inductive Pieces (text : Array Char) (body : Pattern) : Nat → Nat → Nat → Prop
  | none (i : Nat) : Pieces text body 0 i i
  | next {count i j k : Nat} (hbody : Matches text body i j)
      (hrest : Pieces text body count j k) : Pieces text body (count + 1) i k

namespace Pieces

variable {count more : Nat}

theorem zero_iff : Pieces text body 0 i k ↔ i = k := by
  constructor
  · intro hpieces
    cases hpieces
    rfl
  · rintro rfl
    exact .none i

theorem succ_iff : Pieces text body (count + 1) i k ↔
    ∃ j, Matches text body i j ∧ Pieces text body count j k := by
  constructor
  · intro hpieces
    cases hpieces with
    | next hbody hrest => exact ⟨_, hbody, hrest⟩
  · rintro ⟨j, hbody, hrest⟩
    exact .next hbody hrest

theorem add_iff : Pieces text body (count + more) i k ↔
    ∃ j, Pieces text body count i j ∧ Pieces text body more j k := by
  induction count generalizing i with
  | zero => simp [zero_iff]
  | succ count ih =>
      rw [Nat.add_right_comm]
      simp only [succ_iff, ih]
      constructor
      · rintro ⟨j, hbody, middle, hrest, hmore⟩
        exact ⟨middle, ⟨j, hbody, hrest⟩, hmore⟩
      · rintro ⟨middle, ⟨j, hbody, hrest⟩, hmore⟩
        exact ⟨j, hbody, middle, hrest, hmore⟩

theorem le (hpieces : Pieces text body count i k) : i ≤ k := by
  induction hpieces with
  | none i => exact Nat.le_refl i
  | next hbody _ ih => exact Nat.le_trans hbody.bounds.1 ih

theorem le_size (hpieces : Pieces text body count i k) (hi : i ≤ text.size) : k ≤ text.size := by
  induction hpieces with
  | none i => exact hi
  | next hbody _ ih => exact ih hbody.bounds.2

theorem mem_of_closed {reached : List Nat}
    (hclosed : ∀ i ∈ reached, ∀ j, Matches text body i j → j ∈ reached)
    (hpieces : Pieces text body count i k) (hi : i ∈ reached) : k ∈ reached := by
  induction hpieces with
  | none i => exact hi
  | next hbody _ ih => exact ih (hclosed _ hi _ hbody)

/-- Pieces without a character can be left out. -/
theorem exists_le_sub (hpieces : Pieces text body count i k) :
    ∃ few ≤ k - i, Pieces text body few i k := by
  induction hpieces with
  | none i => exact ⟨0, Nat.zero_le _, .none i⟩
  | @next count i j k hbody hrest ih =>
      obtain ⟨few, hfew, hpieces⟩ := ih
      have hij := hbody.bounds.1
      have hjk := hrest.le
      by_cases heq : i = j
      · subst heq
        exact ⟨few, hfew, hpieces⟩
      · exact ⟨few + 1, by omega, .next hbody hpieces⟩

end Pieces

/-- A repetition describes pieces in a row, in a number within its bounds. -/
theorem matches_repeated_iff : Matches text (.repeated body least most) i k ↔
    i ≤ text.size ∧ ∃ count, least ≤ count ∧ (∀ bound ∈ most, count ≤ max least bound) ∧
      Pieces text body count i k := by
  constructor
  · intro hmatches
    generalize hpattern : Pattern.repeated body least most = pattern at hmatches
    induction hmatches generalizing least most with
    | stop hbound =>
        cases hpattern
        exact ⟨hbound, 0, Nat.le_refl 0, fun _ _ => Nat.zero_le _, .none _⟩
    | again hmost hbody _ _ ih =>
        obtain ⟨rfl, rfl, rfl⟩ := Pattern.repeated.inj hpattern
        obtain ⟨-, count, hleast, hbound, hpieces⟩ := ih rfl
        have hi := Nat.le_trans hbody.bounds.1 hbody.bounds.2
        refine ⟨hi, count + 1, by omega, ?_, .next hbody hpieces⟩
        intro bound hmem
        have hle := hbound (bound - 1) (by simp [Option.mem_def.mp hmem])
        have hpos : 0 < least ∨ bound ≠ 0 := by
          simpa [Option.mem_def.mp hmem] using hmost
        omega
    | empty | one | anchor | seq | left | right => cases hpattern
  · rintro ⟨hi, count, hleast, hbound, hpieces⟩
    induction hpieces generalizing least most with
    | none i =>
        obtain rfl : least = 0 := Nat.le_zero.mp hleast
        exact .stop hi
    | next hbody _ ih =>
        refine .again ?_ hbody (ih hbody.bounds.2 (by omega) ?_)
        · cases most with
          | none => simp
          | some bound =>
              have hle := hbound bound rfl
              simp only [ne_eq, Option.some.injEq]
              omega
        · intro bound hmem
          obtain ⟨outer, houter, rfl⟩ := Option.map_eq_some_iff.mp hmem
          have hle := hbound outer houter
          omega

/-! ## The search -/

/-- From positions in the text a search reaches the ends of the pieces that start there. -/
def Finds (text : Array Char) (pattern : Pattern) : Prop :=
  ∀ starts, (∀ i ∈ starts, i ≤ text.size) →
    ∀ j, j ∈ pattern.ends text starts ↔ ∃ i ∈ starts, Matches text pattern i j

namespace Finds

variable {starts reached frontier : List Nat} {count rounds : Nat}

theorem ends_le (hfinds : Finds text pattern) (hstarts : ∀ i ∈ starts, i ≤ text.size) :
    ∀ j ∈ pattern.ends text starts, j ≤ text.size := by
  intro j hj
  obtain ⟨i, -, hmatches⟩ := (hfinds starts hstarts j).mp hj
  exact hmatches.bounds.2

theorem mem_iterate_iff (hfinds : Finds text body) (hstarts : ∀ i ∈ starts, i ≤ text.size) :
    k ∈ iterate (body.ends text) count starts ↔ ∃ i ∈ starts, Pieces text body count i k := by
  induction count generalizing starts with
  | zero => simp [iterate, Pieces.zero_iff]
  | succ count ih =>
      rw [iterate]
      split
      next hempty =>
        rw [List.isEmpty_iff.mp hempty]
        simp
      next =>
        rw [ih (hfinds.ends_le hstarts)]
        simp only [hfinds starts hstarts, Pieces.succ_iff]
        constructor
        · rintro ⟨j, ⟨i, hi, hbody⟩, hrest⟩
          exact ⟨i, hi, j, hbody, hrest⟩
        · rintro ⟨i, hi, j, hbody, hrest⟩
          exact ⟨j, ⟨i, hi, hbody⟩, hrest⟩

/-- Only from the frontier are there pieces that leave what is reached. -/
def IsFrontier (text : Array Char) (body : Pattern) (reached frontier : List Nat) : Prop :=
  frontier ⊆ reached ∧
    ∀ i ∈ reached, i ∉ frontier → ∀ j, Matches text body i j → j ∈ reached

/-- A round of a search moves the frontier on. -/
theorem isFrontier_step (hfinds : Finds text body) (hreached : ∀ i ∈ reached, i ≤ text.size)
    (hfrontier : IsFrontier text body reached frontier) :
    let fresh := (body.ends text frontier).filter (!reached.contains ·)
    IsFrontier text body (reached ++ fresh) fresh ∧
      ∀ i ∈ reached, ∀ j, Matches text body i j → j ∈ reached ++ fresh := by
  intro fresh
  have hfresh : ∀ i ∈ reached, ∀ j, Matches text body i j → j ∈ reached ++ fresh := by
    intro i hi j hbody
    rw [List.mem_append]
    by_cases hj : j ∈ reached
    · exact .inl hj
    · have hi_frontier : i ∈ frontier := by
        by_contra hout
        exact hj (hfrontier.2 i hi hout j hbody)
      have hends : j ∈ body.ends text frontier :=
        (hfinds frontier (fun i hi => hreached i (hfrontier.1 hi)) j).mpr ⟨i, hi_frontier, hbody⟩
      exact .inr (List.mem_filter.mpr ⟨hends, by simpa using hj⟩)
  refine ⟨⟨List.subset_append_right _ _, ?_⟩, hfresh⟩
  intro i hi hout j hbody
  apply hfresh i _ j hbody
  exact (List.mem_append.mp hi).resolve_right hout

theorem mem_reachable_iff (hfinds : Finds text body) (hreached : ∀ i ∈ reached, i ≤ text.size)
    (hfrontier : IsFrontier text body reached frontier) :
    k ∈ reachable (body.ends text) rounds reached frontier ↔
      ∃ count ≤ rounds, ∃ i ∈ reached, Pieces text body count i k := by
  induction rounds generalizing reached frontier with
  | zero => simp [reachable, Pieces.zero_iff]
  | succ rounds ih =>
      rw [reachable]
      set fresh := (body.ends text frontier).filter (!reached.contains ·) with hfresh
      obtain ⟨hnext, hleads⟩ := isFrontier_step hfinds hreached hfrontier
      split
      next hempty =>
        rw [← hfresh, List.isEmpty_iff.mp hempty, List.append_nil] at hleads
        constructor
        · intro hk
          exact ⟨0, Nat.zero_le _, k, hk, .none k⟩
        · rintro ⟨count, -, i, hi, hpieces⟩
          exact hpieces.mem_of_closed hleads hi
      next =>
        have hends : ∀ j ∈ fresh, j ∈ body.ends text frontier :=
          fun j hj => (List.mem_filter.mp hj).1
        have hfrontier_le : ∀ i ∈ frontier, i ≤ text.size :=
          fun i hi => hreached i (hfrontier.1 hi)
        have hreached' : ∀ i ∈ reached ++ fresh, i ≤ text.size := by
          intro i hi
          cases List.mem_append.mp hi with
          | inl hi => exact hreached i hi
          | inr hi => exact hfinds.ends_le hfrontier_le i (hends i hi)
        rw [ih hreached' hnext]
        constructor
        · rintro ⟨count, hcount, i, hi, hpieces⟩
          cases List.mem_append.mp hi with
          | inl hi => exact ⟨count, by omega, i, hi, hpieces⟩
          | inr hi =>
              obtain ⟨start, hstart, hbody⟩ := (hfinds frontier hfrontier_le i).mp (hends i hi)
              exact ⟨count + 1, by omega, start, hfrontier.1 hstart, .next hbody hpieces⟩
        · rintro ⟨count, hcount, i, hi, hpieces⟩
          cases hpieces with
          | none => exact ⟨0, Nat.zero_le _, _, List.mem_append_left _ hi, .none _⟩
          | next hbody hrest => exact ⟨_, by omega, _, hleads i hi _ hbody, hrest⟩

theorem mem_repeated_iff (hfinds : Finds text body) (hstarts : ∀ i ∈ starts, i ≤ text.size) :
    k ∈ (Pattern.repeated body least most).ends text starts ↔
      ∃ i ∈ starts, ∃ count, least ≤ count ∧ (∀ bound ∈ most, count ≤ max least bound) ∧
        Pieces text body count i k := by
  have hrequired : ∀ j, j ∈ iterate (body.ends text) least starts ↔
      ∃ i ∈ starts, Pieces text body least i j := fun _ => hfinds.mem_iterate_iff hstarts
  have hrequired_le : ∀ j ∈ iterate (body.ends text) least starts, j ≤ text.size := by
    intro j hj
    obtain ⟨i, hi, hpieces⟩ := (hrequired j).mp hj
    exact hpieces.le_size (hstarts i hi)
  have hreached : ∀ rounds,
      k ∈ reachable (body.ends text) rounds (iterate (body.ends text) least starts)
          (iterate (body.ends text) least starts) ↔
        ∃ count ≤ rounds, ∃ j ∈ iterate (body.ends text) least starts,
          Pieces text body count j k := fun _ =>
    hfinds.mem_reachable_iff hrequired_le ⟨List.Subset.refl _, fun i hi hout => absurd hi hout⟩
  simp only [ends, hreached]
  constructor
  · rintro ⟨count, hcount, j, hj, hpieces⟩
    obtain ⟨i, hi, hfirst⟩ := (hrequired j).mp hj
    refine ⟨i, hi, least + count, Nat.le_add_right _ _, ?_, Pieces.add_iff.mpr ⟨j, hfirst, hpieces⟩⟩
    intro bound hbound
    obtain rfl := Option.mem_def.mp hbound
    simp only at hcount
    omega
  · rintro ⟨i, hi, count, hleast, hmost, hpieces⟩
    obtain ⟨more, rfl⟩ := Nat.exists_eq_add_of_le hleast
    obtain ⟨j, hfirst, hrest⟩ := Pieces.add_iff.mp hpieces
    have hj : j ∈ iterate (body.ends text) least starts := (hrequired j).mpr ⟨i, hi, hfirst⟩
    cases most with
    | some bound =>
        have hbound := hmost bound rfl
        exact ⟨more, by simp only; omega, j, hj, hrest⟩
    | none =>
        obtain ⟨few, hfew, hshort⟩ := hrest.exists_le_sub
        have hk := hrest.le_size (hrequired_le j hj)
        exact ⟨few, by simp only; omega, j, hj, hshort⟩

end Finds

theorem mem_mergePositions_iff {left right : List Nat} :
    k ∈ mergePositions left right ↔ k ∈ left ∨ k ∈ right := by
  by_cases hk : k ∈ left <;> simp [mergePositions, hk]

theorem finds (text : Array Char) (pattern : Pattern) : Finds text pattern := by
  induction pattern with
  | empty =>
      intro starts hstarts j
      simp only [ends, matches_empty_iff]
      constructor
      · exact fun hj => ⟨j, hj, hstarts j hj, rfl⟩
      · rintro ⟨i, hi, -, rfl⟩
        exact hi
  | one set =>
      intro starts _ j
      simp only [ends, List.mem_filterMap, matches_one_iff]
      refine exists_congr fun i => and_congr_right fun _ => ?_
      cases text[i]? with
      | none => simp
      | some c => simp
  | anchor condition =>
      intro starts hstarts j
      simp only [ends, List.mem_filter, matches_anchor_iff]
      constructor
      · exact fun hj => ⟨j, hj.1, hstarts j hj.1, hj.2, rfl⟩
      · rintro ⟨i, hi, -, hholds, rfl⟩
        exact ⟨hi, hholds⟩
  | seq first second ihfirst ihsecond =>
      intro starts hstarts k
      calc k ∈ (first.seq second).ends text starts
        _ ↔ ∃ j ∈ first.ends text starts, Matches text second j k :=
            ihsecond _ (ihfirst.ends_le hstarts) k
        _ ↔ ∃ j, (∃ i ∈ starts, Matches text first i j) ∧ Matches text second j k := by
            simp only [ihfirst starts hstarts]
        _ ↔ ∃ i ∈ starts, Matches text (.seq first second) i k := by
            simp only [matches_seq_iff]
            constructor
            · rintro ⟨j, ⟨i, hi, hfirst⟩, hsecond⟩
              exact ⟨i, hi, j, hfirst, hsecond⟩
            · rintro ⟨i, hi, j, hfirst, hsecond⟩
              exact ⟨j, ⟨i, hi, hfirst⟩, hsecond⟩
  | either left right ihleft ihright =>
      intro starts hstarts j
      rw [ends, mem_mergePositions_iff, ihleft starts hstarts, ihright starts hstarts,
        ← exists_or]
      simp only [matches_either_iff, and_or_left]
  | repeated body least most ih =>
      intro starts hstarts k
      rw [ih.mem_repeated_iff hstarts]
      refine exists_congr fun i => and_congr_right fun hi => ?_
      rw [matches_repeated_iff, and_iff_right (hstarts i hi)]

theorem matches_iff_mem_ends :
    Matches text pattern i j ↔ i ≤ text.size ∧ j ∈ pattern.ends text [i] := by
  have hends : i ≤ text.size → (j ∈ pattern.ends text [i] ↔ Matches text pattern i j) := by
    intro hi
    simpa using finds text pattern [i] (by simpa using hi) j
  constructor
  · intro hmatches
    have hi := Nat.le_trans hmatches.bounds.1 hmatches.bounds.2
    exact ⟨hi, (hends hi).mpr hmatches⟩
  · rintro ⟨hi, hmem⟩
    exact (hends hi).mp hmem

instance : Decidable (Matches text pattern i j) :=
  decidable_of_iff _ matches_iff_mem_ends.symm

/-- A search answers whether the pattern describes a piece of the text. -/
theorem isMatch_iff {text : String} :
    pattern.isMatch text = true ↔ ∃ i j, Matches text.toList.toArray pattern i j := by
  have hstarts : ∀ i ∈ List.range (text.toList.toArray.size + 1), i ≤ text.toList.toArray.size :=
    fun i hi => Nat.le_of_lt_succ (List.mem_range.mp hi)
  have hends := finds text.toList.toArray pattern _ hstarts
  rw [isMatch, Bool.not_eq_true', List.isEmpty_eq_false_iff_exists_mem]
  constructor
  · rintro ⟨j, hj⟩
    obtain ⟨i, -, hmatches⟩ := (hends j).mp hj
    exact ⟨i, j, hmatches⟩
  · rintro ⟨i, j, hmatches⟩
    have hi := Nat.le_trans hmatches.bounds.1 hmatches.bounds.2
    exact ⟨j, (hends j).mpr ⟨i, List.mem_range.mpr (Nat.lt_succ_of_le hi), hmatches⟩⟩

end ReactiveLint.Pattern
