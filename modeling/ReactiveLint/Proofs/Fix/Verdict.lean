import Mathlib.Data.List.Perm.Subperm
import ReactiveLint.Proofs.Fix.InOrder

/-!
# What makes a fix

`Fix.ofEdits?` compares neighbours in the order of spans.  Where every edit runs
forward this is the comparison of any two edits, so that the order in which edits are
given decides nothing but the order of edits of one span.
-/

namespace ReactiveLint

/-- Two edits of which one ends before the other starts. -/
def Edit.IsApartFrom (left right : Edit) : Prop :=
  left.span.stop ≤ right.span.start ∨ right.span.stop ≤ left.span.start

theorem Edit.IsApartFrom.symm {left right : Edit} (hapart : left.IsApartFrom right) :
    right.IsApartFrom left :=
  Or.symm hapart

namespace Fix

variable {size : Nat} {edits other : List Edit} {fix : Fix}

/-- Edits in the order of their spans. -/
def ordered (edits : List Edit) : List Edit :=
  StableSort.sort (fun left right => left.span.before right.span) edits

theorem isStableSort_ordered (edits : List Edit) :
    StableSort.IsStableSort (fun left right => left.span.before right.span) edits
      (ordered edits) := by
  apply StableSort.isStableSort_sort
  · exact fun _ _ _ => Span.before_trans
  · exact fun left right => Span.before_total left.span right.span

theorem mem_ordered_iff {edit : Edit} : edit ∈ ordered edits ↔ edit ∈ edits :=
  (isStableSort_ordered edits).perm.mem_iff

/-- Of edits in the order of their spans that run forward, any two are apart as soon as
each ends before the next ones start. -/
theorem pairwise_ordered_iff (hfits : ∀ edit ∈ edits, edit.span.FitsIn size) :
    (ordered edits).Pairwise (fun left right => left.span.stop ≤ right.span.start) ↔
      edits.Pairwise Edit.IsApartFrom := by
  have hsorted := isStableSort_ordered edits
  rw [← hsorted.perm.pairwise_iff Edit.IsApartFrom.symm]
  constructor
  · intro hordered
    exact hordered.imp Or.inl
  · intro hapart
    refine (List.Pairwise.and_mem.mp (hsorted.ordered.and hapart)).imp ?_
    rintro left right ⟨hleft, hright, hbefore, hapart⟩
    have hforward := (hfits left (mem_ordered_iff.mp hleft)).1
    have hforward' := (hfits right (mem_ordered_iff.mp hright)).1
    rw [Span.before_iff] at hbefore
    rw [Edit.IsApartFrom] at hapart
    omega

theorem pairwise_isApartFrom_iff :
    edits.Pairwise Edit.IsApartFrom ↔
      ∀ i j (hi : i < edits.length) (hj : j < edits.length), i ≠ j →
        edits[i].IsApartFrom edits[j] := by
  rw [List.pairwise_iff_getElem]
  constructor
  · intro hpairs i j hi hj hne
    rcases Nat.lt_or_gt_of_ne hne with hlt | hgt
    · exact hpairs i j hi hj hlt
    · exact (hpairs j i hj hi hgt).symm
  · intro hpairs i j hi hj hlt
    exact hpairs i j hi hj (Nat.ne_of_lt hlt)

/-- Edits of which a fix of a text of `size` bytes can be made. -/
structure Compatible (size : Nat) (edits : List Edit) : Prop where
  ne_nil : edits ≠ []
  fitsIn : ∀ edit ∈ edits, edit.span.FitsIn size
  apart : ∀ i j (hi : i < edits.length) (hj : j < edits.length), i ≠ j →
    edits[i].span.stop ≤ edits[j].span.start ∨ edits[j].span.stop ≤ edits[i].span.start

theorem exists_ofEdits?_iff : (∃ fix, ofEdits? edits size = .ok fix) ↔ Compatible size edits := by
  constructor
  · rintro ⟨fix, hok⟩
    obtain ⟨hne, horder, hedits⟩ := ofEdits?_eq_ok_iff.mp hok
    rw [hedits] at horder
    have hfits : ∀ edit ∈ edits, edit.span.FitsIn size := fun edit hedit =>
      horder.fitsIn edit (mem_ordered_iff.mpr hedit)
    have hapart := (pairwise_ordered_iff hfits).mp horder.apart
    exact ⟨hne, hfits, pairwise_isApartFrom_iff.mp hapart⟩
  · intro hcompatible
    have hfits := hcompatible.fitsIn
    have hapart := pairwise_isApartFrom_iff.mpr hcompatible.apart
    refine ⟨⟨ordered edits⟩, ofEdits?_eq_ok_iff.mpr ⟨hcompatible.ne_nil, ⟨?_, ?_⟩, rfl⟩⟩
    · exact fun edit hedit => hfits edit (mem_ordered_iff.mp hedit)
    · exact (pairwise_ordered_iff hfits).mpr hapart

theorem Compatible.perm (hperm : other.Perm edits) (hcompatible : Compatible size edits) :
    Compatible size other where
  ne_nil := fun hnil => hcompatible.ne_nil (hnil ▸ hperm).symm.eq_nil
  fitsIn edit hedit := hcompatible.fitsIn edit (hperm.subset hedit)
  apart := pairwise_isApartFrom_iff.mp
    ((hperm.pairwise_iff Edit.IsApartFrom.symm).mpr
      (pairwise_isApartFrom_iff.mpr hcompatible.apart))

/-! ## Refused edits -/

theorem outOfBounds?_eq_some {span : Span} (hspan : outOfBounds? edits size = some span) :
    ∃ edit ∈ edits, edit.span = span ∧ ¬ edit.span.FitsIn size := by
  obtain ⟨edit, hfind, rfl⟩ := Option.map_eq_some_iff.mp hspan
  exact ⟨edit, List.mem_of_find?_eq_some hfind, rfl, by simpa using List.find?_some hfind⟩

theorem overlap?_eq_some {first second : Span} (hoverlap : overlap? edits = some (first, second)) :
    ∃ left right, [left, right].Sublist edits ∧ left.span = first ∧ right.span = second ∧
      right.span.start < left.span.stop := by
  induction edits with
  | nil => simp [overlap?] at hoverlap
  | cons left edits ih =>
      cases edits with
      | nil => simp [overlap?] at hoverlap
      | cons right rest =>
          rw [overlap?] at hoverlap
          split at hoverlap
          next hlt =>
            obtain ⟨rfl, rfl⟩ := Prod.mk.inj (Option.some.inj hoverlap)
            exact ⟨left, right, by simp, rfl, rfl, hlt⟩
          next =>
            obtain ⟨first, second, hpair, hspans⟩ := ih hoverlap
            exact ⟨first, second, hpair.cons left, hspans⟩

theorem ofEdits?_of_ne_nil (hne : edits ≠ []) :
    ofEdits? edits size =
      match outOfBounds? (ordered edits) size, overlap? (ordered edits) with
      | some span, _ => .error (.outOfBounds span size)
      | none, some (first, second) => .error (.overlap first second)
      | none, none => .ok ⟨ordered edits⟩ := by
  simp only [ofEdits?, List.isEmpty_iff, hne, if_false]
  rw [← ordered]
  cases outOfBounds? (ordered edits) size <;> cases overlap? (ordered edits) <;> rfl

theorem error_outOfBounds_iff {span : Span} {length : Nat} :
    ofEdits? edits size = .error (.outOfBounds span length) ↔
      outOfBounds? (ordered edits) size = some span ∧ length = size := by
  by_cases hempty : edits = []
  · simp [ofEdits?, hempty, ordered, StableSort.sort, outOfBounds?]
  · rw [ofEdits?_of_ne_nil hempty]
    cases outOfBounds? (ordered edits) size <;> cases overlap? (ordered edits) <;>
      simp [eq_comm]

theorem error_overlap_iff {first second : Span} :
    ofEdits? edits size = .error (.overlap first second) ↔
      outOfBounds? (ordered edits) size = none ∧
        overlap? (ordered edits) = some (first, second) := by
  by_cases hempty : edits = []
  · simp [ofEdits?, hempty, ordered, StableSort.sort, overlap?]
  · rw [ofEdits?_of_ne_nil hempty]
    cases outOfBounds? (ordered edits) size <;> cases overlap? (ordered edits) <;>
      simp [Prod.ext_iff]

theorem error_empty_iff : ofEdits? edits size = .error .empty ↔ edits = [] := by
  by_cases hempty : edits = []
  · simp [ofEdits?, hempty]
  · rw [ofEdits?_of_ne_nil hempty]
    cases outOfBounds? (ordered edits) size <;> cases overlap? (ordered edits) <;>
      simp [hempty]

/-- What is answered of edits to a text of `size` bytes. -/
structure IsVerdict (size : Nat) (edits : List Edit) (verdict : Except FixError Fix) : Prop where
  accepted_iff : (∃ fix, verdict = .ok fix) ↔ Compatible size edits
  /-- The edits of the fix are those given, in the order of their starts and then of their
  ends. -/
  ordered : ∀ fix, verdict = .ok fix →
    StableSort.IsStableSort (fun left right => left.span.before right.span) edits fix.edits
  /-- The last edit ends behind all others. -/
  range_eq : ∀ fix, verdict = .ok fix → ∃ first last, fix.edits.head? = some first ∧
    fix.edits.getLast? = some last ∧ (∀ edit ∈ edits, edit.span.stop ≤ last.span.stop) ∧
      fix.range = ⟨first.span.start, last.span.stop⟩
  empty_iff : verdict = .error .empty ↔ edits = []
  /-- An edit that leaves the text is reported, whatever else is wrong. -/
  outOfBounds_iff : (∃ span length, verdict = .error (.outOfBounds span length)) ↔
    ∃ edit ∈ edits, ¬ edit.span.FitsIn size
  outOfBounds_spec : ∀ span length, verdict = .error (.outOfBounds span length) →
    length = size ∧ ∃ edit ∈ edits, edit.span = span ∧ ¬ edit.span.FitsIn size
  /-- An overlap of two of the edits is reported only when all of them lie in the text. -/
  overlap_spec : ∀ first second, verdict = .error (.overlap first second) →
    (∀ edit ∈ edits, edit.span.FitsIn size) ∧ ∃ left right, [left, right].Subperm edits ∧
      left.span = first ∧ right.span = second ∧ ¬ left.IsApartFrom right

theorem exists_error_outOfBounds_iff :
    (∃ span length, ofEdits? edits size = .error (.outOfBounds span length)) ↔
      ∃ edit ∈ edits, ¬ edit.span.FitsIn size := by
  have hall : outOfBounds? (ordered edits) size = none ↔ _ := outOfBounds?_eq_none_iff
  simp only [error_outOfBounds_iff, mem_ordered_iff] at hall ⊢
  simpa [Option.ne_none_iff_exists', Classical.not_forall] using hall.not

/-- The accepted edits run up to the end of the last of them. -/
theorem exists_range_eq (horder : InOrder size fix.edits) (hne : fix.edits ≠ []) :
    ∃ first last, fix.edits.head? = some first ∧ fix.edits.getLast? = some last ∧
      (∀ edit ∈ fix.edits, edit.span.stop ≤ last.span.stop) ∧
        fix.range = ⟨first.span.start, last.span.stop⟩ := by
  have hlast : cursorAfter 0 fix.edits = (fix.edits.getLast hne).span.stop := by
    simp [cursorAfter, List.getLast?_eq_getLast_of_ne_nil hne]
  refine ⟨fix.edits.head hne, fix.edits.getLast hne, List.head?_eq_some_head hne,
    List.getLast?_eq_some_getLast hne, fun edit hedit => ?_, ?_⟩
  · rw [← hlast]
    exact horder.stop_le_cursorAfter 0 hedit
  · rw [← hlast, ← range_stop horder hne 0]
    obtain ⟨_ | ⟨first, rest⟩⟩ := fix
    · exact absurd rfl hne
    · rfl

/-- Edits are accepted when they are compatible, in whatever order they are given, and
otherwise an edit that leaves the text counts for more than two that overlap. -/
theorem ofEdits?_isVerdict (size : Nat) (edits : List Edit) :
    IsVerdict size edits (ofEdits? edits size) ∧
      ∀ other, other.Perm edits →
        ((∃ fix, ofEdits? other size = .ok fix) ↔ ∃ fix, ofEdits? edits size = .ok fix) := by
  refine ⟨⟨exists_ofEdits?_iff, ?ordered, ?range, error_empty_iff, exists_error_outOfBounds_iff,
    ?outOfBounds, ?overlap⟩, ?permuted⟩
  case ordered =>
    intro fix hok
    rw [(ofEdits?_eq_ok_iff.mp hok).2.2]
    exact isStableSort_ordered edits
  case range =>
    intro fix hok
    have horder : InOrder size fix.edits := (ofEdits?_eq_ok_iff.mp hok).2.1
    have hrange := exists_range_eq horder (edits_ne_nil_of_ofEdits? hok)
    simpa only [(perm_of_ofEdits? hok).mem_iff] using hrange
  case outOfBounds =>
    intro span length herror
    obtain ⟨hspan, rfl⟩ := error_outOfBounds_iff.mp herror
    simpa only [mem_ordered_iff, true_and] using outOfBounds?_eq_some hspan
  case overlap =>
    intro first second herror
    obtain ⟨hbounds, hoverlap⟩ := error_overlap_iff.mp herror
    have hfits : ∀ edit ∈ edits, edit.span.FitsIn size := fun edit hedit =>
      outOfBounds?_eq_none_iff.mp hbounds edit (mem_ordered_iff.mpr hedit)
    obtain ⟨left, right, hpair, hleft, hright, hlt⟩ := overlap?_eq_some hoverlap
    have hbefore : left.span.before right.span = true := by
      have hsorted := (isStableSort_ordered edits).ordered
      rw [List.pairwise_iff_forall_sublist] at hsorted
      exact hsorted hpair
    refine ⟨hfits, left, right, ?_, hleft, hright, ?_⟩
    · exact hpair.subperm.trans (isStableSort_ordered edits).perm.subperm
    · have hmem : right ∈ edits := mem_ordered_iff.mp (hpair.subset (by simp))
      have hforward := (hfits right hmem).1
      rw [Span.before_iff] at hbefore
      rw [Edit.IsApartFrom]
      omega
  case permuted =>
    intro other hperm
    rw [exists_ofEdits?_iff, exists_ofEdits?_iff]
    exact ⟨Compatible.perm hperm.symm, Compatible.perm hperm⟩

end Fix

end ReactiveLint
