import Mathlib.Tactic.Ring
import ReactiveLint.Proofs.Engine.Summary

/-!
# Average times

The time of one evaluation is the total divided by the count of evaluations, rounded down.  As
the divisor is the count in a word of 32 bits, this holds of counts that fit the word, and of
larger ones only where the total is too small to tell.  A larger count can leave nothing to
divide by; then there is no table of the timings either.
-/

namespace ReactiveLint

namespace RuleTiming

variable {timing : RuleTiming}

/-- An average in whole nanoseconds: so much for each evaluation makes no more than the total,
and one nanosecond more makes more. -/
def IsAverage (timing : RuleTiming) (average : Nat) : Prop :=
  average * timing.evaluationCount ≤ timing.total ∧
    timing.total < (average + 1) * timing.evaluationCount

/-- A count that its word can stand for when a total is divided. -/
def FitsWord (count total : Nat) : Prop := count < 2 ^ 32 ∨ total < count % 2 ^ 32

theorem divisor_eq (timing : RuleTiming) : timing.divisor = timing.evaluationCount % 2 ^ 32 := rfl

theorem isAverage_iff (hpos : 0 < timing.evaluationCount) {average : Nat} :
    timing.IsAverage average ↔ timing.total / timing.evaluationCount = average := by
  rw [IsAverage, ← Nat.le_div_iff_mul_le hpos, ← Nat.div_lt_iff_lt_mul hpos]
  omega

/-- There is no average exactly where the word of a count other than zero is zero. -/
theorem average?_eq_none_iff :
    timing.average? = none ↔ timing.evaluationCount ≠ 0 ∧ 2 ^ 32 ∣ timing.evaluationCount := by
  rw [Nat.dvd_iff_mod_eq_zero, ← divisor_eq, average?]
  split
  next hzero => simp [hzero]
  next hcount => simp [hcount]

theorem average?_of_divisor (hdivisor : timing.divisor ≠ 0) :
    timing.average? = some (timing.total / timing.divisor) := by
  have hcount : timing.evaluationCount ≠ 0 := fun hzero => hdivisor (by rw [divisor_eq, hzero]; rfl)
  rw [average?, if_neg hcount, if_neg hdivisor]

/-- What is left of a count in a word that it does not fit is less than half of it, so that a
quotient other than zero at least doubles. -/
theorem div_mod_eq_div_iff {count total word : Nat} (hword : 0 < word) (hlarge : word ≤ count)
    (hrest : count % word ≠ 0) :
    total / (count % word) = total / count ↔ total < count % word := by
  have hhalf : 2 * (count % word) ≤ count := by
    have hless := Nat.mod_lt count hword
    have hleft := Nat.mod_le (count - word) word
    rw [← Nat.mod_eq_sub_mod hlarge] at hleft
    omega
  constructor
  · intro hsame
    have hdouble : 2 * (total / count) ≤ total / count := by
      rw [← hsame, Nat.le_div_iff_mul_le (Nat.pos_of_ne_zero hrest), hsame]
      calc 2 * (total / count) * (count % word)
          = total / count * (2 * (count % word)) := by ring
        _ ≤ total / count * count := Nat.mul_le_mul_left _ hhalf
        _ ≤ total := Nat.div_mul_le_self total count
    have hzero : total / (count % word) = 0 := by omega
    exact (Nat.div_eq_zero_iff.mp hzero).resolve_left hrest
  · intro hsmall
    rw [Nat.div_eq_of_lt hsmall, Nat.div_eq_of_lt (by omega)]

/-- The average is right exactly where the word stands for the count. -/
theorem exists_isAverage_iff (hpos : 0 < timing.evaluationCount) :
    (∃ average, timing.average? = some average ∧ timing.IsAverage average) ↔
      FitsWord timing.evaluationCount timing.total := by
  by_cases hdivisor : timing.divisor = 0
  · have hnone : timing.average? = none := by
      rw [average?, if_neg hpos.ne', if_pos hdivisor]
    rw [divisor_eq] at hdivisor
    simp only [hnone, reduceCtorEq, false_and, exists_false, FitsWord, hdivisor, Nat.not_lt_zero,
      or_false, false_iff]
    omega
  · rw [average?_of_divisor hdivisor]
    simp only [Option.some.injEq, isAverage_iff hpos, exists_eq_left', FitsWord]
    rw [divisor_eq] at hdivisor ⊢
    rcases Nat.lt_or_ge timing.evaluationCount (2 ^ 32) with hsmall | hlarge
    · rw [Nat.mod_eq_of_lt hsmall]
      exact iff_of_true rfl (.inl hsmall)
    · rw [eq_comm, div_mod_eq_div_iff (by decide) hlarge hdivisor]
      exact (or_iff_right (Nat.not_lt.mpr hlarge)).symm

theorem isSome_average?_of_fitsWord (hfits : FitsWord timing.evaluationCount timing.total) :
    timing.average?.isSome = true := by
  rcases Nat.eq_zero_or_pos timing.evaluationCount with hzero | hpos
  · rw [average?, if_pos hzero]
    rfl
  · obtain ⟨average, haverage, -⟩ := (exists_isAverage_iff hpos).mpr hfits
    rw [haverage]
    rfl

end RuleTiming

namespace Timings

theorem isSome_mapM_iff {A B : Type} {make? : A → Option B} {items : List A} :
    (items.mapM make?).isSome = true ↔ ∀ item ∈ items, (make? item).isSome = true := by
  induction items with
  | nil => simp
  | cons item items ih =>
      rw [List.mapM_cons, List.forall_mem_cons, ← ih]
      cases make? item <;> cases items.mapM make? <;> simp

/-- The table of timings can be written exactly when every timing has an average. -/
theorem isSome_table?_iff (timings : Timings) :
    timings.table?.isSome = true ↔ ∀ timing ∈ timings, timing.average?.isSome = true := by
  have hrow : ∀ timing : RuleTiming, timing.row?.isSome = timing.average?.isSome := by
    intro timing
    rw [RuleTiming.row?]
    cases timing.average? <;> rfl
  rw [table?]
  split
  next hempty =>
    obtain rfl := List.isEmpty_iff.mp hempty
    simp
  next =>
    have hwritten : ∀ (rows? : Option (List String)) (write : List String → String),
        (do return write (← rows?) : Option String).isSome = rows?.isSome := by
      intro rows? write
      cases rows? <;> rfl
    refine (Bool.eq_iff_iff.mp (hwritten _ _)).trans ?_
    rw [isSome_mapM_iff]
    simp only [hrow, sorted, (StableSort.perm_sort _ timings).mem_iff]

end Timings

namespace LintSummary

variable {reports : List FileReport} {summary : LintSummary}

/-- No time is divided by zero, and the averages are what they should be. -/
structure AveragesFit (summary : LintSummary) : Prop where
  isSome_average? : ∀ timing ∈ summary.timings, timing.average?.isSome = true
  isSome_table? : (Timings.table? summary.timings).isSome = true
  isAverage : ∀ timing ∈ summary.timings, 0 < timing.evaluationCount →
    ∃ average, timing.average? = some average ∧ timing.IsAverage average

theorem averagesFit_iff_forall :
    summary.AveragesFit ↔ ∀ timing ∈ summary.timings,
      RuleTiming.FitsWord timing.evaluationCount timing.total := by
  constructor
  · intro hfit timing htiming
    rcases Nat.eq_zero_or_pos timing.evaluationCount with hzero | hpos
    · exact .inl (by omega)
    · exact (RuleTiming.exists_isAverage_iff hpos).mp (hfit.isAverage timing htiming hpos)
  · intro hfits
    have haverages : ∀ timing ∈ summary.timings, timing.average?.isSome = true :=
      fun timing htiming => RuleTiming.isSome_average?_of_fitsWord (hfits timing htiming)
    exact ⟨haverages, (Timings.isSome_table?_iff _).mpr haverages,
      fun timing htiming hpos => (RuleTiming.exists_isAverage_iff hpos).mpr (hfits timing htiming)⟩

/-- What all reports count for a rule. -/
def sumOver (count : RuleTiming → Nat) (rule : String) (reports : List FileReport) : Nat :=
  (reports.map fun report => Timings.sumFor count rule report.timings).sum

section Merged

variable (htables : ∀ report ∈ reports, (Timings.rules report.timings).Nodup)
  (hmerged : IsMerged reports summary)

include htables hmerged

theorem sumOver_eq {count : RuleTiming → Nat} (hadditive : RuleTiming.IsAdditive count)
    {timing : RuleTiming} (htiming : timing ∈ summary.timings) :
    sumOver count timing.rule reports = count timing := by
  rw [← Timings.sumFor_of_mem count (hmerged.nodup_rules htables) htiming,
    hmerged.sumsUp.sumFor_eq count hadditive]
  rfl

omit htables in
/-- A rule with evaluations has a timing. -/
theorem exists_timing_of_sumOver_ne_zero {rule : String}
    (hcount : sumOver (·.evaluationCount) rule reports ≠ 0) :
    ∃ timing ∈ summary.timings, timing.rule = rule := by
  rw [sumOver, ← hmerged.sumsUp.sumFor_eq _ fun _ _ => rfl] at hcount
  exact List.mem_map.mp (not_not.mp fun hrule => hcount (Timings.sumFor_eq_zero hrule))

/-- The timings of merged reports, in whatever bracketing, have their averages exactly when the
sums for each rule fit the word in which times are divided, and they cannot be written exactly
when the evaluations of a rule leave nothing to divide by. -/
theorem averagesFit_iff :
    (summary.AveragesFit ↔ ∀ rule, RuleTiming.FitsWord (sumOver (·.evaluationCount) rule reports)
      (sumOver (·.total) rule reports)) ∧
    (Timings.table? summary.timings = none ↔ ∃ rule,
      sumOver (·.evaluationCount) rule reports ≠ 0 ∧
        2 ^ 32 ∣ sumOver (·.evaluationCount) rule reports) := by
  have hevaluations : ∀ timing ∈ summary.timings,
      sumOver (·.evaluationCount) timing.rule reports = timing.evaluationCount :=
    fun timing htiming => sumOver_eq htables hmerged (fun _ _ => rfl) htiming
  have htotals : ∀ timing ∈ summary.timings,
      sumOver (·.total) timing.rule reports = timing.total :=
    fun timing htiming => sumOver_eq htables hmerged (fun _ _ => rfl) htiming
  refine ⟨averagesFit_iff_forall.trans ⟨fun hfits rule => ?_, fun hfits timing htiming => ?_⟩, ?_⟩
  · by_cases hcount : sumOver (·.evaluationCount) rule reports = 0
    · exact .inl (by rw [hcount]; decide)
    · obtain ⟨timing, htiming, rfl⟩ := exists_timing_of_sumOver_ne_zero hmerged hcount
      rw [hevaluations timing htiming, htotals timing htiming]
      exact hfits timing htiming
  · rw [← hevaluations timing htiming, ← htotals timing htiming]
    exact hfits timing.rule
  · rw [← Option.not_isSome_iff_eq_none, Timings.isSome_table?_iff]
    simp only [not_forall, Option.not_isSome_iff_eq_none, RuleTiming.average?_eq_none_iff]
    constructor
    · rintro ⟨timing, htiming, hzero⟩
      exact ⟨timing.rule, by rwa [hevaluations timing htiming]⟩
    · rintro ⟨rule, hcount, hdvd⟩
      obtain ⟨timing, htiming, rfl⟩ := exists_timing_of_sumOver_ne_zero hmerged hcount
      rw [hevaluations timing htiming] at hcount hdvd
      exact ⟨timing, htiming, hcount, hdvd⟩

end Merged

/-- A report with one timing. -/
def reportWith (rule : String) (total evaluationCount : Nat) : FileReport where
  path := "a.ts"
  timings := [{ rule, total, evaluationCount }]

/-- Counts of less than half a word and of half a word make one that the word holds. -/
theorem averagesFit_reportWith :
    let reports := [reportWith "just" 4294967297 2147483647, reportWith "just" 7 2147483648]
    let summary := (ofFile (reportWith "just" 4294967297 2147483647)).merge
      (ofFile (reportWith "just" 7 2147483648))
    (∀ report ∈ reports, (Timings.rules report.timings).Nodup) ∧ IsMerged reports summary ∧
      summary.AveragesFit ∧ Timings.table? summary.timings ≠ none := by
  intro reports summary
  have htables : ∀ report ∈ reports, (Timings.rules report.timings).Nodup := by decide
  have hmerged : IsMerged reports summary := (IsMerged.file _).merge (.file _)
  have hcount : ∀ rule, sumOver (·.evaluationCount) rule reports =
      if rule = "just" then 4294967295 else 0 := by
    intro rule
    by_cases hrule : rule = "just"
    · subst hrule
      rfl
    · simp [sumOver, reports, reportWith, Timings.sumFor_cons, hrule, Ne.symm hrule]
  obtain ⟨hfits, hwritten⟩ := averagesFit_iff htables hmerged
  refine ⟨htables, hmerged, hfits.mpr fun rule => .inl ?_, fun hnone => ?_⟩
  · rw [hcount]
    split <;> decide
  · obtain ⟨rule, hne, hdvd⟩ := hwritten.mp hnone
    rw [hcount] at hne hdvd
    split at hdvd
    next => exact absurd hdvd (by decide)
    next hrule => exact hne (if_neg hrule)

/-- A count of one more than the word holds is divided by as one. -/
theorem not_forall_averagesFit :
    ¬ ∀ (reports : List FileReport) (summary : LintSummary),
      (∀ report ∈ reports, (Timings.rules report.timings).Nodup) → IsMerged reports summary →
      (∀ timing ∈ summary.timings, timing.evaluationCount < 2 ^ 64) → summary.AveragesFit := by
  intro hall
  have hmerged : IsMerged
      ([reportWith "just" 4294967297 2147483648] ++ [reportWith "just" 4294967297 2147483649])
      ((ofFile (reportWith "just" 4294967297 2147483648)).merge
        (ofFile (reportWith "just" 4294967297 2147483649))) :=
    (IsMerged.file _).merge (.file _)
  have hfit := hall _ _ (by decide) hmerged (by decide)
  have hword := averagesFit_iff_forall.mp hfit ⟨"just", 8589934594, 4294967297, 0⟩ (by decide)
  rcases hword with hsmall | hsmall <;> exact absurd hsmall (by decide)

end LintSummary

end ReactiveLint
