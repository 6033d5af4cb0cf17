import ReactiveLint.Proofs.Text.Characters
import ReactiveLint.Text.Letter

/-!
# Blanks and words

No blank is a letter or a number.  The tables of letters and of categories settle this for each
of the blanks; only the lines up to the last blank are looked at.
-/

namespace ReactiveLint.Text

variable {c : Char}

/-- The blanks one by one. -/
def blanks : List Char :=
  blankRanges.flatMap fun range =>
    (List.range' range.first (range.last + 1 - range.first)).map Char.ofNat

theorem mem_blanks (hblank : isBlank c = true) : c ∈ blanks := by
  obtain ⟨range, hrange, hholds⟩ := CodeRange.exists_of_member hblank
  simp only [CodeRange.holds, Bool.and_eq_true, decide_eq_true_eq] at hholds
  refine List.mem_flatMap.mpr ⟨range, hrange, List.mem_map.mpr ⟨c.toNat, ?_, Char.ofNat_toNat c⟩⟩
  exact List.mem_range'_1.mpr ⟨hholds.1, by omega⟩

/-! ## Tables -/

section Tables

variable {A : Type} {read : List Char → List A} {lines : List String} {items : List A}

/-- What is read from lines, where the characters of the first lines are spelled out: the
characters of a literal are slow to compute, but a literal is known to be made of them. -/
inductive IsSpelled (read : List Char → List A) : List String → List A → Prop
  | rest (lines : List String) : IsSpelled read lines (lines.flatMap fun line => read line.toList)
  | line {cs : List Char} {lines : List String} {items : List A}
      (hlines : IsSpelled read lines items) :
      IsSpelled read (String.ofList cs :: lines) (read cs ++ items)

theorem IsSpelled.flatMap_eq (hspelled : IsSpelled read lines items) :
    (lines.flatMap fun line => read line.toList) = items := by
  induction hspelled with
  | rest => rfl
  | line _ ih => rw [List.flatMap_cons, ih, String.toList_ofList]

end Tables

theorem exists_alphabeticRanges_eq :
    ∃ ranges, alphabeticRanges = ranges ∧
      (blanks.all fun c => !CodeRange.member ranges c.toNat) = true := by
  apply Exists.intro
  apply And.intro
  · apply @IsSpelled.flatMap_eq _ fun cs => (CodeRange.words cs).map CodeRange.ofWord
    dsimp only
    -- The lines that follow are behind the last blank.
    iterate 40 apply IsSpelled.line
    exact .rest _
  · decide +kernel

theorem exists_runs_eq :
    ∃ runs, Category.runs = runs ∧
      (blanks.all fun c => !List.contains [.decimalNumber, .letterNumber, .otherNumber]
        (Category.lookup .unassigned runs c.toNat)) = true := by
  apply Exists.intro
  apply And.intro
  · apply @IsSpelled.flatMap_eq _ fun cs => (CodeRange.words cs).map Category.Run.ofWord
    unfold Category.runLines
    dsimp only
    iterate 174 apply IsSpelled.line
    exact .rest _
  · decide +kernel

theorem isAlphabetic_eq_false_of_isBlank (hblank : isBlank c = true) : isAlphabetic c = false := by
  obtain ⟨ranges, hranges, hall⟩ := exists_alphabeticRanges_eq
  rw [isAlphabetic, hranges, ← Bool.not_eq_true']
  exact List.all_eq_true.mp hall c (mem_blanks hblank)

theorem isNumeric_eq_false_of_isBlank (hblank : isBlank c = true) : isNumeric c = false := by
  obtain ⟨runs, hruns, hall⟩ := exists_runs_eq
  rw [isNumeric, Category.ofChar, hruns, ← Bool.not_eq_true']
  exact List.all_eq_true.mp hall c (mem_blanks hblank)

theorem isAlphanumeric_eq_false_of_isBlank (hblank : isBlank c = true) :
    isAlphanumeric c = false := by
  rw [isAlphanumeric, isAlphabetic_eq_false_of_isBlank hblank,
    isNumeric_eq_false_of_isBlank hblank, Bool.false_or]

end ReactiveLint.Text
