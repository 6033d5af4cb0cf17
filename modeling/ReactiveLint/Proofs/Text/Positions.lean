import ReactiveLint.Text.Lines

/-!
# Positions in a text

Passing a character never leads back, so positions are in the order of their offsets, and
every position is on a line of the text.
-/

namespace ReactiveLint.Text

/-- The order in which a text is read. -/
def Position.NotAfter (left right : Position) : Prop :=
  left.line < right.line ∨ left.line = right.line ∧ left.column ≤ right.column

namespace Position.NotAfter

variable {left middle right : Position}

theorem refl (position : Position) : position.NotAfter position := .inr ⟨rfl, Nat.le_refl _⟩

theorem trans (hleft : left.NotAfter middle) (hright : middle.NotAfter right) :
    left.NotAfter right := by
  rw [NotAfter] at *
  omega

theorem next (position : Position) (c : Char) : position.NotAfter (position.next c) := by
  rw [Position.next]
  split
  · exact .inl (Nat.lt_succ_self _)
  · exact .inr ⟨rfl, Nat.le_succ _⟩

theorem line_le (hle : left.NotAfter right) : left.line ≤ right.line := by
  rw [NotAfter] at hle
  omega

end Position.NotAfter

theorem notAfter_positionFrom (origin : Position) (cs : List Char) (offset : Nat) :
    origin.NotAfter (positionFrom origin cs offset) := by
  induction cs generalizing origin offset with
  | nil => exact .refl _
  | cons c cs ih =>
      rw [positionFrom]
      split
      · exact .refl _
      · exact (Position.NotAfter.next origin c).trans (ih _ _)

theorem positionFrom_mono (origin : Position) (cs : List Char) {start stop : Nat}
    (hle : start ≤ stop) :
    (positionFrom origin cs start).NotAfter (positionFrom origin cs stop) := by
  induction cs generalizing origin start stop with
  | nil => exact .refl _
  | cons c cs ih =>
      by_cases hstart : start = 0
      · rw [hstart, positionFrom_zero]
        exact notAfter_positionFrom _ _ _
      · have hstop : stop ≠ 0 := by omega
        rw [positionFrom, positionFrom, if_neg hstart, if_neg hstop]
        exact ih _ (Nat.sub_le_sub_right hle _)

/-- The position of an offset does not come before that of an earlier one. -/
theorem position_mono (source : String) {start stop : Nat} (hle : start ≤ stop) :
    (position source start).NotAfter (position source stop) :=
  positionFrom_mono .first source.toList hle

theorem Position.line_next (position : Position) (c : Char) :
    (position.next c).line = position.line + if c = '\n' then 1 else 0 := by
  rw [next]
  split <;> rfl

theorem length_lines_cons (c : Char) (cs : List Char) :
    (lines (c :: cs)).length = (lines cs).length + if c = '\n' then 1 else 0 := by
  rw [lines]
  split
  · rfl
  · cases hlines : lines cs with
    | nil => exact absurd hlines (lines_ne_nil cs)
    | cons line rest => rfl

theorem line_positionFrom_lt (origin : Position) (cs : List Char) (offset : Nat) :
    (positionFrom origin cs offset).line < origin.line + (lines cs).length := by
  induction cs generalizing origin offset with
  | nil => exact Nat.lt_succ_self _
  | cons c cs ih =>
      have hpos : 0 < (lines (c :: cs)).length := List.length_pos_iff.mpr (lines_ne_nil _)
      rw [positionFrom]
      split
      · omega
      · have hnext := ih (origin.next c) (offset - c.utf8Size)
        rw [Position.line_next] at hnext
        rw [length_lines_cons]
        omega

theorem one_le_line (source : String) (offset : Nat) : 1 ≤ (position source offset).line :=
  (notAfter_positionFrom .first source.toList offset).line_le

theorem line_le_lineCount (source : String) (offset : Nat) :
    (position source offset).line ≤ lineCount source := by
  have hlt := line_positionFrom_lt .first source.toList offset
  rw [position, lineCount]
  have hfirst : Position.first.line = 1 := rfl
  omega

/-- A line of a text that has it. -/
theorem exists_lineText? {source : String} {line : Nat} (hpos : 1 ≤ line)
    (hle : line ≤ lineCount source) :
    ∃ text, (lines source.toList)[line - 1]? = some text ∧
      lineText? source line = some (String.ofList (dropCarriageReturn text)) := by
  obtain ⟨index, rfl⟩ : ∃ index, line = index + 1 := ⟨line - 1, by omega⟩
  have hindex : index < (lines source.toList).length := hle
  refine ⟨(lines source.toList)[index], List.getElem?_eq_getElem hindex, ?_⟩
  rw [lineText?, List.getElem?_eq_getElem hindex]
  rfl

end ReactiveLint.Text
