import ReactiveLint.Text.Utf16

/-!
# Where a UTF-16 index lies

Every index has a byte index, which is within the text exactly when the index is.  An
answer is refused only where it would be too large for a word, and then it lies behind
the text.
-/

namespace ReactiveLint.Text.Utf16

variable {source : String} {cs : List Char} {index offset : Nat}

/-- The byte index of a UTF-16 index, however large. -/
def byteIndex (source : String) (index : Nat) : Nat :=
  (locate? source.toList index).getD
    (if source.toList.all (·.val < 128) then index else byteLength source.toList + index)

theorem width_of_ascii {c : Char} (hascii : c.val < 128) : width c = 1 := by
  have hsmall : c.val ≤ 0xFFFF := by
    rw [UInt32.le_iff_toNat_le]
    rw [UInt32.lt_iff_toNat_lt] at hascii
    exact Nat.le_trans (Nat.le_of_lt hascii) (by decide)
  rw [width, if_pos hsmall]

theorem utf8Size_of_ascii {c : Char} (hascii : c.val < 128) : c.utf8Size = 1 := by
  rw [Char.utf8Size, if_pos]
  rw [UInt32.le_iff_toNat_le]
  rw [UInt32.lt_iff_toNat_lt] at hascii
  exact Nat.le_of_lt_succ hascii

/-- An index that is not found in an ASCII text is greater than its length. -/
theorem byteLength_lt_of_ascii (hascii : cs.all (·.val < 128) = true)
    (hlocate : locate? cs index = none) : byteLength cs < index := by
  induction cs generalizing index with
  | nil =>
      rw [locate?] at hlocate
      split at hlocate
      · simp at hlocate
      · exact Nat.pos_of_ne_zero ‹_›
  | cons c cs ih =>
      rw [List.all_cons, Bool.and_eq_true, decide_eq_true_eq] at hascii
      rw [locate?, width_of_ascii hascii.1] at hlocate
      split at hlocate
      · simp at hlocate
      · have hrest := ih hascii.2 (Option.map_eq_none_iff.mp hlocate)
        rw [byteLength, utf8Size_of_ascii hascii.1]
        omega

theorem locate?_zero (cs : List Char) : locate? cs 0 = some 0 := by
  cases cs with
  | nil => rfl
  | cons c cs =>
      rw [locate?, if_pos]
      rw [width]
      split <;> decide

/-- An index that is not found lies behind the text. -/
theorem byteLength_lt_byteIndex (hlocate : locate? source.toList index = none) :
    byteLength source.toList < byteIndex source index := by
  rw [byteIndex, hlocate, Option.getD_none]
  split
  next hascii => exact byteLength_lt_of_ascii hascii hlocate
  next =>
    have hpos : index ≠ 0 := by
      rintro rfl
      simp [locate?_zero] at hlocate
    omega

theorem byteIndex_of_byteOffset? (hoffset : byteOffset? source index = some offset) :
    byteIndex source index = offset := by
  rw [byteOffset?] at hoffset
  rw [byteIndex]
  cases hlocate : locate? source.toList index with
  | some found =>
      simp only [hlocate] at hoffset
      exact Option.some.inj hoffset
  | none =>
      simp only [hlocate, Option.ite_none_right_eq_some] at hoffset
      exact Option.some.inj hoffset.2

theorem byteOffset?_of_le (hle : byteIndex source index ≤ byteLength source.toList) :
    byteOffset? source index = some (byteIndex source index) := by
  cases hlocate : locate? source.toList index with
  | some found => simp only [byteOffset?, byteIndex, hlocate, Option.getD_some]
  | none => exact absurd (byteLength_lt_byteIndex hlocate) (Nat.not_lt_of_le hle)

end ReactiveLint.Text.Utf16
