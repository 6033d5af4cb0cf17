import ReactiveLint.Proofs.Pattern.Anchored

/-!
# Patterns of words

Words between the start and the end of a text, such as `^(repeatWhen|retryWhen)$`, make a
pattern that matches these words and no other text.
-/

namespace ReactiveLint.Pattern

variable {text : Array Char} {i j : Nat}

/-- The pattern of characters in a row. -/
def ofWord : List Char → Pattern
  | [] => .empty
  | c :: cs => lead (.one (.single c)) (ofWord cs)

/-- The pattern of a text that is one of some words. -/
def oneOf (first : String) (others : List String) : Pattern :=
  lead (.anchor .textStart)
    (.seq ((others.map fun word => ofWord word.toList).foldl .either (ofWord first.toList))
      (.anchor .textEnd))

/-- A position in a text has a character before what is left behind it. -/
theorem getElem?_eq_some_iff_drop {c : Char} :
    text[i]? = some c ↔ text.toList.drop i = c :: text.toList.drop (i + 1) := by
  rw [← Array.getElem?_toList, List.drop_eq_getElem?_toList_append]
  cases text.toList[i]? with
  | none => simp
  | some d => simp

theorem matches_single_iff {c : Char} :
    Matches text (.one (.single c)) i j ↔
      text.toList.drop i = c :: text.toList.drop j ∧ i + 1 = j := by
  have hholds (d : Char) : (CharSet.single c).holds d = true ↔ d = c := by
    simp only [CharSet.single, CharSet.holds, Bool.and_eq_true, decide_eq_true_eq]
    exact ⟨fun hbounds => Char.le_antisymm hbounds.2 hbounds.1,
      fun heq => heq ▸ ⟨Char.le_refl d, Char.le_refl d⟩⟩
  simp only [matches_one_iff, hholds]
  constructor
  · rintro ⟨d, hd, rfl, rfl⟩
    exact ⟨getElem?_eq_some_iff_drop.mp hd, rfl⟩
  · rintro ⟨hc, rfl⟩
    exact ⟨c, getElem?_eq_some_iff_drop.mpr hc, rfl, rfl⟩

/-- Characters in a row describe the pieces that consist of them. -/
theorem matches_ofWord_iff (word : List Char) :
    Matches text (ofWord word) i j ↔
      i ≤ text.size ∧ text.toList.drop i = word ++ text.toList.drop j ∧ i + word.length = j := by
  induction word generalizing i with
  | nil =>
      rw [ofWord, matches_empty_iff]
      constructor
      · rintro ⟨hi, rfl⟩
        exact ⟨hi, rfl, rfl⟩
      · rintro ⟨hi, -, hj⟩
        exact ⟨hi, hj⟩
  | cons c word ih =>
      rw [ofWord, matches_lead_iff]
      simp only [matches_single_iff, ih]
      constructor
      · rintro ⟨_, ⟨hc, rfl⟩, hi, hword, rfl⟩
        exact ⟨Nat.le_of_succ_le hi, by rw [hc, hword, List.cons_append],
          by rw [List.length_cons]; omega⟩
      · rintro ⟨hi, hdrop, rfl⟩
        have hlt : i < text.size := by
          by_contra hge
          rw [List.drop_eq_nil_of_le (by simpa using hge)] at hdrop
          cases hdrop
        have htail : text.toList.drop (i + 1) =
            word ++ text.toList.drop (i + (c :: word).length) := by
          rw [← List.tail_drop, hdrop]
          rfl
        exact ⟨i + 1, ⟨by rw [htail, hdrop, List.cons_append], rfl⟩, hlt, htail,
          by rw [List.length_cons]; omega⟩

/-- A pattern for a word at the start of a text matches the texts that begin with it. -/
theorem isMatch_textStart_ofWord_iff (word : List Char) {name : String} :
    (lead (.anchor .textStart) (ofWord word)).isMatch name = true ↔ word <+: name.toList := by
  simp only [isMatch_iff, matches_textStart_iff, matches_ofWord_iff]
  constructor
  · rintro ⟨_, j, rfl, -, hword, -⟩
    exact ⟨_, hword.symm⟩
  · rintro ⟨rest, hrest⟩
    exact ⟨0, word.length, rfl, Nat.zero_le _, by simp [← hrest], Nat.zero_add _⟩


/-- A search for one of some words as a whole text. -/
theorem isMatch_oneOf_iff {first name : String} {others : List String} :
    (oneOf first others).isMatch name = true ↔ name ∈ first :: others := by
  have hword (word : String) : Matches name.toList.toArray (ofWord word.toList) 0
      name.toList.toArray.size ↔ name = word := by
    rw [matches_ofWord_iff, ← String.toList_inj]
    simp only [List.drop_zero, List.size_toArray, List.drop_length, List.append_nil]
    exact ⟨fun hmatches => hmatches.2.1, fun heq => ⟨Nat.zero_le _, heq, by rw [heq]; omega⟩⟩
  have hmatches : (oneOf first others).isMatch name = true ↔
      Matches name.toList.toArray ((others.map fun word => ofWord word.toList).foldl .either
        (ofWord first.toList)) 0 name.toList.toArray.size := by
    simp only [isMatch_iff, oneOf, matches_textStart_iff, matches_seq_iff, matches_anchor_iff]
    constructor
    · rintro ⟨_, j, rfl, _, hwords, -, hend, rfl⟩
      rwa [beq_iff_eq.mp hend] at hwords
    · intro hwords
      exact ⟨0, _, rfl, _, hwords, Nat.le_refl _, beq_self_eq_true _, rfl⟩
  rw [hmatches, matches_foldl_either_iff]
  simp only [List.mem_cons, List.mem_map, exists_eq_or_imp, hword]
  constructor
  · rintro (rfl | ⟨_, ⟨word, hmem, rfl⟩, hmatch⟩)
    · exact .inl rfl
    · exact .inr ((hword word).mp hmatch ▸ hmem)
  · rintro (rfl | hmem)
    · exact .inl rfl
    · exact .inr ⟨_, ⟨name, hmem, rfl⟩, (hword name).mpr rfl⟩

example : parse? "^(add|subscribe)$" = some (oneOf "add" ["subscribe"]) := rfl

end ReactiveLint.Pattern
