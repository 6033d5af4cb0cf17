import ReactiveLint.Proofs.Fix.Gaps

/-!
# What applying a fix keeps

A fix keeps the text of a gap when the gap starts and ends between characters.  Where it
starts or ends inside a character, nothing of it is kept, and nothing reports this: a fix
is accepted by the number of bytes of the text alone.
-/

namespace ReactiveLint.Fix

open Text

variable {source : List Char} {edits : List Edit} {cursor start stop : Nat}

/-- A gap whose bytes stay in the text: it has none, or ends between characters on both
sides. -/
def IsKept (source : List Char) (gap : Span) : Prop :=
  gap.start < gap.stop → IsBoundary source gap.start ∧ IsBoundary source gap.stop

instance (source : List Char) (gap : Span) : Decidable (IsKept source gap) :=
  inferInstanceAs (Decidable (_ → _ ∧ _))

theorem between_of_le (hle : stop ≤ start) : between source start stop = [] := by
  rw [between, slice?]
  split
  · rfl
  · cases cut? start source with
    | none => rfl
    | some parts => simp [Nat.sub_eq_zero_of_le hle]

theorem between_of_not_isKept (hlost : ¬ IsKept source ⟨start, stop⟩) :
    between source start stop = [] := by
  have hnone : slice? source ⟨start, stop⟩ = none := by
    rw [← Option.not_isSome_iff_eq_none, isSome_slice?_iff]
    exact fun hslice => hlost fun _ => hslice.2
  rw [between, hnone, Option.getD_none]

theorem encode_between (hkept : IsKept source ⟨start, stop⟩) :
    encode (between source start stop) = bytesIn (encode source) ⟨start, stop⟩ := by
  rcases Nat.lt_or_ge start stop with hlt | hle
  · have hends : IsBoundary source start ∧ IsBoundary source stop := hkept hlt
    obtain ⟨before, middle, after, rfl, rfl, rfl⟩ :=
      exists_parts hends.1 hends.2 (Nat.le_of_lt hlt)
    rw [between_byteLength, bytesIn_encode]
  · rw [between_of_le hle, bytesIn_eq_nil (by simpa [Span.isEmpty] using hle), encode_nil]

theorem byteLength_between_le (source : List Char) (start stop : Nat) :
    byteLength (between source start stop) ≤ (bytesIn (encode source) ⟨start, stop⟩).length := by
  by_cases hkept : IsKept source ⟨start, stop⟩
  · exact Nat.le_of_eq (by rw [← encode_between hkept, length_encode])
  · rw [between_of_not_isKept hkept]
    exact Nat.zero_le _

theorem isKept_of_byteLength_between
    (hfits : Span.FitsIn ⟨start, stop⟩ (byteLength source))
    (hlength : byteLength (between source start stop) =
      (bytesIn (encode source) ⟨start, stop⟩).length) : IsKept source ⟨start, stop⟩ := by
  by_contra hlost
  rw [between_of_not_isKept hlost, length_bytesIn (by rwa [length_encode])] at hlength
  have hempty : 0 = stop - start := hlength
  have hlt : start < stop := Decidable.byContradiction fun hle => hlost fun hlt => absurd hlt hle
  omega

/-! ## From a cursor to the end -/

theorem onward_eq_between (source : List Char) (start : Nat) :
    onward source start = between source start (byteLength source) := by
  by_cases hstart : IsBoundary source start
  · obtain ⟨before, after, rfl, rfl⟩ := isBoundary_iff.mp hstart
    have hbetween := between_byteLength before after []
    rw [List.append_nil, ← byteLength_append] at hbetween
    rw [onward_byteLength, hbetween]
  · have hcut : cut? start source = none := by simpa [IsBoundary] using hstart
    simp [onward, between, slice?, hcut]

/-- The text that edits make of what lies behind a cursor. -/
def editedFrom (source : List Char) (cursor : Nat) (edits : List Edit) : List Char :=
  edited source cursor edits ++ onward source (cursorAfter cursor edits)

theorem toList_apply (fix : Fix) (source : String) :
    (fix.apply source).toList = editedFrom source.toList 0 fix.edits := by
  rw [apply, String.toList_ofList, editedFrom]

theorem editedFrom_nil (source : List Char) (cursor : Nat) :
    editedFrom source cursor [] = between source cursor (byteLength source) := by
  rw [editedFrom, edited, List.nil_append, cursorAfter_nil, onward_eq_between]

theorem editedFrom_cons (source : List Char) (cursor : Nat) (edit : Edit) (edits : List Edit) :
    editedFrom source cursor (edit :: edits) =
      between source cursor edit.span.start ++ edit.replacement.toList ++
        editedFrom source edit.span.stop edits := by
  rw [editedFrom, edited, cursorAfter_cons, List.append_assoc, ← editedFrom]

theorem encode_editedFrom
    (hkept : ∀ gap ∈ gaps (byteLength source) cursor edits, IsKept source gap) :
    encode (editedFrom source cursor edits) = editedBytes (encode source) cursor edits := by
  induction edits generalizing cursor with
  | nil =>
      rw [editedFrom_nil, editedBytes, length_encode]
      exact encode_between (hkept _ (by simp [gaps]))
  | cons edit edits ih =>
      rw [gaps, List.forall_mem_cons] at hkept
      rw [editedFrom_cons, editedBytes, encode_append, encode_append, encode_between hkept.1,
        ih hkept.2, bytes_eq_encode]

theorem byteLength_editedFrom_le (source : List Char) (cursor : Nat) (edits : List Edit) :
    byteLength (editedFrom source cursor edits) ≤
      (editedBytes (encode source) cursor edits).length := by
  induction edits generalizing cursor with
  | nil =>
      rw [editedFrom_nil, editedBytes, length_encode]
      exact byteLength_between_le source cursor _
  | cons edit edits ih =>
      have hgap := byteLength_between_le source cursor edit.span.start
      have hrest := ih edit.span.stop
      rw [editedFrom_cons, editedBytes, byteLength_append, byteLength_append, List.length_append,
        List.length_append, length_bytes]
      omega

/-- Where the edited text is as long as it should be, no gap was lost: a lost gap makes it
shorter, and nothing makes it longer. -/
theorem isKept_of_byteLength_editedFrom
    (hfits : ∀ gap ∈ gaps (byteLength source) cursor edits, gap.FitsIn (byteLength source))
    (hlength : byteLength (editedFrom source cursor edits) =
      (editedBytes (encode source) cursor edits).length) :
    ∀ gap ∈ gaps (byteLength source) cursor edits, IsKept source gap := by
  induction edits generalizing cursor with
  | nil =>
      rw [editedFrom_nil, editedBytes, length_encode] at hlength
      rw [gaps, List.forall_mem_singleton] at hfits ⊢
      exact isKept_of_byteLength_between hfits hlength
  | cons edit edits ih =>
      have hgap := byteLength_between_le source cursor edit.span.start
      have hrest := byteLength_editedFrom_le source edit.span.stop edits
      rw [editedFrom_cons, editedBytes, byteLength_append, byteLength_append, List.length_append,
        List.length_append, length_bytes] at hlength
      rw [gaps, List.forall_mem_cons] at hfits ⊢
      constructor
      · exact isKept_of_byteLength_between hfits.1 (by omega)
      · exact ih hfits.2 (by omega)

theorem isKept_gaps (hends : OnBoundaries source edits) (hcursor : IsBoundary source cursor) :
    ∀ gap ∈ gaps (byteLength source) cursor edits, IsKept source gap := by
  induction edits generalizing cursor with
  | nil =>
      rw [gaps, List.forall_mem_singleton]
      exact fun _ => ⟨hcursor, isBoundary_iff.mpr ⟨source, [], by simp, rfl⟩⟩
  | cons edit edits ih =>
      obtain ⟨⟨hstart, hstop⟩, hends⟩ := List.forall_mem_cons.mp hends
      rw [gaps, List.forall_mem_cons]
      exact ⟨fun _ => ⟨hcursor, hstart⟩, ih hends hstop⟩

/-! ## Accepted fixes -/

/-- An accepted fix leaves to the text the bytes outside its edits.  Applying it keeps
them, each once and in order, with each replacement in its place, exactly when every gap
that holds any of them ends between characters. -/
theorem bytes_apply_iff {source : String} {edits : List Edit} {fix : Fix}
    (haccepted : ofEdits? edits (byteLength source.toList) = .ok fix) :
    (gaps (byteLength source.toList) 0 fix.edits).flatMap Span.offsets =
        ((List.range (byteLength source.toList)).filter fun offset =>
          edits.all fun edit => !edit.span.covers offset) ∧
      (bytes (fix.apply source) = editedBytes (bytes source) 0 fix.edits ↔
        ∀ gap ∈ gaps (byteLength source.toList) 0 fix.edits, IsKept source.toList gap) := by
  have horder : InOrder (byteLength source.toList) fix.edits :=
    (ofEdits?_eq_ok_iff.mp haccepted).2.1
  have hahead : ∀ edit ∈ fix.edits, 0 ≤ edit.span.start := fun _ _ => Nat.zero_le _
  refine ⟨?offsets, ?bytes⟩
  case offsets =>
    rw [horder.offsets_gaps hahead (Nat.zero_le _), List.range_eq_range', Span.offsets]
    simp only [(perm_of_ofEdits? haccepted).all_eq, Span.length, Nat.sub_zero]
  case bytes =>
    rw [bytes_eq_encode, bytes_eq_encode, toList_apply]
    constructor
    · intro heq
      apply isKept_of_byteLength_editedFrom (horder.fitsIn_gaps hahead (Nat.zero_le _))
      rw [← heq, length_encode]
    · exact encode_editedFrom

/-- Edits that meet inside a character leave no gap there, and lose nothing. -/
theorem bytes_apply_halves :
    ofEdits? [⟨⟨1, 2⟩, "e"⟩, ⟨⟨0, 1⟩, "t"⟩] (byteLength "é!".toList) =
        .ok ⟨[⟨⟨0, 1⟩, "t"⟩, ⟨⟨1, 2⟩, "e"⟩]⟩ ∧
      bytes (apply ⟨[⟨⟨0, 1⟩, "t"⟩, ⟨⟨1, 2⟩, "e"⟩]⟩ "é!") =
        editedBytes (bytes "é!") 0 [⟨⟨0, 1⟩, "t"⟩, ⟨⟨1, 2⟩, "e"⟩] :=
  have haccepted : ofEdits? [⟨⟨1, 2⟩, "e"⟩, ⟨⟨0, 1⟩, "t"⟩] (byteLength "é!".toList) =
      .ok ⟨[⟨⟨0, 1⟩, "t"⟩, ⟨⟨1, 2⟩, "e"⟩]⟩ := by decide
  ⟨haccepted, (bytes_apply_iff haccepted).2.mpr (by decide)⟩

/-- Taking out the second byte of one character and the first of the next leaves the bytes
of a text, and applying the fix leaves nothing at all. -/
theorem not_forall_bytes_apply :
    ¬ ∀ (source : String) (edits : List Edit) (fix : Fix),
      ofEdits? edits (byteLength source.toList) = .ok fix →
        bytes (fix.apply source) = editedBytes (bytes source) 0 fix.edits := by
  intro hkeeps
  have hbytes := hkeeps "x = \"éé\";" [⟨⟨6, 8⟩, ""⟩] ⟨[⟨⟨6, 8⟩, ""⟩]⟩ (by decide)
  rw [bytes_eq_encode, bytes_eq_encode, toList_apply] at hbytes
  revert hbytes
  decide

end ReactiveLint.Fix
