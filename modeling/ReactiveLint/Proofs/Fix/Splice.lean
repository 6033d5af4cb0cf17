import ReactiveLint.Proofs.Fix.InOrder

/-!
# Texts with edits made

`Fix.Splice` relates a text, a list of edits, and the text with the edits made: what
lies between the edits is kept, once and in order, and each replacement stands where
the text of its span was.  `Fix.edited` makes edits that are in order and end between
characters so.
-/

namespace ReactiveLint

namespace Text

variable {cs : List Char} {start stop : Nat}

theorem isBoundary_iff :
    IsBoundary cs stop ↔ ∃ before after, cs = before ++ after ∧ byteLength before = stop := by
  rw [IsBoundary, Option.isSome_iff_exists]
  constructor
  · rintro ⟨⟨before, after⟩, hcut⟩
    exact ⟨before, after, cut?_eq_some hcut⟩
  · rintro ⟨before, after, hparts⟩
    exact ⟨(before, after), cut?_eq_some_iff.mpr hparts⟩

theorem isBoundary_zero (cs : List Char) : IsBoundary cs 0 := by
  simp [IsBoundary]

theorem eq_nil_of_byteLength_eq_zero (hlength : byteLength cs = 0) : cs = [] := by
  cases cs with
  | nil => rfl
  | cons c cs =>
      have hpos := c.utf8Size_pos
      simp only [byteLength] at hlength
      omega

/-- Two boundaries in order cut a text into three. -/
theorem exists_parts (hstart : IsBoundary cs start) (hstop : IsBoundary cs stop)
    (hle : start ≤ stop) :
    ∃ before middle after, cs = before ++ (middle ++ after) ∧ byteLength before = start ∧
      start + byteLength middle = stop := by
  obtain ⟨before, rest, rfl, rfl⟩ := isBoundary_iff.mp hstart
  obtain ⟨longer, after, hparts, rfl⟩ := isBoundary_iff.mp hstop
  rcases List.append_eq_append_iff.mp hparts with ⟨middle, rfl, rfl⟩ | ⟨extra, rfl, rfl⟩
  · exact ⟨before, middle, after, rfl, rfl, (byteLength_append before middle).symm⟩
  · rw [byteLength_append] at hle
    obtain rfl : extra = [] := eq_nil_of_byteLength_eq_zero (by omega)
    exact ⟨longer, [], rest, by simp, by simp, by simp [byteLength]⟩

end Text

namespace Fix

open Text

variable {source : List Char} {start stop : Nat}

theorem onward_byteLength (before after : List Char) :
    onward (before ++ after) (byteLength before) = after := by
  simp [onward, cut?_byteLength_append]

theorem between_byteLength (before middle after : List Char) :
    between (before ++ (middle ++ after)) (byteLength before)
      (byteLength before + byteLength middle) = middle := by
  simp [between, slice?, cut?_byteLength_append, Nat.not_lt.mpr (Nat.le_add_right _ _)]

theorem onward_zero (source : List Char) : onward source 0 = source := by
  simp [onward]

/-- The text from one boundary on is the text up to a later one and the text from there. -/
theorem onward_eq_between_append (hstart : IsBoundary source start)
    (hstop : IsBoundary source stop) (hle : start ≤ stop) :
    onward source start = between source start stop ++ onward source stop := by
  obtain ⟨before, middle, after, rfl, rfl, rfl⟩ := exists_parts hstart hstop hle
  rw [onward_byteLength, between_byteLength, ← List.append_assoc before,
    ← byteLength_append before, onward_byteLength]

theorem byteLength_between (hstart : IsBoundary source start) (hstop : IsBoundary source stop)
    (hle : start ≤ stop) : start + byteLength (between source start stop) = stop := by
  obtain ⟨before, middle, after, rfl, rfl, rfl⟩ := exists_parts hstart hstop hle
  rw [between_byteLength]

/-! ## Splices -/

/-- `Splice cursor text edits out`: in a text whose first byte is byte `cursor` of the
source, making the edits gives `out`. -/
inductive Splice : Nat → List Char → List Edit → List Char → Prop
  | done (cursor : Nat) (text : List Char) : Splice cursor text [] text
  | edit {cursor : Nat} {edit : Edit} {edits : List Edit} {text out : List Char}
      (kept removed : List Char)
      (hstart : edit.span.start = cursor + byteLength kept)
      (hstop : edit.span.stop = edit.span.start + byteLength removed)
      (hrest : Splice edit.span.stop text edits out) :
      Splice cursor (kept ++ (removed ++ text)) (edit :: edits)
        (kept ++ (edit.replacement.toList ++ out))

/-- Edits whose ends lie between characters of a text. -/
def OnBoundaries (source : List Char) (edits : List Edit) : Prop :=
  ∀ edit ∈ edits, IsBoundary source edit.span.start ∧ IsBoundary source edit.span.stop

instance (source : List Char) (edits : List Edit) : Decidable (OnBoundaries source edits) :=
  inferInstanceAs (Decidable (∀ edit ∈ edits, _ ∧ _))

theorem splice_edited {size cursor : Nat} {edits : List Edit} (horder : InOrder size edits)
    (hedits : OnBoundaries source edits) (hcursor : IsBoundary source cursor)
    (hahead : ∀ edit ∈ edits, cursor ≤ edit.span.start) :
    Splice cursor (onward source cursor) edits
      (edited source cursor edits ++ onward source (cursorAfter cursor edits)) := by
  induction edits generalizing cursor with
  | nil => exact .done cursor (onward source cursor)
  | cons edit edits ih =>
      obtain ⟨⟨hstart, hstop⟩, hedits⟩ := List.forall_mem_cons.mp hedits
      have hfirst := hahead edit (by simp)
      have hforward := (horder.fitsIn edit (by simp)).1
      have hrest := ih horder.tail hedits hstop fun other hother => horder.stop_le_start hother
      rw [onward_eq_between_append hcursor hstart hfirst,
        onward_eq_between_append hstart hstop hforward, edited, cursorAfter_cons,
        List.append_assoc, List.append_assoc]
      exact .edit _ _ (byteLength_between hcursor hstart hfirst).symm
        (byteLength_between hstart hstop hforward).symm hrest

/-- An accepted fix makes its edits to the source. -/
theorem splice_apply {fix : Fix} {source : String}
    (horder : InOrder (byteLength source.toList) fix.edits)
    (hedits : OnBoundaries source.toList fix.edits) :
    Splice 0 source.toList fix.edits (fix.apply source).toList := by
  have hsplice := splice_edited horder hedits (isBoundary_zero _) fun _ _ => Nat.zero_le _
  rw [onward_zero] at hsplice
  simpa only [apply, String.toList_ofList] using hsplice

/-! ## Edits one list after another -/

theorem edited_append (source : List Char) (cursor : Nat) (first second : List Edit) :
    edited source cursor (first ++ second) =
      edited source cursor first ++ edited source (cursorAfter cursor first) second := by
  induction first generalizing cursor with
  | nil => rfl
  | cons edit edits ih =>
      rw [List.cons_append, edited, edited, cursorAfter_cons, ih, ← List.append_assoc]

end Fix

end ReactiveLint
