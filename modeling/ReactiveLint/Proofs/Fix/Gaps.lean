import Mathlib.Data.List.Basic
import ReactiveLint.Proofs.Fix.Splice

/-!
# What edits leave of a text

Edits to a text leave the gaps between them: from a cursor to the first edit, from each
edit to the next, and from the last one to the end of the text.  Edits in order leave
every byte outside their spans in exactly one gap.  In edits as they come a gap may run
backward, and bytes that are stepped back over in this way are passed again.
-/

namespace ReactiveLint

/-!
## The bytes of a text

Offsets count the bytes of the UTF-8 form of a text.  `Text.encode` gives these bytes, and
cutting the text between two characters cuts them at the offset.
-/

namespace Text

variable {cs : List Char} {start stop : Nat}

/-- The UTF-8 form of characters. -/
def encode (cs : List Char) : List UInt8 := cs.flatMap String.utf8EncodeChar

/-- The bytes in which a text is kept. -/
def bytes (text : String) : List UInt8 := text.toByteArray.data.toList

theorem bytes_eq_encode (text : String) : bytes text = encode text.toList := by
  rw [bytes, ← String.utf8Encode_toList, List.utf8Encode]
  simp [encode]

@[simp]
theorem encode_nil : encode [] = [] := rfl

@[simp]
theorem encode_append (first second : List Char) :
    encode (first ++ second) = encode first ++ encode second :=
  List.flatMap_append

@[simp]
theorem length_encode (cs : List Char) : (encode cs).length = byteLength cs := by
  induction cs with
  | nil => rfl
  | cons c cs ih =>
      rw [encode, List.flatMap_cons, List.length_append, String.length_utf8EncodeChar, byteLength,
        ← ih]
      rfl

theorem length_bytes (text : String) : (bytes text).length = byteLength text.toList := by
  rw [bytes_eq_encode, length_encode]

/-- The bytes of a span, those that the list has. -/
def bytesIn (source : List UInt8) (span : Span) : List UInt8 :=
  (source.take span.stop).drop span.start

theorem length_bytesIn {source : List UInt8} {span : Span} (hfits : span.FitsIn source.length) :
    (bytesIn source span).length = span.length := by
  rw [bytesIn, List.length_drop, List.length_take, Nat.min_eq_left hfits.2, Span.length]

theorem bytesIn_eq_nil {source : List UInt8} {span : Span} (hempty : span.isEmpty = true) :
    bytesIn source span = [] := by
  rw [Span.isEmpty, decide_eq_true_eq] at hempty
  rw [bytesIn, List.drop_eq_nil_iff, List.length_take]
  omega

theorem bytesIn_encode (before middle after : List Char) :
    bytesIn (encode (before ++ (middle ++ after)))
      ⟨byteLength before, byteLength before + byteLength middle⟩ = encode middle := by
  have htake : (encode (before ++ (middle ++ after))).take (byteLength before + byteLength middle) =
      encode before ++ encode middle := by
    rw [← List.append_assoc, encode_append, ← byteLength_append, ← length_encode, List.take_left,
      encode_append]
  rw [bytesIn, htake, ← length_encode, List.drop_left]

/-- A span cuts out characters when it runs forward between two boundaries. -/
theorem isSome_slice?_iff :
    (slice? cs ⟨start, stop⟩).isSome ↔ start ≤ stop ∧ IsBoundary cs start ∧ IsBoundary cs stop := by
  constructor
  · intro hsome
    rw [slice?] at hsome
    split at hsome
    next => simp at hsome
    next hle =>
      cases hcut : cut? start cs with
      | none => simp [hcut] at hsome
      | some parts =>
          obtain ⟨before, rest⟩ := parts
          obtain ⟨rfl, rfl⟩ := cut?_eq_some hcut
          rw [hcut, Option.isSome_map, ← IsBoundary, isBoundary_iff] at hsome
          obtain ⟨middle, after, rfl, hlength⟩ := hsome
          refine ⟨Nat.le_of_not_lt hle, isBoundary_iff.mpr ⟨before, middle ++ after, rfl, rfl⟩,
            isBoundary_iff.mpr ⟨before ++ middle, after, by simp, ?_⟩⟩
          rw [byteLength_append, hlength]
          exact Nat.add_sub_cancel' (Nat.le_of_not_lt hle)
  · rintro ⟨hle, hstart, hstop⟩
    obtain ⟨before, middle, after, rfl, rfl, rfl⟩ := exists_parts hstart hstop hle
    simp [slice?, cut?_byteLength_append, Nat.not_lt.mpr hle]

end Text

/-! ## Gaps -/

namespace Span

/-- An offset of one of the bytes of a span. -/
def covers (span : Span) (offset : Nat) : Bool :=
  decide (span.start ≤ offset) && decide (offset < span.stop)

/-- A span in the other direction. -/
def reversed (span : Span) : Span := ⟨span.stop, span.start⟩

/-- The offsets of the bytes of a span. -/
def offsets (span : Span) : List Nat := List.range' span.start span.length

variable {span : Span} {offset : Nat}

theorem covers_iff : span.covers offset = true ↔ span.start ≤ offset ∧ offset < span.stop := by
  simp [covers]

theorem mem_offsets_iff : offset ∈ span.offsets ↔ span.covers offset = true := by
  rw [offsets, List.mem_range'_1, covers_iff, length]
  omega

theorem offsets_append {start middle stop : Nat} (hfirst : start ≤ middle) (hlast : middle ≤ stop) :
    offsets ⟨start, middle⟩ ++ offsets ⟨middle, stop⟩ = offsets ⟨start, stop⟩ := by
  have hmiddle : middle = start + (middle - start) := by omega
  have hlength : stop - start = (middle - start) + (stop - middle) := by omega
  simp only [offsets, length]
  rw [hlength, ← List.range'_append_1, ← hmiddle]

theorem covers_reversed (hforward : span.start ≤ span.stop) :
    span.reversed.covers offset = false := by
  rw [← Bool.not_eq_true, covers_iff, reversed]
  intro hcovers
  exact absurd (Nat.lt_of_le_of_lt hcovers.1 hcovers.2) (Nat.not_lt.mpr hforward)

/-- A step leads over the bytes between its ends, forward or back. -/
theorem covers_step (span : Span) (offset : Nat) :
    (if span.covers offset then 1 else 0) + (if offset < span.start then 1 else 0) =
      (if offset < span.stop then 1 else 0) + if span.reversed.covers offset then 1 else 0 := by
  simp only [covers_iff, reversed]
  split_ifs <;> omega

end Span

namespace Fix

open Text

variable {source : List Char} {edits : List Edit} {size cursor : Nat}

/-- The gaps that edits leave in a text of `size` bytes from a cursor on. -/
def gaps (size cursor : Nat) : List Edit → List Span
  | [] => [⟨cursor, size⟩]
  | edit :: edits => ⟨cursor, edit.span.start⟩ :: gaps size edit.span.stop edits

/-- The bytes of the gaps, with each replacement between two of them. -/
def editedBytes (source : List UInt8) (cursor : Nat) : List Edit → List UInt8
  | [] => bytesIn source ⟨cursor, source.length⟩
  | edit :: edits =>
      bytesIn source ⟨cursor, edit.span.start⟩ ++ bytes edit.replacement ++
        editedBytes source edit.span.stop edits

/-! ### Edits in order -/

theorem InOrder.fitsIn_gaps (horder : InOrder size edits)
    (hahead : ∀ edit ∈ edits, cursor ≤ edit.span.start) (hcursor : cursor ≤ size) :
    ∀ gap ∈ gaps size cursor edits, gap.FitsIn size := by
  induction edits generalizing cursor with
  | nil => simpa [gaps, Span.FitsIn] using hcursor
  | cons edit edits ih =>
      have hfits := horder.fitsIn edit (by simp)
      rw [gaps, List.forall_mem_cons]
      constructor
      · exact ⟨hahead edit (by simp), Nat.le_trans hfits.1 hfits.2⟩
      · exact ih horder.tail (fun other hother => horder.stop_le_start hother) hfits.2

/-- The gaps of edits in order hold the bytes outside all spans, each once and in the
order of the text. -/
theorem InOrder.offsets_gaps (horder : InOrder size edits)
    (hahead : ∀ edit ∈ edits, cursor ≤ edit.span.start) (hcursor : cursor ≤ size) :
    (gaps size cursor edits).flatMap Span.offsets =
      (Span.offsets ⟨cursor, size⟩).filter fun offset =>
        edits.all fun edit => !edit.span.covers offset := by
  induction edits generalizing cursor with
  | nil => simp [gaps]
  | cons edit edits ih =>
      have hstart := hahead edit (by simp)
      obtain ⟨hforward, hstop⟩ := horder.fitsIn edit (by simp)
      have hlater : ∀ other ∈ edits, edit.span.stop ≤ other.span.start := fun other hother =>
        horder.stop_le_start hother
      -- before the first edit everything is kept, inside it nothing
      have hbefore : ∀ offset ∈ Span.offsets ⟨cursor, edit.span.start⟩,
          ((edit :: edits).all fun edit => !edit.span.covers offset) = true := by
        simp only [Span.mem_offsets_iff, Span.covers_iff, List.all_eq_true, Bool.not_eq_true',
          ← Bool.not_eq_true, List.forall_mem_cons]
        intro offset hoffset
        refine ⟨by omega, fun other hother => ?_⟩
        have := hlater other hother
        omega
      have hinside : ∀ offset ∈ edit.span.offsets,
          ¬ ((edit :: edits).all fun edit => !edit.span.covers offset) = true := by
        intro offset hoffset
        simp [Span.mem_offsets_iff.mp hoffset]
      have hbehind : ∀ offset ∈ Span.offsets ⟨edit.span.stop, size⟩,
          ((edit :: edits).all fun edit => !edit.span.covers offset) =
            edits.all fun edit => !edit.span.covers offset := by
        intro offset hoffset
        have hle : edit.span.stop ≤ offset :=
          (Span.covers_iff.mp (Span.mem_offsets_iff.mp hoffset)).1
        have hcovers : edit.span.covers offset = false := by
          rw [← Bool.not_eq_true, Span.covers_iff]
          omega
        simp [hcovers]
      rw [gaps, List.flatMap_cons, ih horder.tail hlater hstop,
        ← Span.offsets_append hstart (Nat.le_trans hforward hstop),
        ← Span.offsets_append hforward hstop, List.filter_append, List.filter_append,
        List.filter_eq_self.mpr hbefore, List.filter_eq_nil_iff.mpr hinside,
        List.filter_congr hbehind, List.nil_append]

/-! ### Any edits -/

/-- How often the gaps pass over a byte. -/
def passes (size cursor : Nat) (edits : List Edit) (offset : Nat) : Nat :=
  (gaps size cursor edits).countP (·.covers offset)

/-- How many edits cover a byte. -/
def covering (edits : List Edit) (offset : Nat) : Nat :=
  edits.countP (·.span.covers offset)

/-- How often a byte is stepped back over, in a gap or in an edit that runs backward. -/
def stepsBack (size cursor : Nat) (edits : List Edit) (offset : Nat) : Nat :=
  (gaps size cursor edits).countP (·.reversed.covers offset) +
    edits.countP (·.span.reversed.covers offset)

/-- From the cursor to the end of the text every byte behind the cursor is passed once more
than it is stepped back over. -/
theorem passes_add_covering {offset : Nat} (hoffset : offset < size) :
    passes size cursor edits offset + covering edits offset + (if offset < cursor then 1 else 0) =
      1 + stepsBack size cursor edits offset := by
  induction edits generalizing cursor with
  | nil =>
      have hstep := Span.covers_step ⟨cursor, size⟩ offset
      rw [if_pos hoffset] at hstep
      simpa [passes, covering, stepsBack, gaps, List.countP_cons] using hstep
  | cons edit edits ih =>
      have hrest := @ih edit.span.stop
      have hgap := Span.covers_step ⟨cursor, edit.span.start⟩ offset
      have hedit := Span.covers_step edit.span offset
      simp only [passes, covering, stepsBack, gaps, List.countP_cons] at hrest hgap ⊢
      omega

theorem passes_le_one_iff {offset : Nat} (hoffset : offset < size) :
    passes size 0 edits offset ≤ 1 ↔ stepsBack size 0 edits offset ≤ covering edits offset := by
  have hcount := @passes_add_covering edits size 0 offset hoffset
  rw [if_neg (Nat.not_lt_zero _)] at hcount
  omega

/-- A byte that no edit covers is passed. -/
theorem one_le_passes {offset : Nat} (hoffset : offset < size)
    (houtside : ∀ edit ∈ edits, edit.span.covers offset = false) :
    1 ≤ passes size 0 edits offset := by
  have hcount := @passes_add_covering edits size 0 offset hoffset
  have hcovering : covering edits offset = 0 := by
    rw [covering, List.countP_eq_zero]
    exact fun edit hedit => Bool.not_eq_true _ ▸ houtside edit hedit
  rw [if_neg (Nat.not_lt_zero _)] at hcount
  omega

theorem InOrder.stepsBack_eq_zero (horder : InOrder size edits)
    (hahead : ∀ edit ∈ edits, cursor ≤ edit.span.start) (hcursor : cursor ≤ size)
    (offset : Nat) : stepsBack size cursor edits offset = 0 := by
  rw [stepsBack, Nat.add_eq_zero_iff, List.countP_eq_zero, List.countP_eq_zero]
  constructor
  · intro gap hgap
    rw [Span.covers_reversed (horder.fitsIn_gaps hahead hcursor gap hgap).1]
    exact Bool.false_ne_true
  · intro edit hedit
    rw [Span.covers_reversed (horder.fitsIn edit hedit).1]
    exact Bool.false_ne_true

end Fix

end ReactiveLint
