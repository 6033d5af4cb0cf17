import ReactiveLint.Text.Span

/-!
# Byte offsets into a text

Texts are lists of characters and offsets count the bytes of their UTF-8 form.
An offset cuts a text only at a character boundary, so `cut?` and `slice?`
answer nothing for an offset inside a character or past the end.
-/

namespace ReactiveLint.Text

def byteLength : List Char → Nat
  | [] => 0
  | c :: cs => c.utf8Size + byteLength cs

/-- The characters before and after a byte offset. -/
def cut? : Nat → List Char → Option (List Char × List Char)
  | 0, cs => some ([], cs)
  | _ + 1, [] => none
  | offset + 1, c :: cs =>
      if c.utf8Size ≤ offset + 1 then
        match cut? (offset + 1 - c.utf8Size) cs with
        | some (before, after) => some (c :: before, after)
        | none => none
      else
        none

/-- An offset between two characters, or at an end of the text. -/
def IsBoundary (cs : List Char) (offset : Nat) : Prop :=
  (cut? offset cs).isSome

instance (cs : List Char) (offset : Nat) : Decidable (IsBoundary cs offset) :=
  inferInstanceAs (Decidable ((cut? offset cs).isSome = true))

/-- The characters of a span whose ends are boundaries in forward order. -/
def slice? (cs : List Char) (span : Span) : Option (List Char) :=
  if span.stop < span.start then
    none
  else
    match cut? span.start cs with
    | none => none
    | some (_, rest) => (cut? (span.stop - span.start) rest).map Prod.fst

/-- The text of a span, empty when the span does not cut the source cleanly. -/
def slice (source : String) (span : Span) : String :=
  String.ofList ((slice? source.toList span).getD [])

@[simp]
theorem byteLength_append (left right : List Char) :
    byteLength (left ++ right) = byteLength left + byteLength right := by
  induction left with
  | nil => simp [byteLength]
  | cons c cs ih => simp [byteLength, ih, Nat.add_assoc]

@[simp]
theorem cut?_zero (cs : List Char) : cut? 0 cs = some ([], cs) := by
  cases cs <;> rfl

theorem cut?_byteLength_append (left right : List Char) :
    cut? (byteLength left) (left ++ right) = some (left, right) := by
  induction left with
  | nil => simp [byteLength]
  | cons c cs ih =>
      have hpos : 0 < c.utf8Size := c.utf8Size_pos
      obtain ⟨size, hsize⟩ : ∃ size, byteLength (c :: cs) = size + 1 :=
        ⟨byteLength (c :: cs) - 1, by simp only [byteLength]; omega⟩
      rw [List.cons_append, hsize, cut?]
      have hle : c.utf8Size ≤ size + 1 := by
        rw [← hsize]; simp only [byteLength]; omega
      have hrest : size + 1 - c.utf8Size = byteLength cs := by
        rw [← hsize]; simp only [byteLength]; omega
      simp [hle, hrest, ih]

/-- A cut loses nothing, and the first part has as many bytes as asked. -/
theorem cut?_eq_some {offset : Nat} {cs before after : List Char}
    (hcut : cut? offset cs = some (before, after)) :
    cs = before ++ after ∧ byteLength before = offset := by
  induction cs generalizing offset before after with
  | nil =>
      cases offset with
      | zero => simp_all [cut?, byteLength]
      | succ offset => simp [cut?] at hcut
  | cons c cs ih =>
      cases offset with
      | zero => simp_all [byteLength]
      | succ offset =>
          rw [cut?] at hcut
          split at hcut
          next hle =>
            cases hrest : cut? (offset + 1 - c.utf8Size) cs with
            | none => simp [hrest] at hcut
            | some parts =>
                obtain ⟨first, last⟩ := parts
                simp only [hrest, Option.some.injEq, Prod.mk.injEq] at hcut
                obtain ⟨rfl, rfl⟩ := hcut
                obtain ⟨rfl, hlength⟩ := ih hrest
                refine ⟨rfl, ?_⟩
                simp only [byteLength]
                omega
          next => simp at hcut

theorem cut?_eq_some_iff {offset : Nat} {cs before after : List Char} :
    cut? offset cs = some (before, after) ↔
      cs = before ++ after ∧ byteLength before = offset := by
  refine ⟨cut?_eq_some, ?_⟩
  rintro ⟨rfl, rfl⟩
  exact cut?_byteLength_append before after

end ReactiveLint.Text
