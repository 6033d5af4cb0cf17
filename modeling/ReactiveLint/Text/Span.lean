/-!
# Byte spans

A span is a half-open range of byte offsets into the UTF-8 form of a source
text.  Nothing forces `start ≤ stop`: a span read from outside is checked where
it enters a tree or a fix, and until then a reversed span counts as empty.
-/

namespace ReactiveLint

structure Span where
  start : Nat
  stop : Nat
deriving DecidableEq, Repr, Inhabited

namespace Span

/-- The span of no bytes at an offset, where an insertion happens. -/
def point (offset : Nat) : Span := ⟨offset, offset⟩

def length (span : Span) : Nat := span.stop - span.start

def isEmpty (span : Span) : Bool := decide (span.stop ≤ span.start)

/-- Containment is inclusive on both sides, so a span contains itself and both
of its end points. -/
def contains (outer inner : Span) : Bool :=
  decide (outer.start ≤ inner.start) && decide (inner.stop ≤ outer.stop)

/-- A span that lies in forward order inside a text of `size` bytes. -/
def FitsIn (span : Span) (size : Nat) : Prop :=
  span.start ≤ span.stop ∧ span.stop ≤ size

instance (span : Span) (size : Nat) : Decidable (span.FitsIn size) :=
  inferInstanceAs (Decidable (_ ∧ _))

@[simp]
theorem length_point (offset : Nat) : (point offset).length = 0 :=
  Nat.sub_self offset

@[simp]
theorem isEmpty_point (offset : Nat) : (point offset).isEmpty = true := by
  simp [point, isEmpty]

theorem contains_self (span : Span) : span.contains span = true := by
  simp [contains]

theorem isEmpty_iff_length_eq_zero (span : Span) :
    span.isEmpty = true ↔ span.length = 0 := by
  simp [isEmpty, length, Nat.sub_eq_zero_iff_le]

end Span

end ReactiveLint
