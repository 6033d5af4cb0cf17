import ReactiveLint.Text.Bytes

/-!
# Offsets in UTF-16 units

Syntax trees from outside count positions in UTF-16 code units.  `byteOffset?`
turns such an index into a byte offset.  An index inside a surrogate pair is
the start of its character; an index past the end stays past the end, so that
the span it belongs to is refused later with its own numbers.
-/

namespace ReactiveLint.Text.Utf16

/-- Characters outside the basic plane take a surrogate pair. -/
def width (c : Char) : Nat := if c.val ≤ 0xFFFF then 1 else 2

def length : List Char → Nat
  | [] => 0
  | c :: cs => width c + length cs

/-- The byte offset of the character that holds a unit, if there is one; the
index just past the last unit is the end of the text. -/
def locate? : List Char → Nat → Option Nat
  | [], index => if index = 0 then some 0 else none
  | c :: cs, index =>
      if index < width c then some 0
      else (locate? cs (index - width c)).map (c.utf8Size + ·)

/-- Offsets are 64-bit words. -/
def offsetLimit : Nat := Nat.pow 2 64

/-- Byte offset of an index, or nothing when the answer is no 64-bit word.
Past the end of an ASCII text the index itself answers; past the end of any
other text the index is added to the text's length. -/
def byteOffset? (source : String) (index : Nat) : Option Nat :=
  let cs := source.toList
  match locate? cs index with
  | some offset => some offset
  | none =>
      let offset := if cs.all (·.val < 128) then index else byteLength cs + index
      if offset < offsetLimit then some offset else none

end ReactiveLint.Text.Utf16
