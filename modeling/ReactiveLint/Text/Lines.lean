import ReactiveLint.Text.Bytes

/-!
# Lines and columns

Lines end at a line feed and are numbered from one; columns count characters,
also from one.  `position` reads a byte offset as a line and a column, `offset?`
goes back, and `lineText?` is a line without its terminator.
-/

namespace ReactiveLint.Text

structure Position where
  line : Nat
  column : Nat
deriving DecidableEq, Repr, Inhabited

namespace Position

/-- Where a text starts. -/
def first : Position := ⟨1, 1⟩

/-- The position after a character: a line feed opens the next line. -/
def next (position : Position) (c : Char) : Position :=
  if c = '\n' then ⟨position.line + 1, 1⟩ else ⟨position.line, position.column + 1⟩

end Position

/-- The position reached by passing every character that starts before the
offset. -/
def positionFrom (position : Position) : List Char → Nat → Position
  | [], _ => position
  | c :: cs, offset =>
      if offset = 0 then position
      else positionFrom (position.next c) cs (offset - c.utf8Size)

/-- The line and column of a byte offset; offsets past the end clamp to it. -/
def position (source : String) (offset : Nat) : Position :=
  positionFrom .first source.toList offset

/-- The lines of a text without their line feeds.  There is always at least
one, and a text that ends with a line feed has an empty last line. -/
def lines : List Char → List (List Char)
  | [] => [[]]
  | c :: cs =>
      if c = '\n' then [] :: lines cs
      else
        match lines cs with
        | line :: rest => (c :: line) :: rest
        | [] => [[c]]

def lineCount (source : String) : Nat := (lines source.toList).length

/-- The byte offset where a line starts: all earlier lines and their line
feeds come before it. -/
def lineStart : List (List Char) → Nat → Nat
  | line :: rest, index + 1 => byteLength line + 1 + lineStart rest index
  | _, _ => 0

/-- The byte offset of a line and column.  The column after the last character
is the end of the line, and no column lies beyond it. -/
def offset? (source : String) (position : Position) : Option Nat :=
  match position.line, position.column with
  | line + 1, column + 1 =>
      let allLines := lines source.toList
      match allLines[line]? with
      | some text =>
          if column ≤ text.length then
            some (lineStart allLines line + byteLength (text.take column))
          else
            none
      | none => none
  | _, _ => none

/-- A carriage return before the line feed belongs to the terminator. -/
def dropCarriageReturn (line : List Char) : List Char :=
  if line.getLast? = some '\r' then line.dropLast else line

def lineText? (source : String) (line : Nat) : Option String :=
  match line with
  | 0 => none
  | index + 1 => (lines source.toList)[index]?.map (String.ofList ∘ dropCarriageReturn)

/-- Lines as a listing of the text shows them: without their terminators.  What
follows the last line feed is a line only when there is something. -/
def listed : List (List Char) → List (List Char)
  | [] => []
  | [[]] => []
  | [last] => [last]
  | line :: rest => dropCarriageReturn line :: listed rest

def listing (source : String) : List String := (listed (lines source.toList)).map String.ofList

@[simp]
theorem lines_ne_nil (cs : List Char) : lines cs ≠ [] := by
  cases cs with
  | nil => simp [lines]
  | cons c cs =>
      simp only [lines]
      split
      · simp
      · split <;> simp

theorem positionFrom_zero (position : Position) (cs : List Char) :
    positionFrom position cs 0 = position := by
  cases cs <;> simp [positionFrom]

end ReactiveLint.Text
