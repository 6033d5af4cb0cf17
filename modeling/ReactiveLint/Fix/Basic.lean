import ReactiveLint.Order.StableSort
import ReactiveLint.Text.Bytes

/-!
# Fixes

A fix is a list of edits to one source text.  `Fix.ofEdits?` accepts edits that
lie in the source and do not overlap, in any order, and puts them in order.
`Fix.apply` keeps the text between the edits and puts each replacement in the
place of its span.
-/

namespace ReactiveLint

structure Edit where
  span : Span
  replacement : String
deriving DecidableEq, Repr, Inhabited

/-- The edits of a fix.  Those that `Fix.ofEdits?` accepts are in order and apart;
edits read from outside are taken as they are. -/
structure Fix where
  edits : List Edit
deriving DecidableEq, Repr, Inhabited

inductive FixError
  | empty
  | overlap (first second : Span)
  | outOfBounds (span : Span) (size : Nat)
deriving DecidableEq, Repr

/-- The form of a span in the texts of errors. -/
def Span.debugText (span : Span) : String :=
  s!"Span \x7b start: {span.start}, end: {span.stop} \x7d"

def FixError.message : FixError → String
  | empty => "Fix has no edits"
  | overlap first second => s!"Edits {first.debugText} and {second.debugText} overlap"
  | outOfBounds span size =>
      s!"Edit {span.debugText} is outside the source text ({size} bytes)"

/-- Spans are ordered by their start, then by their end. -/
def Span.before (left right : Span) : Bool :=
  decide (left.start < right.start) ||
    (left.start == right.start && decide (left.stop ≤ right.stop))

namespace Fix

/-- The first edit that is reversed or leaves the source. -/
def outOfBounds? (edits : List Edit) (size : Nat) : Option Span :=
  (edits.find? fun edit => !decide (edit.span.FitsIn size)).map (·.span)

/-- The first edit that starts before its predecessor ends, with that one. -/
def overlap? : List Edit → Option (Span × Span)
  | first :: second :: rest =>
      if second.span.start < first.span.stop then some (first.span, second.span)
      else overlap? (second :: rest)
  | _ => none

/-- Orders and checks edits to a source of `size` bytes. -/
def ofEdits? (edits : List Edit) (size : Nat) : Except FixError Fix :=
  if edits.isEmpty then .error .empty
  else
    let ordered := StableSort.sort (fun left right => left.span.before right.span) edits
    match outOfBounds? ordered size with
    | some span => .error (.outOfBounds span size)
    | none =>
        match overlap? ordered with
        | some (first, second) => .error (.overlap first second)
        | none => .ok ⟨ordered⟩

/-- The least span from the start of the first edit that covers every edit. -/
def range (fix : Fix) : Span :=
  match fix.edits with
  | [] => ⟨0, 0⟩
  | first :: rest =>
      ⟨first.span.start, rest.foldl (fun stop edit => max stop edit.span.stop) first.span.stop⟩

/-- The text between two offsets, nothing when they do not cut it cleanly. -/
def between (source : List Char) (start stop : Nat) : List Char :=
  (Text.slice? source ⟨start, stop⟩).getD []

/-- The text from an offset on. -/
def onward (source : List Char) (start : Nat) : List Char :=
  ((Text.cut? start source).map Prod.snd).getD []

/-- The text that edits put in the place of what lies between a cursor and the
end of the last of them. -/
def edited (source : List Char) (cursor : Nat) : List Edit → List Char
  | [] => []
  | edit :: edits =>
      between source cursor edit.span.start ++ edit.replacement.toList ++
        edited source edit.span.stop edits

/-- The offset behind the last edit. -/
def cursorAfter (cursor : Nat) (edits : List Edit) : Nat :=
  (edits.getLast?.map (·.span.stop)).getD cursor

/-- The source with every edit made. -/
def apply (fix : Fix) (source : String) : String :=
  let cs := source.toList
  String.ofList (edited cs 0 fix.edits ++ onward cs (cursorAfter 0 fix.edits))

end Fix

end ReactiveLint
