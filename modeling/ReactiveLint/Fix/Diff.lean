import ReactiveLint.Text.Lines

/-!
# Differences between two texts

The lines of two texts are compared position by position, and everything from the
first difference on, with one line of context before it, makes one hunk.
-/

namespace ReactiveLint

inductive DiffLine
  | context (text : String)
  | removed (text : String)
  | added (text : String)
deriving DecidableEq, Repr

def DiffLine.display : DiffLine → String
  | context text => " " ++ text
  | removed text => "-" ++ text
  | added text => "+" ++ text

/-- The lines of a hunk from its first difference on. -/
def diffLines : List String → List String → List DiffLine
  | [], [] => []
  | old :: olds, [] => .removed old :: diffLines olds []
  | [], new :: news => .added new :: diffLines [] news
  | old :: olds, new :: news =>
      if old = new then .context old :: diffLines olds news
      else .removed old :: .added new :: diffLines olds news

/-- The lines from the first difference on, behind a common part of `index` lines, the
last of which is the context; with them, the number from one of the line that they
start at. -/
def differenceFrom? (index : Nat) (context : Option String) :
    List String → List String → Option (Nat × List DiffLine)
  | [], [] => none
  | old :: olds, new :: news =>
      if old = new then differenceFrom? (index + 1) (some old) olds news
      else
        some (index + 1,
          (context.toList.map .context) ++ diffLines (old :: olds) (new :: news))
  | olds, news =>
      some (index + 1, (context.toList.map .context) ++ diffLines olds news)

/-- A hunk with the line that its head names as its start and the two counts of lines
that stand there. -/
structure Hunk where
  start : Nat
  oldCount : Nat
  newCount : Nat
  lines : List DiffLine
deriving DecidableEq, Repr

/-- The hunk between two lists of lines; its head counts all lines of both. -/
def hunk? (olds news : List String) : Option Hunk :=
  (differenceFrom? 0 none olds news).map fun (start, lines) =>
    ⟨start, olds.length, news.length, lines⟩

def Hunk.head (hunk : Hunk) : String :=
  s!"@@ -{hunk.start},{hunk.oldCount} +{hunk.start},{hunk.newCount} @@"

def Hunk.display (hunk : Hunk) : String :=
  String.join ((hunk.head :: hunk.lines.map DiffLine.display).map (· ++ "\n"))

/-- The difference of two texts of a file: a header, and a hunk unless the texts have
the same lines. -/
def unifiedDiff (file before after : String) : String :=
  let header := s!"--- a/{file}\n+++ b/{file}\n"
  match hunk? (Text.listing before) (Text.listing after) with
  | none => header
  | some hunk => header ++ hunk.display

end ReactiveLint
