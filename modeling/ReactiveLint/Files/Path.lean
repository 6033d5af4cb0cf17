/-!
# Paths

A path is the text it was written as; what it names is decided by its parts.
Repeated separators and dots inside a path do not count, and of two paths with
the same parts either names the same file.
-/

namespace ReactiveLint

/-- The parts of a path, in the order in which paths are compared. -/
inductive PathPart
  | root
  | here
  | up
  | name (text : String)
deriving DecidableEq, Repr

namespace PathPart

def rank : PathPart → Nat
  | root => 0
  | here => 1
  | up => 2
  | name _ => 3

def before (left right : PathPart) : Bool :=
  match left, right with
  | name left, name right => decide (left < right)
  | left, right => decide (left.rank < right.rank)

end PathPart

namespace Path

/-- The pieces of a path between separators. -/
def pieces : List Char → List (List Char)
  | [] => [[]]
  | c :: cs =>
      if c = '/' then [] :: pieces cs
      else
        match pieces cs with
        | piece :: rest => (c :: piece) :: rest
        | [] => [[c]]

def partOf? (first : Bool) (piece : List Char) : Option PathPart :=
  match piece with
  | [] => none
  | ['.'] => if first then some .here else none
  | ['.', '.'] => some .up
  | piece => some (.name (String.ofList piece))

/-- The parts of a path.  A dot counts only at the very start. -/
def parts (path : String) : List PathPart :=
  match path.toList with
  | [] => []
  | '/' :: cs => .root :: (pieces cs).filterMap (partOf? false)
  | cs =>
      match pieces cs with
      | first :: rest => (partOf? true first).toList ++ rest.filterMap (partOf? false)
      | [] => []

def isAbsolute (path : String) : Bool := path.toList.head? == some '/'

/-- Comparison part by part; a path comes before the paths below it. -/
def beforeParts : List PathPart → List PathPart → Bool
  | [], [] => false
  | [], _ :: _ => true
  | _ :: _, [] => false
  | left :: lefts, right :: rights =>
      if left = right then beforeParts lefts rights else left.before right

def before (left right : String) : Bool := beforeParts (parts left) (parts right)

def same (left right : String) : Bool := parts left == parts right

/-- The path of the directory that holds a file, as it was written. -/
def parent? (path : String) : Option String :=
  match (parts path).getLast? with
  | none => none
  | some .root => none
  | some _ =>
      let trimmed := path.toList.reverse.dropWhile (· == '/')
      let rest := (trimmed.dropWhile (· != '/')).dropWhile (· == '/')
      if rest.isEmpty && isAbsolute path then some "/" else some (String.ofList rest.reverse)

/-- A path relative to a directory; an absolute path stands alone. -/
def join (directory path : String) : String :=
  if isAbsolute path || directory.isEmpty then path
  else if directory.toList.getLast? = some '/' then directory ++ path
  else directory ++ "/" ++ path

/-- The last part of a path when it is a name. -/
def fileName? (path : String) : Option String :=
  match (parts path).getLast? with
  | some (.name text) => some text
  | _ => none

/-- What follows the last dot of the file name; a dot that opens the name does
not count. -/
def extension? (path : String) : Option String := do
  let name ← fileName? path
  let reversed := name.toList.reverse
  let extension := reversed.takeWhile (· != '.')
  let rest := (reversed.dropWhile (· != '.')).drop 1
  if rest.isEmpty then none else some (String.ofList extension.reverse)

end Path

end ReactiveLint
