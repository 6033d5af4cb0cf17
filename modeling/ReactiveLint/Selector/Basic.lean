import ReactiveLint.Pattern.Basic
import ReactiveLint.Syntax.Path

/-!
# Selectors

A selector describes nodes by their kind, their attributes, their slot, and the
nodes around them.  `subjectKinds?` bounds the kinds of the nodes that a selector
can match, which lets a listener be indexed by kind.
-/

namespace ReactiveLint

inductive Comparison
  | eq
  | ne
  | lt
  | le
  | gt
  | ge
deriving DecidableEq, Repr

/-- What an attribute is compared with. -/
inductive TestValue
  | literal (text : String)
  | number (value : Number)
  /-- A pattern with the text it was read from, flags included. -/
  | pattern (source : String) (pattern : Pattern)
deriving DecidableEq, Repr

/-- A condition on the attribute at a path: that it is present, or how it
compares with a value. -/
structure AttributeTest where
  path : List String
  test : Option (Comparison × TestValue)
deriving DecidableEq, Repr

/-- How the node of a selector stands to the node of the selector before it. -/
inductive Combinator
  | child
  | descendant
  | sibling
  | adjacent
deriving DecidableEq, Repr

inductive Selector
  | wildcard
  /-- The node from which a `:has` is asked. -/
  | scope
  | kind (wanted : Kind)
  /-- The node sits in the last slot of the path, its parent in the slot before
  that, and so on. -/
  | field (path : List String)
  | attr (test : AttributeTest)
  | compound (parts : List Selector)
  | not (options : List Selector)
  | any (options : List Selector)
  | has (options : List Selector)
  /-- Position in the list slot, from one. -/
  | nthChild (position : Nat)
  | nthLastChild (position : Nat)
  | combine (combinator : Combinator) (left right : Selector)
deriving Inhabited, Repr

namespace Selector

/-- The kinds of both lists, in the order of the first. -/
def commonKinds (left right : List Kind) : List Kind := left.filter right.contains

/-- The kinds of either list, each once. -/
def mergeKinds (left right : List Kind) : List Kind :=
  right.foldl (fun kinds kind => if kinds.contains kind then kinds else kinds ++ [kind]) left

mutual

/-- The kinds that a matching node can have, or nothing when all are possible. -/
def subjectKinds? : Selector → Option (List Kind)
  | .kind wanted => some [wanted]
  | compound parts => narrowestKinds? none parts
  | any options => unionKinds? [] options
  | combine _ _ right => right.subjectKinds?
  | _ => none

/-- The kinds that all bounded parts allow. -/
def narrowestKinds? (bound : Option (List Kind)) : List Selector → Option (List Kind)
  | [] => bound
  | part :: parts =>
      match part.subjectKinds?, bound with
      | none, bound => narrowestKinds? bound parts
      | some kinds, none => narrowestKinds? (some kinds) parts
      | some kinds, some bound => narrowestKinds? (some (commonKinds bound kinds)) parts

/-- The kinds that some option allows; an unbounded option unbounds them all. -/
def unionKinds? (found : List Kind) : List Selector → Option (List Kind)
  | [] => some found
  | option :: options =>
      match option.subjectKinds? with
      | some kinds => unionKinds? (mergeKinds found kinds) options
      | none => none

end

end Selector

end ReactiveLint
