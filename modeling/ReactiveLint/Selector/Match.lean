import ReactiveLint.Selector.Basic

/-!
# Matching selectors

`Selector.holds` decides whether a node matches.  A scope, when there is one, is
the node a `:has` was asked from; upward steps never leave it.
-/

namespace ReactiveLint

/-- The order of two numbers, if they have one. -/
def Number.order? (left right : Number) : Option Ordering :=
  if left.lt right then some .lt
  else if right.lt left then some .gt
  else if left.eq right then some .eq
  else none

namespace Comparison

/-- Whether an order satisfies an ordered comparison. -/
def allows (comparison : Comparison) (order : Ordering) : Bool :=
  match comparison with
  | lt => order == .lt
  | le => order != .gt
  | gt => order == .gt
  | ge => order != .lt
  | eq => false
  | ne => false

end Comparison

namespace TestValue

/-- The text that equality compares with. -/
def text : TestValue → String
  | literal text => text
  | number value => value.literalText
  | pattern source _ => source

/-- How an attribute stands to a value.  A literal that spells a number compares
as that number, any other literal as text. -/
def order? (value : TestValue) (reached : Attribute) : Option Ordering :=
  match value with
  | number x => reached.number?.bind (·.order? x)
  | literal text =>
      match Number.ofText? text with
      | some x => reached.number?.bind (·.order? x)
      | none => reached.text?.map (compare · text)
  | pattern _ _ => none

end TestValue

namespace AttributeTest

/-- Equality with a pattern is asked of texts and kinds alone. -/
def likePattern (pattern : Pattern) : Option Attribute → Bool
  | some (.value (.text text)) => pattern.isMatch text
  | some (.kind kind) => pattern.isMatch kind.name
  | _ => false

def reachedText? (reached : Option Attribute) : Option String := reached.bind Attribute.text?

def holds (test : AttributeTest) (tree : Tree) (id : NodeId) : Bool :=
  let reached := tree.path? id test.path
  match test.test with
  | none => reached.any Attribute.isPresent
  | some (.eq, .pattern _ pattern) => likePattern pattern reached
  | some (.ne, .pattern _ pattern) =>
      match reachedText? reached with
      | some text => !pattern.isMatch text
      | none => true
  | some (.eq, value) => reachedText? reached == some value.text
  | some (.ne, value) => reachedText? reached != some value.text
  | some (comparison, value) => (reached.bind value.order?).any comparison.allows

end AttributeTest

namespace Tree

/-- The ancestors up to a scope, nearest first.  The scope itself has none. -/
def ancestorsInScope (tree : Tree) (scope : Option NodeId) (id : NodeId) : List NodeId :=
  if scope = some id then []
  else
    let chain := tree.ancestors id
    match scope with
    | none => chain
    | some scope => chain.takeWhile (· != scope) ++ (chain.filter (· == scope)).take 1

def parentInScope? (tree : Tree) (scope : Option NodeId) (id : NodeId) : Option NodeId :=
  if scope = some id then none else tree.parent? id

def descendantsWithin (tree : Tree) : Nat → NodeId → List NodeId
  | 0, _ => []
  | fuel + 1, id =>
      (tree.children id).flatMap fun child => child :: tree.descendantsWithin fuel child

/-- The nodes below a node, each before its own descendants. -/
def descendants (tree : Tree) (id : NodeId) : List NodeId :=
  tree.descendantsWithin tree.nodes.size id

/-- Whether a node sits in the last slot of a path, its parent in the one before,
and so on; the path is given in reverse. -/
def sitsIn (tree : Tree) : List String → Option NodeId → Bool
  | [], _ => true
  | _ :: _, none => false
  | segment :: path, some id =>
      tree.fieldName? id == some segment && tree.sitsIn path (tree.parent? id)

/-- Whether a node has a position counted from the end of its list slot. -/
def isNthLast (tree : Tree) (id : NodeId) (position : Nat) : Bool :=
  match tree.listIndex? id, tree.fieldName? id, tree.parent? id with
  | some index, some field, some parent => (tree.list parent field).length == index + position
  | _, _, _ => false

end Tree

namespace Selector

mutual

def holds (tree : Tree) (scope : Option NodeId) (id : NodeId) : Selector → Bool
  | wildcard => true
  | .scope => scope == some id
  | .kind wanted => tree.kind id == wanted
  | field path => tree.sitsIn path.reverse (some id)
  | attr test => test.holds tree id
  | compound parts => allHold tree scope id parts
  | not options => !someHolds tree scope id options
  | any options => someHolds tree scope id options
  | has options => (tree.descendants id).any fun below => someHolds tree (some id) below options
  | nthChild position => (tree.listIndex? id).any (· + 1 == position)
  | nthLastChild position => tree.isNthLast id position
  | combine combinator left right =>
      holds tree scope id right &&
        match combinator with
        | .child => (tree.parentInScope? scope id).any fun parent => holds tree scope parent left
        | .descendant =>
            (tree.ancestorsInScope scope id).any fun above => holds tree scope above left
        | .sibling =>
            (tree.precedingSiblings id).ids.any fun before => holds tree scope before left
        | .adjacent =>
            ((tree.precedingSiblings id).last?).any fun before => holds tree scope before left

def allHold (tree : Tree) (scope : Option NodeId) (id : NodeId) : List Selector → Bool
  | [] => true
  | part :: parts => holds tree scope id part && allHold tree scope id parts

def someHolds (tree : Tree) (scope : Option NodeId) (id : NodeId) : List Selector → Bool
  | [] => false
  | option :: options => holds tree scope id option || someHolds tree scope id options

end

/-- Whether a node matches a selector. -/
def isMatch (selector : Selector) (tree : Tree) (id : NodeId) : Bool :=
  selector.holds tree none id

end Selector

end ReactiveLint
