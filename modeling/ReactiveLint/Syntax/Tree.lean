import ReactiveLint.Order.StableSort
import ReactiveLint.Text.Lines
import ReactiveLint.Syntax.Kind
import ReactiveLint.Syntax.Scalar

/-!
# Syntax trees

A tree is an arena of nodes over one source text.  A node has a kind, a span and
named slots, which hold a child, a list of children or a scalar.  `Tree.build?`
takes a list of nodes without parents and accepts it exactly when the slots form
one tree under the root and all spans lie in the source; it then records for
every node its place in its parent and its children in source order.
-/

namespace ReactiveLint

/-- The position of a node in its arena. -/
abbrev NodeId := Nat

inductive Slot
  | node (id : NodeId)
  /-- `none` is a hole, such as the first element of `[, a]`. -/
  | list (items : List (Option NodeId))
  | value (scalar : Scalar)
deriving DecidableEq, Repr, Inhabited

/-- The slot of a parent that holds a node: the number of the field, and the
index when the field is a list. -/
structure Place where
  parent : NodeId
  field : Nat
  index : Option Nat
deriving DecidableEq, Repr, Inhabited

/-- A node before it is linked. -/
structure NodeDraft where
  kind : Kind
  span : Span
  fields : List (String × Slot)
deriving DecidableEq, Repr, Inhabited

structure Node extends NodeDraft where
  place : Option Place
  children : List NodeId
deriving DecidableEq, Repr, Inhabited

structure Tree where
  nodes : Array Node
  root : NodeId
  source : String
deriving Inhabited

inductive TreeError
  | unreadable
  | rootNotObject
  | rootWithoutType
  | unknownKind (name : String)
  | missingRange (typeName : String)
  /-- The addition for an index behind the text leaves the 64-bit words.  It is no answer of
  the loader: the program stops here. -/
  | offsetOverflow (index : Nat)
  | missingRoot (root : NodeId)
  | spanOutOfBounds (span : Span) (size : Nat)
  | missingNode (parent child : NodeId)
  | sharedNode (id : NodeId)
  | detached (id : NodeId)
deriving DecidableEq, Repr

namespace TreeError

def message : TreeError → String
  | unreadable => "Invalid tree: not JSON"
  | rootNotObject => "Invalid tree: root is not an object"
  | rootWithoutType => "Invalid tree: root has no 'type'"
  | unknownKind name => s!"Unknown node kind '{name}'"
  | missingRange typeName => s!"Node is missing its source range: {typeName}"
  | offsetOverflow _ => "attempt to add with overflow"
  | missingRoot root => s!"Invalid tree: root #{root} does not exist"
  | spanOutOfBounds span size =>
      s!"Span {span.start}..{span.stop} is outside the source text ({size} bytes)"
  | missingNode parent child =>
      s!"Invalid tree: #{parent} references missing node #{child}"
  | sharedNode id => s!"Node {id} is referenced from more than one parent"
  | detached id => s!"Node {id} is not reachable from the root"

end TreeError

/-- A slot position of a parent together with the node it holds. -/
structure Link where
  place : Place
  child : NodeId
deriving DecidableEq, Repr

namespace NodeDraft

/-- The links of one slot, in order. -/
def slotLinks (parent field : Nat) : Slot → List Link
  | .node child => [⟨⟨parent, field, none⟩, child⟩]
  | .list items =>
      items.zipIdx.filterMap fun (item, index) =>
        item.map fun child => ⟨⟨parent, field, some index⟩, child⟩
  | .value _ => []

/-- The links of all slots of a node, in field order. -/
def links (draft : NodeDraft) (id : NodeId) : List Link :=
  draft.fields.zipIdx.flatMap fun ((_, slot), field) => slotLinks id field slot

end NodeDraft

namespace Tree

/-- The first span that is reversed or leaves the source. -/
def checkSpans (drafts : List NodeDraft) (size : Nat) : Except TreeError Unit :=
  match drafts.find? fun draft => !decide (draft.span.FitsIn size) with
  | some draft => .error (.spanOutOfBounds draft.span size)
  | none => .ok ()

def allLinks (drafts : List NodeDraft) : List Link :=
  drafts.zipIdx.flatMap fun (draft, id) => draft.links id

/-- Gives every linked node its place.  A link to a missing node, to the root or
to a node that has a place already is refused. -/
def assignPlaces (root : NodeId) :
    List Link → Array (Option Place) → Except TreeError (Array (Option Place))
  | [], places => .ok places
  | link :: links, places =>
      match places[link.child]? with
      | none => .error (.missingNode link.place.parent link.child)
      | some taken =>
          if link.child = root ∨ taken.isSome then .error (.sharedNode link.child)
          else assignPlaces root links (places.setIfInBounds link.child (some link.place))

/-- The chain of parents of a node, nearest first.  Each step spends one unit of
fuel, and a chain without repetition has fewer steps than there are nodes. -/
def parentChain (places : Array (Option Place)) : Nat → NodeId → List NodeId
  | 0, _ => []
  | fuel + 1, id =>
      match places[id]?.join with
      | some place => place.parent :: parentChain places fuel place.parent
      | none => []

/-- The first node whose chain of parents does not lead to the root. -/
def checkReachable (root : NodeId) (places : Array (Option Place)) : Except TreeError Unit :=
  let reaches := fun id => id == root || (parentChain places places.size id).contains root
  match (List.range places.size).find? fun id => !reaches id with
  | some id => .error (.detached id)
  | none => .ok ()

def startOf (drafts : Array NodeDraft) (id : NodeId) : Nat :=
  (drafts[id]?.map (·.span.start)).getD 0

/-- Children stand in source order; those that start together keep the order of
their slots. -/
def orderedChildren (drafts : Array NodeDraft) (draft : NodeDraft) (id : NodeId) :
    List NodeId :=
  StableSort.sort (fun left right => decide (startOf drafts left ≤ startOf drafts right))
    ((draft.links id).map (·.child))

/-- Links the drafts of an arena under a root. -/
def build? (drafts : List NodeDraft) (root : NodeId) (source : String) :
    Except TreeError Tree := do
  if drafts.length ≤ root then
    throw (.missingRoot root)
  checkSpans drafts (Text.byteLength source.toList)
  let places ← assignPlaces root (allLinks drafts) (Array.replicate drafts.length none)
  checkReachable root places
  let arena := drafts.toArray
  let nodes := drafts.zipIdx.map fun (draft, id) =>
    { draft with
      place := places[id]?.join
      children := orderedChildren arena draft id }
  return { nodes := nodes.toArray, root, source }

end Tree

end ReactiveLint
