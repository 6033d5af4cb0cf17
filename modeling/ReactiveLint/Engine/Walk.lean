import ReactiveLint.Syntax.Query

/-!
# Walking a tree

Every node is entered before its children and left after them.  `Tree.walk` keeps
the events to come on a stack; `Tree.traversal` is the recursive reading.
-/

namespace ReactiveLint

inductive Phase
  | enter
  | exit
deriving DecidableEq, Repr, Inhabited

structure Event where
  node : NodeId
  phase : Phase
deriving DecidableEq, Repr, Inhabited

namespace Tree

/-- What is put on the stack when an event has happened. -/
def opened (tree : Tree) (event : Event) : List Event :=
  match event.phase with
  | .enter => (tree.children event.node).map (⟨·, .enter⟩) ++ [⟨event.node, .exit⟩]
  | .exit => []

/-- The events of a stack, its top first. -/
def unwind (tree : Tree) : Nat → List Event → List Event
  | 0, _ => []
  | _ + 1, [] => []
  | fuel + 1, event :: stack => event :: tree.unwind fuel (tree.opened event ++ stack)

/-- The walk from the root.  There are two events for every node. -/
def walk (tree : Tree) : List Event := tree.unwind (2 * tree.size) [⟨tree.root, .enter⟩]

/-- The events of a node and all below it, down to a depth. -/
def eventsWithin (tree : Tree) : Nat → NodeId → List Event
  | 0, _ => []
  | depth + 1, id =>
      ⟨id, .enter⟩ :: (tree.children id).flatMap (tree.eventsWithin depth) ++ [⟨id, .exit⟩]

/-- The recursive walk.  A tree is at most as deep as it has nodes. -/
def traversal (tree : Tree) : List Event := tree.eventsWithin tree.size tree.root

end Tree

end ReactiveLint
