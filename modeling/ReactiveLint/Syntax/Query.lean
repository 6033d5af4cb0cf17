import ReactiveLint.Syntax.Tree

/-!
# Looking around in a tree

Accessors by node id.  An id outside the arena has no slots, no place and no
children, so every accessor is total.
-/

namespace ReactiveLint

/-- A list slot; positions count holes. -/
abbrev NodeList := List (Option NodeId)

namespace NodeList

/-- The nodes of a list without its holes. -/
def ids (items : NodeList) : List NodeId := items.filterMap fun item => item

/-- The node at a position, absent past the end or at a hole. -/
def at? (items : NodeList) (index : Nat) : Option NodeId := items[index]?.join

def first? (items : NodeList) : Option NodeId := items.ids.head?

def last? (items : NodeList) : Option NodeId := items.ids.getLast?

end NodeList

namespace Tree

def size (tree : Tree) : Nat := tree.nodes.size

/-- All ids in arena order. -/
def ids (tree : Tree) : List NodeId := List.range tree.nodes.size

def node (tree : Tree) (id : NodeId) : Node := tree.nodes.getD id default

def contains (tree : Tree) (id : NodeId) : Bool := decide (id < tree.nodes.size)

def kind (tree : Tree) (id : NodeId) : Kind := (tree.node id).kind

def is (tree : Tree) (id : NodeId) (kind : Kind) : Bool := tree.kind id == kind

def isFunction (tree : Tree) (id : NodeId) : Bool := (tree.kind id).isFunction

def span (tree : Tree) (id : NodeId) : Span := (tree.node id).span

def start (tree : Tree) (id : NodeId) : Nat := (tree.span id).start

/-- The source text of a span, empty when the span does not cut it cleanly. -/
def slice (tree : Tree) (span : Span) : String := Text.slice tree.source span

def text (tree : Tree) (id : NodeId) : String := tree.slice (tree.span id)

def fields (tree : Tree) (id : NodeId) : List (String × Slot) := (tree.node id).fields

def place? (tree : Tree) (id : NodeId) : Option Place := (tree.node id).place

def parent? (tree : Tree) (id : NodeId) : Option NodeId := (tree.place? id).map (·.parent)

def children (tree : Tree) (id : NodeId) : List NodeId := (tree.node id).children

def ancestorsWithin (tree : Tree) : Nat → NodeId → List NodeId
  | 0, _ => []
  | fuel + 1, id =>
      match tree.parent? id with
      | some parent => parent :: tree.ancestorsWithin fuel parent
      | none => []

/-- The chain of parents, nearest first.  A chain in a tree has fewer nodes than
the tree. -/
def ancestors (tree : Tree) (id : NodeId) : List NodeId :=
  tree.ancestorsWithin tree.nodes.size id

/-- A slot by number. -/
def fieldAt? (tree : Tree) (id : NodeId) (field : Nat) : Option (String × Slot) :=
  (tree.fields id)[field]?

/-- The name of the parent's slot that holds a node. -/
def fieldName? (tree : Tree) (id : NodeId) : Option String := do
  let place ← tree.place? id
  let (name, _) ← tree.fieldAt? place.parent place.field
  return name

/-- The position of a node in its parent's list slot. -/
def listIndex? (tree : Tree) (id : NodeId) : Option Nat :=
  (tree.place? id).bind (·.index)

/-- The part of the parent's list slot before a node, holes included. -/
def precedingSiblings (tree : Tree) (id : NodeId) : NodeList :=
  match tree.place? id with
  | some ⟨parent, field, some index⟩ =>
      match tree.fieldAt? parent field with
      | some (_, .list items) => items.take index
      | _ => []
  | _ => []

/-- The first slot of a name. -/
def slot? (tree : Tree) (id : NodeId) (field : String) : Option Slot :=
  ((tree.fields id).find? (·.1 == field)).map (·.2)

def child? (tree : Tree) (id : NodeId) (field : String) : Option NodeId :=
  match tree.slot? id field with
  | some (.node child) => some child
  | _ => none

/-- A list slot, empty when absent. -/
def list (tree : Tree) (id : NodeId) (field : String) : NodeList :=
  match tree.slot? id field with
  | some (.list items) => items
  | _ => []

def value? (tree : Tree) (id : NodeId) (field : String) : Option Scalar :=
  match tree.slot? id field with
  | some (.value scalar) => some scalar
  | _ => none

def str? (tree : Tree) (id : NodeId) (field : String) : Option String :=
  (tree.value? id field).bind Scalar.asText?

/-- A Boolean attribute, false when absent. -/
def flag (tree : Tree) (id : NodeId) (field : String) : Bool :=
  tree.value? id field == some (.bool true)

/-- The name of an identifier. -/
def name? (tree : Tree) (id : NodeId) : Option String :=
  match tree.kind id with
  | .identifier | .privateIdentifier => tree.str? id "name"
  | _ => none

def isIdentifier (tree : Tree) (id : NodeId) (name : String) : Bool :=
  tree.is id .identifier && tree.name? id == some name

/-- How a node is shown: kind, id and span. -/
def describe (tree : Tree) (id : NodeId) : String :=
  let span := tree.span id
  s!"{(tree.kind id).name}#{id}@{span.start}..{span.stop}"

end Tree

end ReactiveLint
