import ReactiveLint.Types.Json

/-!
# Program sketches

A sketch is a node with the pieces that make up its source text.  `source` is
that text.  `build?` writes the text piece by piece and adds a node for what each part
of it was, with the types and tags that were put on the nodes.
-/

namespace ReactiveLint

mutual

inductive Sketch
  | node (kind : Kind) (pieces : List Piece) (attributes : List (String × Scalar))
      (type : Option Ty) (tag : Option String)

inductive Piece
  | text (text : String)
  | child (field : String) (child : Sketch)
  | list (field : String) (items : List Sketch) (separator : String)
  /-- A slot that holds null and takes no text. -/
  | absent (field : String)
  /-- An identifier in the place of the child before it, as both names of the
  specifier in `{ of }`. -/
  | twin (field : String) (name : String)

end

namespace Sketch

def kind : Sketch → Kind
  | node kind _ _ _ _ => kind

def empty (kind : Kind) : Sketch := node kind [] [] none none

def append (piece : Piece) : Sketch → Sketch
  | node kind pieces attributes type tag => node kind (pieces ++ [piece]) attributes type tag

def prepend (piece : Piece) : Sketch → Sketch
  | node kind pieces attributes type tag => node kind (piece :: pieces) attributes type tag

def text (sketch : Sketch) (text : String) : Sketch := sketch.append (.text text)

def child (sketch : Sketch) (field : String) (child : Sketch) : Sketch :=
  sketch.append (.child field child)

/-- A child, or a slot that holds null. -/
def childOr (sketch : Sketch) (field : String) : Option Sketch → Sketch
  | some child => sketch.append (.child field child)
  | none => sketch.append (.absent field)

def list (sketch : Sketch) (field : String) (items : List Sketch) (separator : String) :
    Sketch :=
  sketch.append (.list field items separator)

def twin (sketch : Sketch) (field name : String) : Sketch := sketch.append (.twin field name)

/-- Sets an attribute in its place, or puts a new one last. -/
def setAttribute (key : String) (value : Scalar) : List (String × Scalar) → List (String × Scalar)
  | [] => [(key, value)]
  | (other, old) :: rest =>
      if other = key then (key, value) :: rest
      else (other, old) :: setAttribute key value rest

def attr (sketch : Sketch) (key : String) (value : Scalar) : Sketch :=
  match sketch with
  | node kind pieces attributes type tag =>
      node kind pieces (setAttribute key value attributes) type tag

def flagged (sketch : Sketch) (key : String) (value : Bool) : Sketch :=
  sketch.attr key (.bool value)

def labelled (sketch : Sketch) (key value : String) : Sketch := sketch.attr key (.text value)

def typed (sketch : Sketch) (type : Ty) : Sketch :=
  match sketch with
  | node kind pieces attributes _ tag => node kind pieces attributes (some type) tag

def tagged (sketch : Sketch) (tag : String) : Sketch :=
  match sketch with
  | node kind pieces attributes type _ => node kind pieces attributes type (some tag)

mutual

/-- The source text of a sketch. -/
def source : Sketch → List Char
  | node _ pieces _ _ _ => sourceOfPieces pieces

def sourceOfPieces : List Piece → List Char
  | [] => []
  | piece :: pieces => sourceOfPiece piece ++ sourceOfPieces pieces

def sourceOfPiece : Piece → List Char
  | .text text => text.toList
  | .child _ child => child.source
  | .list _ items separator => sourceOfItems separator.toList items
  | .absent _ => []
  | .twin _ _ => []

def sourceOfItems (separator : List Char) : List Sketch → List Char
  | [] => []
  | [item] => item.source
  | item :: items => item.source ++ separator ++ sourceOfItems separator items

end

/-- What has been rendered: the text, the nodes, and their types and tags. -/
structure Rendering where
  text : List Char := []
  nodes : List NodeDraft := []
  types : TypeTable := {}
  tags : List (String × NodeId) := []

namespace Rendering

/-- Where the next piece begins. -/
def offset (rendering : Rendering) : Nat := Text.byteLength rendering.text

def write (rendering : Rendering) (text : String) : Rendering :=
  { rendering with text := rendering.text ++ text.toList }

def add (rendering : Rendering) (draft : NodeDraft) : Rendering :=
  { rendering with nodes := rendering.nodes ++ [draft] }

/-- Records the type and the tag of the node that was added last; of two nodes
with one tag the later one keeps it. -/
def mark (rendering : Rendering) (id : NodeId) (type : Option Ty) (tag : Option String) :
    Rendering :=
  let rendering := match type with
    | some type => { rendering with types := rendering.types.insert id type }
    | none => rendering
  match tag with
  | some tag =>
      { rendering with tags := (tag, id) :: rendering.tags.filter (·.1 != tag) }
  | none => rendering

end Rendering

/-- A rendered child: its id and its span. -/
structure Rendered where
  id : NodeId
  span : Span

/-- The slots rendered so far and the span of the child before. -/
structure Slots where
  fields : List (String × Slot) := []
  last : Span

mutual

def render (rendering : Rendering) : Sketch → Rendering × Rendered
  | node kind pieces attributes type tag =>
      let start := rendering.offset
      let (rendering, slots) := renderPieces rendering { last := .point start } pieces
      let fields := slots.fields ++ attributes.map fun (key, value) => (key, .value value)
      let id := rendering.nodes.length
      let span := ⟨start, rendering.offset⟩
      ((rendering.add ⟨kind, span, fields⟩).mark id type tag, ⟨id, span⟩)

def renderPieces (rendering : Rendering) (slots : Slots) : List Piece → Rendering × Slots
  | [] => (rendering, slots)
  | piece :: pieces =>
      let (rendering, slots) := renderPiece rendering slots piece
      renderPieces rendering slots pieces

def renderPiece (rendering : Rendering) (slots : Slots) : Piece → Rendering × Slots
  | .text text => (rendering.write text, slots)
  | .child field child =>
      let (rendering, rendered) := render rendering child
      (rendering, ⟨slots.fields ++ [(field, .node rendered.id)], rendered.span⟩)
  | .list field items separator =>
      let (rendering, ids, last) := renderItems rendering separator slots.last items
      (rendering, ⟨slots.fields ++ [(field, .list (ids.map some))], last⟩)
  | .absent field => (rendering, ⟨slots.fields ++ [(field, .value .null)], slots.last⟩)
  | .twin field name =>
      let id := rendering.nodes.length
      (rendering.add ⟨.identifier, slots.last, [("name", .value (.text name))]⟩,
        ⟨slots.fields ++ [(field, .node id)], slots.last⟩)

def renderItems (rendering : Rendering) (separator : String) (last : Span) :
    List Sketch → Rendering × List NodeId × Span
  | [] => (rendering, [], last)
  | [item] =>
      let (rendering, rendered) := render rendering item
      (rendering, [rendered.id], rendered.span)
  | item :: items =>
      let (rendering, rendered) := render rendering item
      let (rendering, ids, last) :=
        renderItems (rendering.write separator) separator rendered.span items
      (rendering, rendered.id :: ids, last)

end

/-- A tree with the types and tags of its nodes. -/
structure Built where
  tree : Tree
  types : TypeTable
  tags : List (String × NodeId)

def build? (sketch : Sketch) : Except TreeError Built := do
  let (rendering, root) := render {} sketch
  let tree ← Tree.build? rendering.nodes root.id (String.ofList rendering.text)
  return { tree, types := rendering.types, tags := rendering.tags }

end Sketch

end ReactiveLint
