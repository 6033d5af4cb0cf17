import ReactiveLint.Syntax.Query

/-!
# Attribute paths

A path such as `callee.property.name`, `arguments.0`, `params.length` or `type`
leads from a node through its slots to an attribute.
-/

namespace ReactiveLint

inductive Attribute
  | node (id : NodeId)
  | list (items : NodeList)
  | value (scalar : Scalar)
  | kind (kind : Kind)
  | length (count : Nat)
deriving DecidableEq, Repr

/-- An unsigned decimal, which a plus sign may open. -/
def listPosition? (segment : String) : Option Nat :=
  let digits := match segment.toList with
    | '+' :: digits => digits
    | digits => digits
  if digits.isEmpty || !digits.all Char.isDigit then none
  else some (Number.digitsValue digits)

namespace Attribute

/-- One step of a path. -/
def step? (tree : Tree) (segment : String) : Attribute → Option Attribute
  | node id =>
      if segment = "type" then some (kind (tree.kind id))
      else
        (tree.slot? id segment).map fun
          | .node child => node child
          | .list items => list items
          | .value scalar => value scalar
  | list items =>
      if segment = "length" then some (length items.length)
      else ((listPosition? segment).bind items.at?).map node
  | value (.text s) => if segment = "length" then some (length s.length) else none
  | _ => none

/-- Everything reached is present, except a null value. -/
def isPresent : Attribute → Bool
  | value .null => false
  | _ => true

/-- The text that literal comparisons see; nodes and lists have none. -/
def text? : Attribute → Option String
  | value scalar => some scalar.toText
  | kind k => some k.name
  | length count => some (toString count)
  | node _ => none
  | list _ => none

/-- The number that ordered comparisons see. -/
def number? : Attribute → Option Number
  | value scalar => scalar.toNumber?
  | length count => some (.ofNat count)
  | _ => none

end Attribute

/-- The attribute that a path reaches from a node. -/
def Tree.path? (tree : Tree) (id : NodeId) (path : List String) : Option Attribute :=
  path.foldlM (fun (reached : Attribute) segment => reached.step? tree segment) (.node id)

end ReactiveLint
