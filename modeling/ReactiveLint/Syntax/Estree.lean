import ReactiveLint.Data.JsonText
import ReactiveLint.Text.Utf16
import ReactiveLint.Syntax.Tree

/-!
# Trees from ESTree JSON

An object with a textual `type` is a node.  Its source range is a pair under
`range`, or else `start` and `end`, counted in UTF-16 units.  Its other members
are its slots, in key order: nodes, lists of nodes, and scalars.  Objects that
are no nodes are left out, and list items that are no nodes become holes.
Children come before their parents in the arena.
-/

namespace ReactiveLint.Estree

/-- Members that say where a node stands, not what it is. -/
def positionKeys : List String :=
  ["type", "range", "loc", "start", "end", "parent", "tokens", "comments"]

def typeName? (members : List (String × Json)) : Option String :=
  (Json.member? "type" members).bind Json.asString?

/-- The range of a node in UTF-16 units. -/
def unitRange? (members : List (String × Json)) : Option (Nat × Nat) :=
  let ends := match Json.member? "range" members with
    | some (.list [start, stop]) => (some start, some stop)
    | _ => (Json.member? "start" members, Json.member? "end" members)
  match ends.1.bind Json.asNat?, ends.2.bind Json.asNat? with
  | some start, some stop => some (start, stop)
  | _, _ => none

def byteOffset (source : String) (index : Nat) : Except TreeError Nat :=
  match Text.Utf16.byteOffset? source index with
  | some offset => .ok offset
  | none => .error (.offsetOverflow index)

def spanOf (source typeName : String) (members : List (String × Json)) :
    Except TreeError Span := do
  match unitRange? members with
  | none => throw (.missingRange typeName)
  | some (start, stop) =>
      let start ← byteOffset source start
      let stop ← byteOffset source stop
      return ⟨start, stop⟩

/-- What a JSON value adds to the arena: a slot, or nothing. -/
abbrev Loaded (α : Type) := Except TreeError (List NodeDraft × α)

mutual

/-- The slot of a member.  New nodes are appended to the arena. -/
def slotOf (source : String) (arena : List NodeDraft) : Json → Loaded (Option Slot)
  | .null => .ok (arena, some (.value .null))
  | .bool value => .ok (arena, some (.value (.bool value)))
  | .int value => .ok (arena, some (.value (.number (.ofInt value))))
  | .float value => .ok (arena, some (.value (.number value)))
  | .str value => .ok (arena, some (.value (.text value)))
  | .list items =>
      match itemsOf source arena items with
      | .error e => .error e
      | .ok (arena, ids) => .ok (arena, some (.list ids))
  | .object members =>
      match nodeOf source arena members with
      | .error e => .error e
      | .ok (arena, id) => .ok (arena, id.map .node)

/-- The items of a list slot. -/
def itemsOf (source : String) (arena : List NodeDraft) : List Json → Loaded (List (Option NodeId))
  | [] => .ok (arena, [])
  | item :: items =>
      match itemOf source arena item with
      | .error e => .error e
      | .ok (arena, id) =>
          match itemsOf source arena items with
          | .error e => .error e
          | .ok (arena, ids) => .ok (arena, id :: ids)

def itemOf (source : String) (arena : List NodeDraft) : Json → Loaded (Option NodeId)
  | .object members => nodeOf source arena members
  | _ => .ok (arena, none)

def fieldsOf (source : String) (arena : List NodeDraft) :
    List (String × Json) → Loaded (List (String × Slot))
  | [] => .ok (arena, [])
  | (key, value) :: members =>
      if positionKeys.contains key then fieldsOf source arena members
      else
        match slotOf source arena value with
        | .error e => .error e
        | .ok (arena, slot) =>
            match fieldsOf source arena members with
            | .error e => .error e
            | .ok (arena, fields) =>
                .ok (arena, match slot with
                  | some slot => (key, slot) :: fields
                  | none => fields)

/-- The node of an object, if it has a type. -/
def nodeOf (source : String) (arena : List NodeDraft) (members : List (String × Json)) :
    Loaded (Option NodeId) :=
  match typeName? members with
  | none => .ok (arena, none)
  | some typeName =>
      match Kind.ofName? typeName with
      | none => .error (.unknownKind typeName)
      | some kind =>
          match spanOf source typeName members with
          | .error e => .error e
          | .ok span =>
              match fieldsOf source arena members with
              | .error e => .error e
              | .ok (arena, fields) =>
                  .ok (arena ++ [⟨kind, span, fields⟩], some arena.length)

end

/-- The tree of a JSON value whose objects are in key order. -/
def ofJson (json : Json) (source : String) : Except TreeError Tree :=
  match json with
  | .object members =>
      match nodeOf source [] members with
      | .error e => .error e
      | .ok (_, none) => .error .rootWithoutType
      | .ok (arena, some root) => Tree.build? arena root source
  | _ => .error .rootNotObject

/-- The tree of JSON text. -/
def ofText (text source : String) : Except TreeError Tree :=
  match Json.parse? text with
  | some json => ofJson json.canonical source
  | none => .error .unreadable

end ReactiveLint.Estree
