import ReactiveLint.Data.Record
import ReactiveLint.Types.Basic
import ReactiveLint.Syntax.Tree

/-!
# Types from JSON

A type is an object whose `kind` says which of its other members count; further
members are ignored.  A table of types is an object keyed by node ids.
-/

namespace ReactiveLint

def Scalar.ofJson? : Json → Option Scalar
  | .null => some .null
  | .bool value => some (.bool value)
  | .int value => some (.number (.ofInt value))
  | .float value => some (.number value)
  | .str value => some (.text value)
  | _ => none

namespace Ty

/-- The kind of a type and the content that holds its fields. -/
def splitKind? : Json → Option (String × Json)
  | .object members =>
      match Json.uniqueMember? "kind" members with
      | some (some (.str kind)) => some (kind, .object (members.filter (·.1 != "kind")))
      | _ => none
  | .list (.str kind :: items) => some (kind, .list items)
  | _ => none

/-- Reads a type whose JSON is nested at most as deep as the fuel. -/
def read? : Nat → Json → Option Ty
  | 0, _ => none
  | fuel + 1, json =>
      let types? := Json.listOf? (read? fuel)
      let signature? := fun json : Json => do
        match ← Json.recordFields? ["parameters", "returnType"] false json with
        | [parameters, returnType] =>
            let parameters ← Json.fieldOr? types? [] parameters
            let returnType ← Json.required? (read? fuel) returnType
            return CallSignature.mk parameters returnType
        | _ => none
      let property? := fun json : Json => do
        match ← Json.recordFields? ["name", "type"] false json with
        | [name, type] =>
            let name ← Json.required? Json.asString? name
            let type ← Json.required? (read? fuel) type
            return TyProperty.mk name type
        | _ => none
      match splitKind? json with
      | none => none
      | some (kind, content) =>
          match kind with
          | "any" => some any
          | "unknown" => some unknown
          | "void" => some void
          | "undefined" => some undefined
          | "null" => some null
          | "never" => some never
          | "primitive" => do
              match ← Json.recordFields? ["name"] false content with
              | [name] => primitive <$> Json.required? Json.asString? name
              | _ => none
          | "literal" => do
              match ← Json.recordFields? ["value"] false content with
              | [value] => literal <$> Json.required? Scalar.ofJson? value
              | _ => none
          | "union" => do
              match ← Json.recordFields? ["types"] false content with
              | [types] => union <$> Json.required? types? types
              | _ => none
          | "intersection" => do
              match ← Json.recordFields? ["types"] false content with
              | [types] => intersection <$> Json.required? types? types
              | _ => none
          | "object" => do
              match ← Json.recordFields?
                  ["name", "module", "typeArguments", "bases", "implements",
                    "callSignatures", "properties"] false content with
              | [name, path, arguments, bases, implements, callSignatures, properties] =>
                  let name ← Json.fieldOr? Json.asString? "" name
                  let path ← Json.optional? Json.asString? path
                  let arguments ← Json.fieldOr? types? [] arguments
                  let bases ← Json.fieldOr? types? [] bases
                  let implements ← Json.fieldOr? types? [] implements
                  let callSignatures ←
                    Json.fieldOr? (Json.listOf? signature?) [] callSignatures
                  let properties ← Json.fieldOr? (Json.listOf? property?) [] properties
                  return object name path arguments bases implements callSignatures properties
              | _ => none
          | _ => none

def ofJson? (json : Json) : Option Ty := read? (json.height + 1) json

end Ty

/-- The types of the nodes of one file. -/
structure TypeTable where
  entries : List (NodeId × Ty) := []

namespace TypeTable

def find? (table : TypeTable) (id : NodeId) : Option Ty := table.entries.lookup id

/-- Gives a node its type, replacing an earlier one. -/
def insert (table : TypeTable) (id : NodeId) (type : Ty) : TypeTable :=
  ⟨(id, type) :: table.entries.filter (·.1 != id)⟩

def size (table : TypeTable) : Nat := table.entries.length

def isEmpty (table : TypeTable) : Bool := table.entries.isEmpty

/-- An id as a key: a 32-bit number without sign or leading zeros. -/
def idOfKey? (key : String) : Option NodeId :=
  let digits := key.toList
  if digits.isEmpty || !digits.all Char.isDigit then none
  else if digits.head? = some '0' && digits.length != 1 then none
  else if Number.digitsValue digits < Nat.pow 2 32 then some (Number.digitsValue digits)
  else none

def ofMembers? (table : TypeTable) : List (String × Json) → Option TypeTable
  | [] => some table
  | (key, json) :: rest => do
      let id ← idOfKey? key
      let type ← Ty.ofJson? json
      ofMembers? (table.insert id type) rest

def ofJson? : Json → Option TypeTable
  | .object members => ofMembers? {} members
  | _ => none

end TypeTable

/-- The questions about types that rules may ask of one file.  A file without
types, and a node without a type, answer no to all of them. -/
structure TypeQuery where
  table : Option TypeTable

namespace TypeQuery

def isAvailable (query : TypeQuery) : Bool := query.table.isSome

def typeOf? (query : TypeQuery) (id : NodeId) : Option Ty :=
  query.table.bind (·.find? id)

def asks (query : TypeQuery) (id : NodeId) (question : Ty → Bool) : Bool :=
  (query.typeOf? id).any question

def couldBe (query : TypeQuery) (id : NodeId) (name : String) : Bool :=
  query.asks id (·.couldBe (.exactly name) none)

def couldBeLike (query : TypeQuery) (id : NodeId) (pattern : Pattern) : Bool :=
  query.asks id (·.couldBe (.like pattern) none)

def couldBeIn (query : TypeQuery) (id : NodeId) (name : String) (inside : Pattern) : Bool :=
  query.asks id (·.couldBe (.exactly name) (some inside))

def couldReturn (query : TypeQuery) (id : NodeId) (name : String) : Bool :=
  query.asks id (·.couldReturn (.exactly name))

def couldReturnLike (query : TypeQuery) (id : NodeId) (pattern : Pattern) : Bool :=
  query.asks id (·.couldReturn (.like pattern))

def couldBeFunction (query : TypeQuery) (id : NodeId) : Bool :=
  query.asks id Ty.couldBeFunction

def isAny (query : TypeQuery) (id : NodeId) : Bool := query.asks id Ty.isAny

def isUnknown (query : TypeQuery) (id : NodeId) : Bool := query.asks id Ty.isUnknown

def isVoid (query : TypeQuery) (id : NodeId) : Bool := query.asks id Ty.isVoid

end TypeQuery

end ReactiveLint
