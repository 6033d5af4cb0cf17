import ReactiveLint.Data.Json

/-!
# Records in JSON

A record with named fields is read from an object, by name, or from a list, by
position.  A missing field is left to its reader: it has a default or is
required.
-/

namespace ReactiveLint.Json

/-- The members with a key, which in a record must be at most one. -/
def uniqueMember? (key : String) (members : List (String × Json)) : Option (Option Json) :=
  match members.filter (·.1 == key) with
  | [] => some none
  | [(_, value)] => some (some value)
  | _ => none

/-- The fields of a record in the order of their names, absent ones as `none`.
A closed record has no other fields. -/
def recordFields? (names : List String) (closed : Bool) : Json → Option (List (Option Json))
  | object members =>
      if closed && members.any (fun member => !names.contains member.1) then none
      else names.mapM (uniqueMember? · members)
  | list items =>
      if names.length < items.length then none
      else some (items.map some ++ List.replicate (names.length - items.length) none)
  | _ => none

/-- A field with a default value when it is absent. -/
def fieldOr? {α : Type} (read? : Json → Option α) (default : α) : Option Json → Option α
  | some json => read? json
  | none => some default

/-- A field that must be present. -/
def required? {α : Type} (read? : Json → Option α) : Option Json → Option α
  | some json => read? json
  | none => none

/-- A field that may be absent or null. -/
def optional? {α : Type} (read? : Json → Option α) : Option Json → Option (Option α)
  | some null => some none
  | some json => (read? json).map some
  | none => some none

def listOf? {α : Type} (read? : Json → Option α) : Json → Option (List α)
  | list items => items.mapM read?
  | _ => none

/-- An object whose members have values of one form. -/
def mapOf? {α : Type} (read? : Json → Option α) : Json → Option (List (String × α))
  | object members => members.mapM fun (key, json) => (read? json).map (key, ·)
  | _ => none

mutual

/-- The nesting depth, which bounds the recursion of every reader. -/
def height : Json → Nat
  | list items => itemsHeight items + 1
  | object members => membersHeight members + 1
  | _ => 1

def itemsHeight : List Json → Nat
  | [] => 0
  | item :: items => max item.height (itemsHeight items)

def membersHeight : List (String × Json) → Nat
  | [] => 0
  | (_, value) :: members => max value.height (membersHeight members)

end

end ReactiveLint.Json
