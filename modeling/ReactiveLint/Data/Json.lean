import ReactiveLint.Number.Basic

/-!
# JSON values

Numbers without fraction or exponent that fit 64 bits stay integers, all others
are binary floating-point numbers.  An object keeps its members as written,
repeated keys included; `Json.canonical` orders the members by key and lets the
last of equal keys win.
-/

namespace ReactiveLint

inductive Json
  | null
  | bool (value : Bool)
  | int (value : Int)
  | float (value : Number)
  | str (value : String)
  | list (items : List Json)
  | object (members : List (String × Json))
deriving Inhabited

namespace Json

/-- Insertion into members in strict key order, replacing an equal key. -/
def insertMember (key : String) (value : Json) : List (String × Json) → List (String × Json)
  | [] => [(key, value)]
  | (other, old) :: rest =>
      if key = other then (key, value) :: rest
      else if key < other then (key, value) :: (other, old) :: rest
      else (other, old) :: insertMember key value rest

/-- Members in key order, the last of equal keys kept. -/
def sortMembers (members : List (String × Json)) : List (String × Json) :=
  members.foldl (fun sorted (key, value) => insertMember key value sorted) []

mutual

def canonical : Json → Json
  | list items => list (canonicalItems items)
  | object members => object (sortMembers (canonicalMembers members))
  | other => other

def canonicalItems : List Json → List Json
  | [] => []
  | item :: items => item.canonical :: canonicalItems items

def canonicalMembers : List (String × Json) → List (String × Json)
  | [] => []
  | (key, value) :: members => (key, value.canonical) :: canonicalMembers members

end

/-- The first member of a key. -/
def member? (key : String) : List (String × Json) → Option Json
  | [] => none
  | (other, value) :: rest => if other = key then some value else member? key rest

/-- A member of an object. -/
def get? (json : Json) (key : String) : Option Json :=
  match json with
  | object members => member? key members
  | _ => none

def asString? : Json → Option String
  | str value => some value
  | _ => none

def asBool? : Json → Option Bool
  | bool value => some value
  | _ => none

def asList? : Json → Option (List Json)
  | list items => some items
  | _ => none

/-- A natural number written without fraction or exponent. -/
def asNat? : Json → Option Nat
  | int (.ofNat value) => some value
  | _ => none

/-- A natural number that fits a word of 64 bits. -/
def asWord? (json : Json) : Option Nat := do
  let value ← json.asNat?
  if value < Nat.pow 2 64 then some value else none

/-- Any number, integers rounded to the nearest binary value. -/
def asNumber? : Json → Option Number
  | int value => some (.ofInt value)
  | float value => some value
  | _ => none

def isNull : Json → Bool
  | null => true
  | _ => false

end Json

end ReactiveLint
