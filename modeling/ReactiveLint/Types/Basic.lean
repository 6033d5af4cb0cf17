import ReactiveLint.Pattern.Basic
import ReactiveLint.Syntax.Scalar

/-!
# Static types

The types that a host resolves for the nodes of a program, and the questions
that rules ask of them.  Every question about a name looks through unions,
intersections, base types and implemented interfaces.
-/

namespace ReactiveLint

mutual

inductive Ty
  | any
  | unknown
  | void
  | undefined
  | null
  | never
  | primitive (name : String)
  | literal (value : Scalar)
  /-- A class, interface or alias, or an anonymous shape with an empty name. -/
  | object (name : String) (module : Option String) (arguments bases implements : List Ty)
      (callSignatures : List CallSignature) (properties : List TyProperty)
  | union (types : List Ty)
  | intersection (types : List Ty)

inductive CallSignature
  | mk (parameters : List Ty) (returnType : Ty)

inductive TyProperty
  | mk (name : String) (type : Ty)

end

namespace CallSignature

def parameters : CallSignature → List Ty
  | mk parameters _ => parameters

def returnType : CallSignature → Ty
  | mk _ returnType => returnType

end CallSignature

namespace TyProperty

def name : TyProperty → String
  | mk name _ => name

def type : TyProperty → Ty
  | mk _ type => type

end TyProperty

/-- What a symbol's name is compared with. -/
inductive NameTest
  | exactly (name : String)
  | like (pattern : Pattern)
deriving DecidableEq

def NameTest.holds : NameTest → String → Bool
  | exactly expected, name => expected == name
  | like pattern, name => pattern.isMatch name

namespace Ty

instance : Inhabited Ty := ⟨any⟩

def named (name : String) : Ty := object name none [] [] [] [] []

def generic (name : String) (arguments : List Ty) : Ty :=
  object name none arguments [] [] [] []

/-- An anonymous function type. -/
def function (parameters : List Ty) (returnType : Ty) : Ty :=
  object "" none [] [] [] [.mk parameters returnType] []

def stringLiteral (value : String) : Ty := literal (.text value)

/-- Sets the module that declares an object type. -/
def inModule (type : Ty) (path : String) : Ty :=
  match type with
  | object name _ arguments bases implements callSignatures properties =>
      object name (some path) arguments bases implements callSignatures properties
  | other => other

def extending (type base : Ty) : Ty :=
  match type with
  | object name path arguments bases implements callSignatures properties =>
      object name path arguments (bases ++ [base]) implements callSignatures properties
  | other => other

def withProperty (type : Ty) (property : String) (propertyType : Ty) : Ty :=
  match type with
  | object name path arguments bases implements callSignatures properties =>
      object name path arguments bases implements callSignatures
        (properties ++ [.mk property propertyType])
  | other => other

/-- Adds a call signature without parameters. -/
def withCallSignature (type returnType : Ty) : Ty :=
  match type with
  | object name path arguments bases implements callSignatures properties =>
      object name path arguments bases implements (callSignatures ++ [.mk [] returnType])
        properties
  | other => other

def isAny : Ty → Bool
  | any => true
  | _ => false

def isUnknown : Ty → Bool
  | unknown => true
  | _ => false

def isVoid : Ty → Bool
  | void => true
  | _ => false

def isUnion : Ty → Bool
  | union _ => true
  | _ => false

/-- The members of a union, or the type alone. -/
def unionMembers : Ty → List Ty
  | union types => types
  | other => [other]

def arguments : Ty → List Ty
  | object _ _ arguments _ _ _ _ => arguments
  | _ => []

def callSignatures : Ty → List CallSignature
  | object _ _ _ _ _ callSignatures _ => callSignatures
  | _ => []

def findProperty? (name : String) : List TyProperty → Option Ty
  | [] => none
  | property :: rest =>
      if property.name = name then some property.type else findProperty? name rest

mutual

/-- The declared type of a property, searched in base types too. -/
def property? (name : String) : Ty → Option Ty
  | object _ _ _ bases _ _ properties =>
      match findProperty? name properties with
      | some type => some type
      | none => firstProperty? name bases
  | intersection types => firstProperty? name types
  | _ => none

def firstProperty? (name : String) : List Ty → Option Ty
  | [] => none
  | type :: types =>
      match type.property? name with
      | some found => some found
      | none => firstProperty? name types

end

/-- Whether the symbol of an object type passes, in a module that passes. -/
def symbolPasses (test : NameTest) (inside : Option Pattern) (name : String)
    (path : Option String) : Bool :=
  let moduleFits := match inside with
    | none => true
    | some pattern => (path.map pattern.isMatch).getD false
  moduleFits && name != "" && test.holds name

mutual

/-- Whether the type, a constituent, a base or an implemented interface has a
symbol that passes the test in a module that passes. -/
def couldBe (test : NameTest) (inside : Option Pattern) : Ty → Bool
  | union types => anyCouldBe test inside types
  | intersection types => anyCouldBe test inside types
  | object name path _ bases implements _ _ =>
      symbolPasses test inside name path || anyCouldBe test inside bases ||
        anyCouldBe test inside implements
  | _ => false

def anyCouldBe (test : NameTest) (inside : Option Pattern) : List Ty → Bool
  | [] => false
  | type :: types => type.couldBe test inside || anyCouldBe test inside types

end

/-- Whether a call signature of the type or of a union member returns a type that
could be named so. -/
def couldReturn (test : NameTest) (type : Ty) : Bool :=
  type.unionMembers.any fun member =>
    member.callSignatures.any fun signature => signature.returnType.couldBe test none

mutual

/-- Whether the type can be called. -/
def couldBeFunction : Ty → Bool
  | union types => anyCouldBeFunction types
  | intersection types => anyCouldBeFunction types
  | object name _ _ _ _ callSignatures _ => !callSignatures.isEmpty || name == "Function"
  | _ => false

def anyCouldBeFunction : List Ty → Bool
  | [] => false
  | type :: types => type.couldBeFunction || anyCouldBeFunction types

end

mutual

def display : Ty → String
  | any => "any"
  | unknown => "unknown"
  | void => "void"
  | undefined => "undefined"
  | null => "null"
  | never => "never"
  | primitive name => name
  | literal (.text s) => "\"" ++ s ++ "\""
  | literal value => value.toText
  | union types => displayAll " | " types
  | intersection types => displayAll " & " types
  | object name _ arguments _ _ callSignatures _ =>
      if name = "" then
        match callSignatures with
        | .mk parameters returnType :: _ =>
            "(" ++ displayAll ", " parameters ++ ") => " ++ returnType.display
        | [] => "\x7b\x7d"
      else if arguments.isEmpty then name
      else name ++ "<" ++ displayAll ", " arguments ++ ">"

def displayAll (separator : String) : List Ty → String
  | [] => ""
  | [type] => type.display
  | type :: types => type.display ++ separator ++ displayAll separator types

end

end Ty

end ReactiveLint
