import Mathlib.Logic.Relation
import Mathlib.Tactic.ByContra
import ReactiveLint.Types.Basic

/-!
# What a type could return

A type is called through its constituents, the types that are reached from it through unions and
intersections.  Whether it could be a function is asked of all of them, but what it could return
only of the type itself or of the members of one union.
-/

namespace ReactiveLint.Ty

variable {type part : Ty} {types : List Ty} {test : NameTest} {P : Ty → Prop}

/-- The members of a union or an intersection. -/
def members : Ty → List Ty
  | union types => types
  | intersection types => types
  | _ => []

/-- The constituents of a type, itself included. -/
def Reaches : Ty → Ty → Prop := Relation.ReflTransGen fun type member => member ∈ type.members

/-- Some call signature of the type itself returns a type that passes the test. -/
def Returns (test : NameTest) (type : Ty) : Prop :=
  ∃ signature ∈ type.callSignatures, signature.returnType.couldBe test none = true

/-- A type with call signatures, or the type `Function`. -/
def IsCallable : Ty → Prop
  | object name _ _ _ _ callSignatures _ => callSignatures ≠ [] ∨ name = "Function"
  | _ => False

/-- Constituents of the type return what passes the test, but they are all inside of an
intersection, or of a union that is a member of another one. -/
structure Buries (test : NameTest) (type : Ty) : Prop where
  exists_part : ∃ part, type.Reaches part ∧ part.Returns test
  not_mem : ∀ part, type.Reaches part → part.Returns test → part ∉ type.unionMembers

/-- Nothing is nested in the type, or in the members of the union that it is. -/
def IsShallow (type : Ty) : Prop := ∀ member ∈ type.unionMembers, member.members = []

/-! ## Constituents -/

/-- A search of the constituents is a search of the type and of those of its members. -/
theorem exists_reaches_iff :
    (∃ part, type.Reaches part ∧ P part) ↔
      P type ∨ ∃ member ∈ type.members, ∃ part, member.Reaches part ∧ P part := by
  constructor
  · rintro ⟨part, hreaches, hpart⟩
    rcases Relation.ReflTransGen.cases_head hreaches with rfl | ⟨member, hmember, hreaches⟩
    · exact .inl hpart
    · exact .inr ⟨member, hmember, part, hreaches, hpart⟩
  · rintro (htype | ⟨member, hmember, part, hreaches, hpart⟩)
    · exact ⟨type, .refl, htype⟩
    · exact ⟨part, .head hmember hreaches, hpart⟩

theorem reaches_of_mem_unionMembers (hmem : part ∈ type.unionMembers) : type.Reaches part := by
  cases type with
  | union types => exact .single hmem
  | _ =>
      obtain rfl := List.mem_singleton.mp hmem
      exact .refl

theorem Returns.isCallable (hreturns : type.Returns test) : type.IsCallable := by
  obtain ⟨signature, hsignature, -⟩ := hreturns
  cases type with
  | object => exact .inl (List.ne_nil_of_mem hsignature)
  | _ => cases hsignature

mutual

/-- A type could be a function if some constituent can be called, at whatever depth. -/
theorem couldBeFunction_iff : ∀ type : Ty,
    type.couldBeFunction = true ↔ ∃ part, type.Reaches part ∧ part.IsCallable
  | union types => by
      rw [couldBeFunction, anyCouldBeFunction_iff types, exists_reaches_iff]
      simp [members, IsCallable]
  | intersection types => by
      rw [couldBeFunction, anyCouldBeFunction_iff types, exists_reaches_iff]
      simp [members, IsCallable]
  | object name _ _ _ _ callSignatures _ => by
      rw [couldBeFunction, exists_reaches_iff]
      simp [members, IsCallable]
  | any | unknown | void | undefined | null | never | primitive _ | literal _ => by
      rw [exists_reaches_iff]
      simp [couldBeFunction, members, IsCallable]

theorem anyCouldBeFunction_iff : ∀ types : List Ty,
    anyCouldBeFunction types = true ↔
      ∃ type ∈ types, ∃ part, type.Reaches part ∧ part.IsCallable
  | [] => by simp [anyCouldBeFunction]
  | type :: types => by
      simp only [anyCouldBeFunction, Bool.or_eq_true, couldBeFunction_iff type,
        anyCouldBeFunction_iff types, List.mem_cons, exists_eq_or_imp]

end

/-! ## What could be returned -/

theorem couldReturn_iff :
    type.couldReturn test = true ↔ ∃ part ∈ type.unionMembers, part.Returns test := by
  simp only [couldReturn, List.any_eq_true, Returns]

/-- What a type could return is returned by a constituent. -/
theorem exists_returns_of_couldReturn (hreturn : type.couldReturn test = true) :
    ∃ part, type.Reaches part ∧ part.Returns test := by
  obtain ⟨part, hmem, hreturns⟩ := couldReturn_iff.mp hreturn
  exact ⟨part, reaches_of_mem_unionMembers hmem, hreturns⟩

namespace Buries

variable (hburies : type.Buries test)

include hburies

theorem couldReturn_eq_false : type.couldReturn test = false := by
  rw [Bool.eq_false_iff, ne_eq, couldReturn_iff]
  rintro ⟨part, hmem, hreturns⟩
  exact hburies.not_mem part (reaches_of_mem_unionMembers hmem) hreturns hmem

theorem couldBeFunction_eq_true : type.couldBeFunction = true := by
  obtain ⟨part, hreaches, hreturns⟩ := hburies.exists_part
  exact (couldBeFunction_iff type).mpr ⟨part, hreaches, hreturns.isCallable⟩

end Buries

/-- A type that returns something is its only union member. -/
theorem Returns.mem_unionMembers (hreturns : type.Returns test) : type ∈ type.unionMembers := by
  obtain ⟨signature, hsignature, -⟩ := hreturns
  cases type with
  | union types => cases hsignature
  | _ => exact List.mem_singleton_self _

/-- Below a shallow type there are only the members of its union. -/
theorem IsShallow.eq_or_mem (hshallow : type.IsShallow) (hreaches : type.Reaches part) :
    type = part ∨ part ∈ type.unionMembers := by
  rcases Relation.ReflTransGen.cases_head hreaches with heq | ⟨member, hmember, hbelow⟩
  · exact .inl heq
  cases type with
  | union types =>
      rcases Relation.ReflTransGen.cases_head hbelow with rfl | ⟨lower, hlower, -⟩
      · exact .inr hmember
      · rw [hshallow member hmember] at hlower
        cases hlower
  | intersection types =>
      rw [hshallow _ (List.mem_singleton_self _)] at hmember
      cases hmember
  | _ => cases hmember

theorem IsShallow.not_buries (hshallow : type.IsShallow) : ¬ type.Buries test := by
  intro hburies
  obtain ⟨part, hreaches, hreturns⟩ := hburies.exists_part
  apply hburies.not_mem part hreaches hreturns
  rcases hshallow.eq_or_mem hreaches with rfl | hmem
  · exact hreturns.mem_unionMembers
  · exact hmem

/-- A type could return what some constituent returns, unless it buries what it returns: then its
constituents are found to be functions, but not what these return.  No shallow type does so. -/
theorem couldReturn_iff_exists_returns (test : NameTest) (type : Ty) :
    ((type.couldReturn test = true ↔ ∃ part, type.Reaches part ∧ part.Returns test) ↔
        ¬ type.Buries test) ∧
      (type.Buries test → type.couldReturn test = false ∧ type.couldBeFunction = true) ∧
      (type.IsShallow → ¬ type.Buries test) := by
  refine ⟨⟨fun hiff hburies => ?_, fun hburies => ?_⟩, fun hburies => ?_, IsShallow.not_buries⟩
  · rw [hburies.couldReturn_eq_false] at hiff
    exact absurd (hiff.mpr hburies.exists_part) (by decide)
  · refine ⟨exists_returns_of_couldReturn, fun hexists => ?_⟩
    by_contra hreturn
    refine hburies ⟨hexists, fun part hreaches hreturns hmem => hreturn ?_⟩
    exact couldReturn_iff.mpr ⟨part, hmem, hreturns⟩
  · exact ⟨hburies.couldReturn_eq_false, hburies.couldBeFunction_eq_true⟩

/-- An intersection of one function type returns nothing, though the function does. -/
theorem not_forall_couldReturn_iff_exists_returns :
    ¬ ∀ (test : NameTest) (type : Ty),
      type.couldReturn test = true ↔ ∃ part, type.Reaches part ∧ part.Returns test := by
  intro hall
  have hreaches : (intersection [function [] (named "Observable")]).Reaches
      (function [] (named "Observable")) := .single (List.mem_singleton_self _)
  have hreturns : (function [] (named "Observable")).Returns (.exactly "Observable") :=
    ⟨.mk [] (named "Observable"), List.mem_singleton_self _, by decide⟩
  have hreturn := (hall _ _).mpr ⟨_, hreaches, hreturns⟩
  have hfalse : (intersection [function [] (named "Observable")]).couldReturn
      (.exactly "Observable") = false := by decide
  rw [hfalse] at hreturn
  cases hreturn

end ReactiveLint.Ty
