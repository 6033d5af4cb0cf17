import Mathlib.Data.List.Forall2
import ReactiveLint.Proofs.Fix.Splice
import ReactiveLint.Proofs.Syntax.Occupant
import ReactiveLint.Sketch.Basic

/-!
# What the nodes of a sketch stand for

Every node of a rendered tree stands for one part of the sketch: for a sketch inside it, or
for the twin of a child.  `Sketch.origins` lists these parts in the order of the nodes, and
`Origin.Depicts` says how a node must look that stands for one of them.
-/

namespace ReactiveLint

namespace Text

variable {cs part : List Char} {span : Span}

/-- A span with a given text. -/
def Cuts (cs : List Char) (span : Span) (part : List Char) : Prop :=
  ∃ before after, cs = before ++ (part ++ after) ∧
    span = ⟨byteLength before, byteLength before + byteLength part⟩

namespace Cuts

/-- What is written at some time has the span from where it began, whatever follows. -/
theorem of_isPrefix {before : List Char} (hinitial : before ++ part <+: cs) :
    Cuts cs ⟨byteLength before, byteLength (before ++ part)⟩ part := by
  obtain ⟨after, rfl⟩ := hinitial
  exact ⟨before, after, List.append_assoc .., by rw [byteLength_append]⟩

theorem fitsIn (hcuts : Cuts cs span part) : span.FitsIn (byteLength cs) := by
  obtain ⟨before, after, rfl, rfl⟩ := hcuts
  refine ⟨Nat.le_add_right _ _, ?_⟩
  simp only [byteLength_append]
  omega

theorem slice_eq (hcuts : Cuts cs span part) :
    slice (String.ofList cs) span = String.ofList part := by
  obtain ⟨before, after, rfl, rfl⟩ := hcuts
  rw [slice, String.toList_ofList]
  exact congrArg String.ofList (Fix.between_byteLength before part after)

theorem isBoundary_start (hcuts : Cuts cs span part) : IsBoundary cs span.start := by
  obtain ⟨before, after, rfl, rfl⟩ := hcuts
  exact isBoundary_iff.mpr ⟨before, part ++ after, rfl, rfl⟩

theorem isBoundary_stop (hcuts : Cuts cs span part) : IsBoundary cs span.stop := by
  obtain ⟨before, after, rfl, rfl⟩ := hcuts
  exact isBoundary_iff.mpr
    ⟨before ++ part, after, (List.append_assoc ..).symm, byteLength_append before part⟩

end Cuts

end Text

namespace Sketch

def type? : Sketch → Option Ty
  | node _ _ _ type _ => type

def tag? : Sketch → Option String
  | node _ _ _ _ tag => tag

/-- The part of a sketch that a node stands for. -/
inductive Origin
  | drawn (sketch : Sketch)
  /-- An identifier in the place of the child before it, if there is one. -/
  | twin (name : String) (before : Option Sketch)

namespace Origin

def kind : Origin → Kind
  | drawn sketch => sketch.kind
  | twin _ _ => .identifier

/-- The text that a node is to have. -/
def source : Origin → List Char
  | drawn sketch => sketch.source
  | twin _ before => (before.map Sketch.source).getD []

def type? : Origin → Option Ty
  | drawn sketch => sketch.type?
  | twin _ _ => none

def tag? : Origin → Option String
  | drawn sketch => sketch.tag?
  | twin _ _ => none

end Origin

/-- The child before what follows a piece. -/
def lastChild (before : Option Sketch) : Piece → Option Sketch
  | .child _ child => some child
  | .list _ items _ => items.getLast?.or before
  | _ => before

mutual

/-- The parts of a sketch in the order in which they are finished. -/
def origins : Sketch → List Origin
  | node kind pieces attributes type tag =>
      originsOfPieces none pieces ++ [.drawn (node kind pieces attributes type tag)]

def originsOfPieces (before : Option Sketch) : List Piece → List Origin
  | [] => []
  | piece :: pieces =>
      originsOfPiece before piece ++ originsOfPieces (lastChild before piece) pieces

def originsOfPiece (before : Option Sketch) : Piece → List Origin
  | .text _ => []
  | .child _ child => child.origins
  | .list _ items _ => originsOfItems items
  | .absent _ => []
  | .twin _ name => [.twin name before]

def originsOfItems : List Sketch → List Origin
  | [] => []
  | item :: items => item.origins ++ originsOfItems items

end

/-- Whether a piece makes a slot. -/
def isSlot : Piece → Bool
  | .text _ => false
  | _ => true

/-- The slot that a piece makes, with the nodes that stand for its children. -/
inductive Fills (origins : List Origin) : Piece → String × Slot → Prop
  | child {field : String} {child : Sketch} {id : NodeId}
      (hid : origins[id]? = some (.drawn child)) :
      Fills origins (.child field child) (field, .node id)
  | list {field separator : String} {items : List Sketch} {ids : List NodeId}
      (hids : List.Forall₂ (fun item id => origins[id]? = some (.drawn item)) items ids) :
      Fills origins (.list field items separator) (field, .list (ids.map some))
  | absent {field : String} : Fills origins (.absent field) (field, .value .null)
  | twin {field name : String} {before : Option Sketch} {id : NodeId}
      (hid : origins[id]? = some (.twin name before)) :
      Fills origins (.twin field name) (field, .node id)

/-- The slots of a node: those of its pieces, then its attributes. -/
inductive Origin.HasFields (origins : List Origin) : Origin → List (String × Slot) → Prop
  | drawn {kind : Kind} {pieces : List Piece} {attributes : List (String × Scalar)}
      {type : Option Ty} {tag : Option String} {fields : List (String × Slot)}
      (hfields : List.Forall₂ (Fills origins) (pieces.filter isSlot) fields) :
      HasFields origins (.drawn (node kind pieces attributes type tag))
        (fields ++ attributes.map fun (key, value) => (key, .value value))
  | twin {name : String} {before : Option Sketch} :
      HasFields origins (.twin name before) [("name", .value (.text name))]

/-- A node that looks like what it stands for. -/
structure Origin.Depicts (text : List Char) (origins : List Origin) (origin : Origin)
    (draft : NodeDraft) : Prop where
  kind_eq : draft.kind = origin.kind
  cuts : Text.Cuts text draft.span origin.source
  fields : HasFields origins origin draft.fields

/-- Nodes whose spans lie inside a span. -/
def Covers (arena : List NodeDraft) (span : Span) (ids : List NodeId) : Prop :=
  ∀ id ∈ ids, ∃ draft, arena[id]? = some draft ∧ span.contains draft.span = true

/-- The last of several parts with one tag. -/
structure IsLastTagged (origins : List Origin) (tag : String) (id : NodeId) : Prop where
  tagged : ∃ origin, origins[id]? = some origin ∧ origin.tag? = some tag
  last : ∀ later origin, origins[later]? = some origin → id < later → origin.tag? ≠ some tag

theorem getElem?_append_singleton {A : Type} (items : List A) (item : A) (index : Nat) :
    (items ++ [item])[index]? = if index = items.length then some item else items[index]? := by
  split
  next hindex => rw [hindex, List.getElem?_concat_length]
  next hindex =>
    rw [List.getElem?_append]
    split
    · rfl
    · rw [List.getElem?_eq_none (by simp; omega), List.getElem?_eq_none (by omega)]

/-- What stands in a list with one more item is that item or stood there before. -/
theorem getElem?_append_singleton_eq_some_iff {A : Type} {items : List A} {item found : A}
    {index : Nat} :
    (items ++ [item])[index]? = some found ↔
      index = items.length ∧ found = item ∨ items[index]? = some found := by
  rw [getElem?_append_singleton]
  split
  next hindex => simp [hindex, eq_comm]
  next hindex => simp [hindex]

section Tags

variable {origins : List Origin} {origin : Origin} {tag : String} {id : NodeId}

/-- A new part takes its tag over from all parts before it. -/
theorem isLastTagged_append_of_tag (htag : origin.tag? = some tag) :
    IsLastTagged (origins ++ [origin]) tag id ↔ id = origins.length := by
  have hlt {index : Nat} {old : Origin} (hindex : origins[index]? = some old) :
      index < origins.length := (List.getElem?_eq_some_iff.mp hindex).1
  constructor
  · rintro ⟨⟨found, hfound, -⟩, hlater⟩
    rcases getElem?_append_singleton_eq_some_iff.mp hfound with ⟨hid, -⟩ | hfound
    · exact hid
    · exact absurd htag (hlater _ origin List.getElem?_concat_length (hlt hfound))
  · rintro rfl
    refine ⟨⟨origin, List.getElem?_concat_length, htag⟩, fun later found hfound hafter => ?_⟩
    rcases getElem?_append_singleton_eq_some_iff.mp hfound with ⟨rfl, -⟩ | hfound
    · exact absurd hafter (Nat.lt_irrefl _)
    · exact absurd (hlt hfound) (Nat.lt_asymm hafter)

theorem isLastTagged_append_of_ne (htag : origin.tag? ≠ some tag) :
    IsLastTagged (origins ++ [origin]) tag id ↔ IsLastTagged origins tag id := by
  have hkept {index : Nat} {found : Origin} (hfound : found.tag? = some tag) :
      (origins ++ [origin])[index]? = some found ↔ origins[index]? = some found := by
    rw [getElem?_append_singleton_eq_some_iff, or_iff_right]
    rintro ⟨-, rfl⟩
    exact htag hfound
  constructor
  · rintro ⟨⟨found, hfound, hfoundTag⟩, hlater⟩
    refine ⟨⟨found, (hkept hfoundTag).mp hfound, hfoundTag⟩, ?_⟩
    intro later other hother hafter heq
    exact hlater later other ((hkept heq).mpr hother) hafter heq
  · rintro ⟨⟨found, hfound, hfoundTag⟩, hlater⟩
    refine ⟨⟨found, (hkept hfoundTag).mpr hfound, hfoundTag⟩, ?_⟩
    intro later other hother hafter heq
    exact hlater later other ((hkept heq).mp hother) hafter heq

theorem isLastTagged_append_singleton_iff :
    IsLastTagged (origins ++ [origin]) tag id ↔
      if origin.tag? = some tag then id = origins.length else IsLastTagged origins tag id := by
  split
  next htag => exact isLastTagged_append_of_tag htag
  next htag => exact isLastTagged_append_of_ne htag

end Tags

end Sketch

end ReactiveLint
