import ReactiveLint.Proofs.Data.Lookup
import ReactiveLint.Proofs.Sketch.Origins

/-!
# Rendering a sketch

Rendering writes exactly the source of a sketch after the text that is there already, and it
records the types and tags of the parts, in the order in which these are finished.
-/

namespace ReactiveLint.Sketch

variable {rendering : Rendering} {origins : List Origin}

/-! ## The text -/

namespace Rendering

variable (rendering : Rendering) (id : NodeId) (type : Option Ty) (tag : Option String)

@[simp]
theorem text_mark : (rendering.mark id type tag).text = rendering.text := by
  cases type <;> cases tag <;> rfl

@[simp]
theorem nodes_mark : (rendering.mark id type tag).nodes = rendering.nodes := by
  cases type <;> cases tag <;> rfl

end Rendering

mutual

theorem text_render : ∀ (sketch : Sketch) (rendering : Rendering),
    (render rendering sketch).1.text = rendering.text ++ sketch.source
  | node kind pieces attributes type tag, rendering => by
      rw [render, source, ← text_renderPieces pieces rendering]
      exact Rendering.text_mark ..

theorem text_renderPieces : ∀ (pieces : List Piece) (rendering : Rendering) (slots : Slots),
    (renderPieces rendering slots pieces).1.text = rendering.text ++ sourceOfPieces pieces
  | [], rendering, slots => by rw [renderPieces, sourceOfPieces, List.append_nil]
  | piece :: pieces, rendering, slots => by
      rw [renderPieces, sourceOfPieces, text_renderPieces pieces, text_renderPiece piece,
        List.append_assoc]

theorem text_renderPiece : ∀ (piece : Piece) (rendering : Rendering) (slots : Slots),
    (renderPiece rendering slots piece).1.text = rendering.text ++ sourceOfPiece piece
  | .text text, rendering, slots => rfl
  | .child field child, rendering, slots => by
      rw [renderPiece, sourceOfPiece]
      exact text_render child rendering
  | .list field items separator, rendering, slots => by
      rw [renderPiece, sourceOfPiece]
      exact text_renderItems items rendering separator slots.last
  | .absent field, rendering, slots => (List.append_nil _).symm
  | .twin field name, rendering, slots => (List.append_nil _).symm

theorem text_renderItems : ∀ (items : List Sketch) (rendering : Rendering) (separator : String)
    (last : Span), (renderItems rendering separator last items).1.text =
      rendering.text ++ sourceOfItems separator.toList items
  | [], rendering, separator, last => (List.append_nil _).symm
  | [item], rendering, separator, last => text_render item rendering
  | item :: next :: items, rendering, separator, last => by
      have hitem := text_render item rendering
      rw [renderItems, sourceOfItems]
      · exact (text_renderItems (next :: items) _ separator _).trans (by
          rw [Rendering.write, hitem]
          simp only [List.append_assoc])
      · simp
      · simp

end

/-! ## Types and tags -/

namespace Rendering

variable (rendering : Rendering) (id : NodeId) (type : Option Ty) (tag : Option String)

theorem find?_types_mark (other : NodeId) :
    (rendering.mark id type tag).types.find? other =
      if other = id then type.or (rendering.types.find? other)
      else rendering.types.find? other := by
  have htypes : (rendering.mark id type tag).types =
      (type.map (rendering.types.insert id)).getD rendering.types := by
    cases type <;> cases tag <;> rfl
  rw [htypes]
  cases type with
  | none => simp
  | some type =>
      rw [Option.map_some, Option.getD_some, TypeTable.find?, TypeTable.insert, lookup_replaced]
      simp [TypeTable.find?]

theorem lookup_tags_mark (name : String) :
    (rendering.mark id type tag).tags.lookup name =
      if tag = some name then some id else rendering.tags.lookup name := by
  cases tag with
  | none => cases type <;> rfl
  | some tag =>
      have htags : (rendering.mark id type (some tag)).tags =
          (tag, id) :: rendering.tags.filter (·.1 != tag) := by
        cases type <;> rfl
      rw [htags, lookup_replaced]
      exact if_congr (by rw [Option.some.injEq, eq_comm]) rfl rfl

end Rendering

/-- A rendering whose types and tags are those of some parts, one for each node. -/
structure Marked (rendering : Rendering) (origins : List Origin) : Prop where
  length_eq : rendering.nodes.length = origins.length
  find?_types : ∀ id, rendering.types.find? id = origins[id]?.bind Origin.type?
  lookup_tags : ∀ tag id, rendering.tags.lookup tag = some id ↔ IsLastTagged origins tag id

namespace Marked

theorem empty : Marked {} [] where
  length_eq := rfl
  find?_types _ := rfl
  lookup_tags tag id := by
    refine iff_of_false (by simp) fun hlast => ?_
    obtain ⟨origin, horigin, -⟩ := hlast.tagged
    simp at horigin

theorem write (hmarked : Marked rendering origins) (text : String) :
    Marked (rendering.write text) origins :=
  ⟨hmarked.length_eq, hmarked.find?_types, hmarked.lookup_tags⟩

/-- A new node is marked as the part that it stands for. -/
theorem add (hmarked : Marked rendering origins) (draft : NodeDraft) (origin : Origin) :
    Marked ((rendering.add draft).mark rendering.nodes.length origin.type? origin.tag?)
      (origins ++ [origin]) where
  length_eq := by
    rw [Rendering.nodes_mark, Rendering.add, List.length_append, List.length_append,
      hmarked.length_eq]
    rfl
  find?_types id := by
    have hbefore : rendering.types.find? id = origins[id]?.bind Origin.type? :=
      hmarked.find?_types id
    rw [Rendering.find?_types_mark, hmarked.length_eq, Rendering.add, hbefore,
      getElem?_append_singleton]
    split
    next hid =>
      rw [hid, List.getElem?_eq_none (Nat.le_refl _)]
      exact Option.or_none
    next => rfl
  lookup_tags tag id := by
    rw [Rendering.lookup_tags_mark, isLastTagged_append_singleton_iff, hmarked.length_eq]
    split
    · rw [Option.some.injEq, eq_comm]
    · exact hmarked.lookup_tags tag id

end Marked

mutual

theorem marked_render : ∀ (sketch : Sketch) (rendering : Rendering) (origins : List Origin),
    Marked rendering origins → Marked (render rendering sketch).1 (origins ++ sketch.origins)
  | node kind pieces attributes type tag, rendering, before, hmarked => by
      have hpieces := marked_renderPieces pieces rendering { last := .point rendering.offset } none
        before hmarked
      rw [render, origins, ← List.append_assoc]
      exact hpieces.add _ (.drawn (node kind pieces attributes type tag))

theorem marked_renderPieces : ∀ (pieces : List Piece) (rendering : Rendering) (slots : Slots)
    (last : Option Sketch) (origins : List Origin), Marked rendering origins →
      Marked (renderPieces rendering slots pieces).1 (origins ++ originsOfPieces last pieces)
  | [], rendering, slots, last, origins, hmarked => by
      rwa [renderPieces, originsOfPieces, List.append_nil]
  | piece :: pieces, rendering, slots, last, origins, hmarked => by
      have hpiece := marked_renderPiece piece rendering slots last origins hmarked
      rw [renderPieces, originsOfPieces, ← List.append_assoc]
      exact marked_renderPieces pieces _ _ _ _ hpiece

theorem marked_renderPiece : ∀ (piece : Piece) (rendering : Rendering) (slots : Slots)
    (last : Option Sketch) (origins : List Origin), Marked rendering origins →
      Marked (renderPiece rendering slots piece).1 (origins ++ originsOfPiece last piece)
  | .text text, rendering, slots, last, origins, hmarked => by
      rw [renderPiece, originsOfPiece, List.append_nil]
      exact hmarked.write text
  | .child field child, rendering, slots, last, origins, hmarked => by
      rw [renderPiece, originsOfPiece]
      exact marked_render child rendering origins hmarked
  | .list field items separator, rendering, slots, last, origins, hmarked => by
      rw [renderPiece, originsOfPiece]
      exact marked_renderItems items rendering separator slots.last origins hmarked
  | .absent field, rendering, slots, last, origins, hmarked => by
      rwa [renderPiece, originsOfPiece, List.append_nil]
  | .twin field name, rendering, slots, last, origins, hmarked =>
      hmarked.add _ (.twin name last)

theorem marked_renderItems : ∀ (items : List Sketch) (rendering : Rendering) (separator : String)
    (last : Span) (origins : List Origin), Marked rendering origins →
      Marked (renderItems rendering separator last items).1 (origins ++ originsOfItems items)
  | [], rendering, separator, last, origins, hmarked => by
      rwa [renderItems, originsOfItems, List.append_nil]
  | [item], rendering, separator, last, origins, hmarked => by
      rw [renderItems, originsOfItems, originsOfItems, List.append_nil]
      exact marked_render item rendering origins hmarked
  | item :: next :: items, rendering, separator, last, origins, hmarked => by
      have hitem := (marked_render item rendering origins hmarked).write separator
      rw [renderItems, originsOfItems, ← List.append_assoc]
      · exact marked_renderItems (next :: items) _ separator _ _ hitem
      · simp

end

end ReactiveLint.Sketch
