import ReactiveLint.Proofs.Sketch.Rendering
import ReactiveLint.Proofs.Syntax.Growing

/-!
# The nodes of a rendering

Rendering adds one node for each part of a sketch.  The text that follows and the nodes
around are left open: the slots of a node are filled while its own span is still growing.
-/

namespace ReactiveLint.Sketch

variable {rendering after : Rendering} {text written : List Char} {origins others : List Origin}
  {before : Option Sketch} {start : Nat} {arena : List NodeDraft} {slots : Slots} {last : Span}
  {span outer : Span} {ids : List NodeId} {pieces : List Piece}

/-- A node that shows a part, with its children inside. -/
structure Shows (text : List Char) (all : List Origin) (arena : List NodeDraft) (origin : Origin)
    (draft : NodeDraft) : Prop where
  depicts : origin.Depicts text all draft
  covers : Covers arena draft.span draft.slotIds

/-- The child before a piece and where it stands in the node that began at `start`. -/
structure Follows (text : List Char) (start : Nat) (rendering : Rendering) (last : Span)
    (before : Option Sketch) : Prop where
  cuts : Text.Cuts text last ((before.map Sketch.source).getD [])
  start_le : start ≤ last.start
  le_offset : last.stop ≤ rendering.offset

/-- A sketch has been rendered as the node that was added last. -/
def Draws (text : List Char) (sketch : Sketch) (rendering : Rendering)
    (done : Rendering × Rendered) : Prop :=
  Tree.Extends (Shows text) rendering.nodes done.1.nodes sketch.origins [done.2.id]
    fun all arena => all[done.2.id]? = some (.drawn sketch) ∧
      Covers arena ⟨rendering.offset, done.1.offset⟩ [done.2.id]

/-- Items have been rendered inside the node that began at `start`. -/
def DrawsEach (text : List Char) (start : Nat) (items : List Sketch) (rendering : Rendering)
    (done : Rendering × List NodeId × Span) : Prop :=
  Tree.Extends (Shows text) rendering.nodes done.1.nodes (originsOfItems items) done.2.1
    fun all arena =>
      List.Forall₂ (fun item id => all[id]? = some (.drawn item)) items done.2.1 ∧
        Covers arena ⟨start, done.1.offset⟩ done.2.1

/-- Pieces have become the next slots of the node that began at `start`. -/
def FillsNext (text : List Char) (start : Nat) (pieces : List Piece) (origins : List Origin)
    (rendering : Rendering) (slots : Slots) (after : Rendering × Slots) : Prop :=
  ∃ new, after.2.fields = slots.fields ++ new ∧
    Tree.Extends (Shows text) rendering.nodes after.1.nodes origins (new.flatMap (·.2.ids))
      fun all arena => List.Forall₂ (Fills all) (pieces.filter isSlot) new ∧
        Covers arena ⟨start, after.1.offset⟩ (new.flatMap (·.2.ids))

theorem Covers.widen (hcovers : Covers arena span ids) (hstart : outer.start ≤ span.start)
    (hstop : span.stop ≤ outer.stop) : Covers arena outer ids := by
  intro id hid
  obtain ⟨draft, hdraft, hcontains⟩ := hcovers id hid
  refine ⟨draft, hdraft, ?_⟩
  simp only [Span.contains, Bool.and_eq_true, decide_eq_true_eq] at hcontains ⊢
  omega

theorem covers_append_iff {more : List NodeId} :
    Covers arena span (ids ++ more) ↔ Covers arena span ids ∧ Covers arena span more :=
  List.forall_mem_append

theorem offset_le_of_text (htext : after.text = rendering.text ++ written) :
    rendering.offset ≤ after.offset := by
  rw [Rendering.offset, Rendering.offset, htext, Text.byteLength_append]
  exact Nat.le_add_right _ _

namespace Follows

theorem start_le_offset (hfollows : Follows text start rendering last before) :
    start ≤ rendering.offset :=
  Nat.le_trans hfollows.start_le (Nat.le_trans hfollows.cuts.fitsIn.1 hfollows.le_offset)

theorem mono (hfollows : Follows text start rendering last before)
    (hle : rendering.offset ≤ after.offset) : Follows text start after last before :=
  ⟨hfollows.cuts, hfollows.start_le, Nat.le_trans hfollows.le_offset hle⟩

end Follows

namespace FillsNext

theorem nil : FillsNext text start [] [] rendering slots (rendering, slots) :=
  ⟨[], (List.append_nil _).symm, .nothing fun _ _ => ⟨.nil, fun _ hid => absurd hid (by simp)⟩⟩

theorem append {middle last : Rendering × Slots} {more : List Piece}
    (hfirst : FillsNext text start pieces origins rendering slots middle)
    (hsecond : FillsNext text start more others middle.1 middle.2 last)
    (hle : middle.1.offset ≤ last.1.offset) :
    FillsNext text start (pieces ++ more) (origins ++ others) rendering slots last := by
  obtain ⟨new, hnew, hextends⟩ := hfirst
  obtain ⟨rest, hrest, hmore⟩ := hsecond
  refine ⟨new ++ rest, by rw [hrest, hnew, List.append_assoc], ?_⟩
  rw [List.flatMap_append, List.filter_append]
  refine (hextends.append hmore).imp fun all arena hfacts => ?_
  obtain ⟨⟨hfills, hcovers⟩, hfillsMore, hcoversMore⟩ := hfacts
  exact ⟨List.rel_append hfills hfillsMore,
    covers_append_iff.mpr ⟨hcovers.widen (Nat.le_refl _) hle, hcoversMore⟩⟩

end FillsNext

theorem ids_map_some (ids : List NodeId) : (Slot.list (ids.map some)).ids = ids := by
  rw [Slot.ids, NodeList.ids]
  simp

/-- The scalars of a node add nothing to the nodes in its slots. -/
theorem slotIds_append_attributes (kind : Kind) (span : Span) (fields : List (String × Slot))
    (attributes : List (String × Scalar)) :
    (⟨kind, span, fields ++ attributes.map fun (key, value) => (key, .value value)⟩ :
      NodeDraft).slotIds = fields.flatMap (·.2.ids) := by
  rw [NodeDraft.slotIds, List.flatMap_append, List.flatMap_map]
  simp [Slot.ids]

theorem span_render (sketch : Sketch) (rendering : Rendering) :
    (render rendering sketch).2.span = ⟨rendering.offset, (render rendering sketch).1.offset⟩ := by
  obtain ⟨kind, pieces, attributes, type, tag⟩ := sketch
  cases type <;> cases tag <;> rfl

/-- The node of a sketch is followed like any child. -/
theorem follows_render {sketch : Sketch} (hinitial : (render rendering sketch).1.text <+: text)
    (hstart : start ≤ rendering.offset) :
    Follows text start (render rendering sketch).1 (render rendering sketch).2.span
      (some sketch) := by
  rw [span_render]
  rw [text_render] at hinitial
  refine ⟨?_, hstart, Nat.le_refl _⟩
  rw [Rendering.offset, Rendering.offset, text_render]
  exact Text.Cuts.of_isPrefix hinitial

/-- The node of a sketch is added after those of its pieces. -/
theorem draws_node (kind : Kind) (attributes : List (String × Scalar)) (type : Option Ty)
    (tag : Option String)
    (hinitial : (render rendering (node kind pieces attributes type tag)).1.text <+: text)
    (hfills : FillsNext text rendering.offset pieces (originsOfPieces none pieces) rendering
      { last := .point rendering.offset }
      (renderPieces rendering { last := .point rendering.offset } pieces)) :
    Draws text (node kind pieces attributes type tag) rendering
      (render rendering (node kind pieces attributes type tag)) := by
  rw [Draws, ← span_render]
  have hcuts := (follows_render hinitial (Nat.zero_le _)).cuts
  obtain ⟨new, hnew, hextends⟩ := hfills
  rw [List.nil_append] at hnew
  rw [← slotIds_append_attributes kind _ new attributes, ← hnew] at hextends
  have hnode := Tree.Extends.node (hextends.imp fun all arena hfacts =>
    show Shows text all arena (.drawn (node kind pieces attributes type tag)) _ from
      ⟨⟨rfl, hcuts, .drawn (hnew ▸ hfacts.1)⟩, hfacts.2⟩)
  rw [render, origins, Rendering.nodes_mark]
  refine hnode.imp fun all arena hfacts => ⟨hfacts.1, fun id hid => ?_⟩
  obtain rfl := List.mem_singleton.mp hid
  exact ⟨_, hfacts.2, Span.contains_self _⟩

-- Only a prefix of the text is known while a part is rendered, so each lemma is about every
-- text that goes on from what has been written.

mutual

/-- Rendering a sketch adds its node after those of the parts inside. -/
theorem draws_render : ∀ (sketch : Sketch) (rendering : Rendering),
    (render rendering sketch).1.text <+: text →
      Draws text sketch rendering (render rendering sketch)
  | node kind pieces attributes type tag, rendering, hinitial => by
      have hinner := hinitial
      rw [render, Rendering.text_mark] at hinner
      have hempty : Text.Cuts text (.point rendering.offset) [] := by
        have htext := text_renderPieces pieces rendering { last := .point rendering.offset }
        have hbefore : rendering.text ++ [] <+: text := by
          rw [List.append_nil]
          exact (htext ▸ List.prefix_append _ _).trans hinner
        have hcuts := Text.Cuts.of_isPrefix hbefore
        rwa [List.append_nil] at hcuts
      exact draws_node kind attributes type tag hinitial
        (fillsNext_renderPieces pieces rendering { last := .point rendering.offset } none
          rendering.offset hinner ⟨hempty, Nat.le_refl _, Nat.le_refl _⟩)

theorem fillsNext_renderPieces : ∀ (pieces : List Piece) (rendering : Rendering) (slots : Slots)
    (before : Option Sketch) (start : Nat),
    (renderPieces rendering slots pieces).1.text <+: text →
      Follows text start rendering slots.last before →
        FillsNext text start pieces (originsOfPieces before pieces) rendering slots
          (renderPieces rendering slots pieces)
  | [], rendering, slots, before, start, hinitial, hfollows => .nil
  | piece :: pieces, rendering, slots, before, start, hinitial, hfollows => by
      rw [renderPieces] at hinitial ⊢
      have htext := text_renderPieces pieces (renderPiece rendering slots piece).1
        (renderPiece rendering slots piece).2
      have hinitial' : (renderPiece rendering slots piece).1.text <+: text :=
        (htext ▸ List.prefix_append _ _).trans hinitial
      obtain ⟨hpiece, hlast⟩ :=
        fillsNext_renderPiece piece rendering slots before start hinitial' hfollows
      exact hpiece.append (fillsNext_renderPieces pieces _ _ _ start hinitial hlast)
        (offset_le_of_text htext)

theorem fillsNext_renderPiece : ∀ (piece : Piece) (rendering : Rendering) (slots : Slots)
    (before : Option Sketch) (start : Nat),
    (renderPiece rendering slots piece).1.text <+: text →
      Follows text start rendering slots.last before →
        FillsNext text start [piece] (originsOfPiece before piece) rendering slots
            (renderPiece rendering slots piece) ∧
          Follows text start (renderPiece rendering slots piece).1
            (renderPiece rendering slots piece).2.last (lastChild before piece)
  | .text text, rendering, slots, before, start, hinitial, hfollows =>
      have htext := text_renderPiece (.text text) rendering slots
      ⟨⟨[], (List.append_nil _).symm, .nothing fun _ _ => ⟨.nil, by simp [Covers]⟩⟩,
        hfollows.mono (offset_le_of_text htext)⟩
  | .child field child, rendering, slots, before, start, hinitial, hfollows => by
      have hdraws := draws_render child rendering hinitial
      refine ⟨⟨[(field, .node (render rendering child).2.id)], rfl, hdraws.imp ?_⟩,
        follows_render hinitial hfollows.start_le_offset⟩
      rintro all arena ⟨hid, hcovers⟩
      exact ⟨.cons (.child hid) .nil, hcovers.widen hfollows.start_le_offset (Nat.le_refl _)⟩
  | .list field items separator, rendering, slots, before, start, hinitial, hfollows => by
      obtain ⟨hextends, hlast⟩ :=
        drawsEach_renderItems items rendering separator slots.last before start hinitial hfollows
      refine ⟨⟨[(field, .list _)], rfl, ?_⟩, hlast⟩
      rw [List.flatMap_singleton, ids_map_some]
      exact hextends.imp fun all arena hfacts => ⟨.cons (.list hfacts.1) .nil, hfacts.2⟩
  | .absent field, rendering, slots, before, start, hinitial, hfollows =>
      ⟨⟨[(field, .value .null)], rfl,
        .nothing fun _ _ => ⟨.cons .absent .nil, by simp [Covers, Slot.ids]⟩⟩, hfollows⟩
  | .twin field name, rendering, slots, before, start, hinitial, hfollows => by
      have hnode : Tree.Extends (Shows text) rendering.nodes
          (renderPiece rendering slots (.twin field name)).1.nodes ([] ++ [.twin name before])
          [rendering.nodes.length] _ :=
        .node (.nothing fun _ _ =>
          ⟨⟨rfl, hfollows.cuts, .twin⟩, by simp [Covers, NodeDraft.slotIds, Slot.ids]⟩)
      refine ⟨⟨[(field, .node rendering.nodes.length)], rfl, hnode.imp ?_⟩,
        hfollows.mono (Nat.le_refl _)⟩
      rintro all arena ⟨hid, hdraft⟩
      refine ⟨.cons (.twin hid) .nil, fun id hmem => ?_⟩
      obtain rfl := List.mem_singleton.mp hmem
      exact ⟨_, hdraft, by simpa [Span.contains] using ⟨hfollows.start_le, hfollows.le_offset⟩⟩

theorem drawsEach_renderItems : ∀ (items : List Sketch) (rendering : Rendering)
    (separator : String) (last : Span) (before : Option Sketch) (start : Nat),
    (renderItems rendering separator last items).1.text <+: text →
      Follows text start rendering last before →
        DrawsEach text start items rendering (renderItems rendering separator last items) ∧
          Follows text start (renderItems rendering separator last items).1
            (renderItems rendering separator last items).2.2 (items.getLast?.or before)
  | [], rendering, separator, last, before, start, hinitial, hfollows =>
      ⟨.nothing fun _ _ => ⟨.nil, by simp [Covers, renderItems]⟩, hfollows⟩
  | [item], rendering, separator, last, before, start, hinitial, hfollows => by
      have hdraws := draws_render item rendering hinitial
      refine ⟨?_, follows_render hinitial hfollows.start_le_offset⟩
      rw [DrawsEach, originsOfItems, originsOfItems, List.append_nil]
      refine hdraws.imp fun all arena hfacts => ⟨.cons hfacts.1 .nil, ?_⟩
      exact hfacts.2.widen hfollows.start_le_offset (Nat.le_refl _)
  | item :: next :: items, rendering, separator, last, before, start, hinitial, hfollows => by
      have htext := text_renderItems (next :: items) ((render rendering item).1.write separator)
        separator (render rendering item).2.span
      have hinitial' : (render rendering item).1.text <+: text :=
        (List.prefix_append _ _).trans ((htext ▸ List.prefix_append _ _).trans hinitial)
      have hnext : Follows text start ((render rendering item).1.write separator)
          (render rendering item).2.span (some item) :=
        (follows_render hinitial' hfollows.start_le_offset).mono (offset_le_of_text rfl)
      obtain ⟨hrest, hlast⟩ := drawsEach_renderItems (next :: items) _ separator _ (some item) start
        hinitial hnext
      have hle : (render rendering item).1.offset ≤ _ :=
        Nat.le_trans (offset_le_of_text rfl) (offset_le_of_text htext)
      refine ⟨((draws_render item rendering hinitial').append hrest).imp ?_, ?_⟩
      · rintro all arena ⟨⟨hid, hcovers⟩, hids, hcoversRest⟩
        have hfirst : Covers arena
            ⟨start, (renderItems rendering separator last (item :: next :: items)).1.offset⟩
            [(render rendering item).2.id] := hcovers.widen hfollows.start_le_offset hle
        exact ⟨.cons hid hids, covers_append_iff.mpr ⟨hfirst, hcoversRest⟩⟩
      · have hsome : (next :: items).getLast?.or before =
            (next :: items).getLast?.or (some item) := by
          rw [List.getLast?_cons]
          rfl
        rw [List.getLast?_cons_cons, hsome]
        exact hlast

end

end ReactiveLint.Sketch
