import ReactiveLint.Proofs.Data.Result
import ReactiveLint.Proofs.Sketch.Nodes
import ReactiveLint.Proofs.Syntax.Descent

/-!
# Built sketches

Every sketch can be built.  Its tree has one node for each part, over the text of that part,
and the types and tags lead to the parts that they were put on.
-/

namespace ReactiveLint.Sketch

variable {sketch : Sketch} {built : Built}

/-- A tree with its types and tags that is the picture of a sketch. -/
structure IsBuiltAs (sketch : Sketch) (built : Built) : Prop where
  isBuilt : built.tree.IsBuilt
  source_eq : built.tree.source = String.ofList sketch.source
  /-- The nodes stand for the parts, in their order, and the root for the whole sketch. -/
  size_eq : built.tree.size = sketch.origins.length
  root_origin : sketch.origins[built.tree.root]? = some (.drawn sketch)
  depicts : ∀ id (origin : Origin), sketch.origins[id]? = some origin →
    origin.Depicts sketch.source sketch.origins (built.tree.node id).toNodeDraft
  text_eq : ∀ id (origin : Origin), sketch.origins[id]? = some origin →
    built.tree.text id = String.ofList origin.source
  contains_child : ∀ parent child, built.tree.parent? child = some parent →
    (built.tree.span parent).contains (built.tree.span child) = true
  boundaries : ∀ id < built.tree.size,
    Text.IsBoundary sketch.source (built.tree.span id).start ∧
      Text.IsBoundary sketch.source (built.tree.span id).stop
  find?_types : ∀ id, built.types.find? id = sketch.origins[id]?.bind Origin.type?
  /-- Of several parts with one tag the last one is found. -/
  lookup_tags : ∀ tag id, built.tags.lookup tag = some id ↔ IsLastTagged sketch.origins tag id

theorem text_render_empty (sketch : Sketch) : (render {} sketch).1.text = sketch.source :=
  text_render sketch {}

/-- The whole rendering of a sketch. -/
theorem extends_render_empty (sketch : Sketch) :
    Tree.Extends (Shows sketch.source) [] (render {} sketch).1.nodes sketch.origins
      [(render {} sketch).2.id] fun all _ =>
        all[(render {} sketch).2.id]? = some (.drawn sketch) := by
  have hinitial : (render {} sketch).1.text <+: sketch.source :=
    text_render_empty sketch ▸ List.prefix_rfl
  exact (draws_render sketch {} hinitial).imp fun all arena hfacts => hfacts.1

theorem exists_shows {id : NodeId} {origin : Origin} (horigin : sketch.origins[id]? = some origin) :
    ∃ draft, (render {} sketch).1.nodes[id]? = some draft ∧
      Shows sketch.source sketch.origins (render {} sketch).1.nodes origin draft := by
  have hshown := (extends_render_empty sketch).shown
  obtain ⟨hid, rfl⟩ := List.getElem?_eq_some_iff.mp horigin
  have hid' : id < (render {} sketch).1.nodes.length := hshown.length_eq ▸ hid
  exact ⟨_, List.getElem?_eq_getElem hid', hshown.get hid hid'⟩

/-- The rendered nodes make a tree. -/
theorem exists_tree (sketch : Sketch) :
    ∃ tree, Tree.build? (render {} sketch).1.nodes (render {} sketch).2.id
      (String.ofList sketch.source) = .ok tree := by
  have hextends := extends_render_empty sketch
  refine Tree.exists_build?_iff.mpr (hextends.postOrder.linkable ?_)
  intro draft hdraft
  obtain ⟨id, hid⟩ := List.getElem?_of_mem hdraft
  have hlt : id < sketch.origins.length :=
    hextends.shown.length_eq ▸ (List.getElem?_eq_some_iff.mp hid).1
  obtain ⟨shown, hshown, hshows⟩ := exists_shows (List.getElem?_eq_getElem hlt)
  obtain rfl := Option.some.inj (hid.symm.trans hshown)
  rw [String.toList_ofList]
  exact hshows.depicts.cuts.fitsIn

section Tree

variable {tree : Tree} (hbuild : Tree.build? (render {} sketch).1.nodes (render {} sketch).2.id
  (String.ofList sketch.source) = .ok tree)

include hbuild

theorem shows_node {id : NodeId} {origin : Origin}
    (horigin : sketch.origins[id]? = some origin) :
    Shows sketch.source sketch.origins tree.arena origin (tree.node id).toNodeDraft := by
  obtain ⟨draft, hdraft, hshows⟩ := exists_shows horigin
  rw [Tree.toNodeDraft_node, (Tree.build?_eq_ok hbuild).1, hdraft]
  exact hshows

theorem size_tree : tree.size = sketch.origins.length := by
  rw [← Tree.length_arena, (Tree.build?_eq_ok hbuild).1]
  exact (extends_render_empty sketch).shown.length_eq.symm

theorem isBuiltAs_tree :
    sketch.IsBuiltAs ⟨tree, (render {} sketch).1.types, (render {} sketch).1.tags⟩ := by
  have hbuilt : tree.IsBuilt := Tree.isBuilt_of_build? hbuild
  have hsize := size_tree hbuild
  obtain ⟨-, hroot, hsource⟩ := Tree.build?_eq_ok hbuild
  have hmarked : Marked (render {} sketch).1 sketch.origins := marked_render sketch {} [] .empty
  have hcuts (id : NodeId) (origin : Origin) (horigin : sketch.origins[id]? = some origin) :
      Text.Cuts sketch.source (tree.span id) origin.source :=
    (shows_node hbuild horigin).depicts.cuts
  refine
    { isBuilt := hbuilt
      source_eq := hsource
      size_eq := hsize
      root_origin := hroot ▸ (extends_render_empty sketch).whole.2
      depicts := fun id origin horigin => (shows_node hbuild horigin).depicts
      text_eq := fun id origin horigin => ?_
      contains_child := fun parent child hparent => ?_
      boundaries := fun id hid => ?_
      find?_types := hmarked.find?_types
      lookup_tags := hmarked.lookup_tags }
  · rw [Tree.text, Tree.slice, hsource]
    exact (hcuts id origin horigin).slice_eq
  · have hlt : parent < tree.size := hbuilt.parent?_lt hparent
    have hshows := shows_node hbuild (List.getElem?_eq_getElem (hsize ▸ hlt))
    have hslot : child ∈ (tree.node parent).slotIds := (hbuilt.mem_slotIds_iff hlt).mpr hparent
    obtain ⟨draft, hdraft, hcontains⟩ := hshows.covers child hslot
    rw [Tree.span, Tree.span, Tree.toNodeDraft_node tree child, hdraft]
    exact hcontains
  · have hcut := hcuts id _ (List.getElem?_eq_getElem (hsize ▸ hid))
    exact ⟨hcut.isBoundary_start, hcut.isBoundary_stop⟩

end Tree

theorem exists_build? (sketch : Sketch) : ∃ built, sketch.build? = .ok built := by
  obtain ⟨tree, htree⟩ := exists_tree sketch
  rw [← text_render_empty] at htree
  exact ⟨_, bind_eq_ok_iff.mpr ⟨tree, htree, rfl⟩⟩

theorem isBuiltAs_of_build? (hbuild : sketch.build? = .ok built) : sketch.IsBuiltAs built := by
  obtain ⟨tree, htree, hbuilt⟩ := bind_eq_ok_iff.mp hbuild
  obtain rfl := Except.ok.inj hbuilt
  rw [text_render_empty] at htree
  exact isBuiltAs_tree htree

/-- Every sketch can be built, and what is built is its picture. -/
theorem exists_isBuiltAs (sketch : Sketch) :
    ∃ built, sketch.build? = .ok built ∧ sketch.IsBuiltAs built := by
  obtain ⟨built, hbuild⟩ := exists_build? sketch
  exact ⟨built, hbuild, isBuiltAs_of_build? hbuild⟩

end ReactiveLint.Sketch
