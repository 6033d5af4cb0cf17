import ReactiveLint.Proofs.Sketch.Replaced

/-!
# Leaves that are written anew

Where the new text of a leaf depends on what the leaf is, and not on where it stands, no node has
to be counted: `Sketch.rewritten` asks every part for its new text.  Fixes that replace the leaves
by these texts make the source of the rewritten sketch.
-/

namespace ReactiveLint.Sketch

variable {give : Sketch → Option String} {texts : NodeId → Option String} {first : NodeId}
  {origins others : List Origin} {sketch : Sketch} {built : Built}

mutual

/-- A sketch in which the parts that are given a text consist of it. -/
def rewritten (give : Sketch → Option String) : Sketch → Sketch
  | node kind pieces attributes type tag =>
      match give (node kind pieces attributes type tag) with
      | some text => node kind [.text text] attributes type tag
      | none => node kind (rewrittenPieces give pieces) attributes type tag

def rewrittenPieces (give : Sketch → Option String) : List Piece → List Piece
  | [] => []
  | piece :: pieces => rewrittenPiece give piece :: rewrittenPieces give pieces

def rewrittenPiece (give : Sketch → Option String) : Piece → Piece
  | .child field child => .child field (rewritten give child)
  | .list field items separator => .list field (rewrittenItems give items) separator
  | piece => piece

def rewrittenItems (give : Sketch → Option String) : List Sketch → List Sketch
  | [] => []
  | item :: items => rewritten give item :: rewrittenItems give items

end

theorem rewritten_of_none {kind : Kind} {pieces : List Piece} {attributes : List (String × Scalar)}
    {type : Option Ty} {tag : Option String}
    (hnone : give (node kind pieces attributes type tag) = none) :
    (node kind pieces attributes type tag).rewritten give =
      node kind (rewrittenPieces give pieces) attributes type tag := by
  rw [rewritten, hnone]

theorem rewrittenItems_eq_map (items : List Sketch) :
    rewrittenItems give items = items.map (rewritten give) := by
  induction items with
  | nil => rfl
  | cons item items ih => rw [rewrittenItems, ih, List.map_cons]

/-- The text that is given for what a node stands for. -/
def Origin.given? (give : Sketch → Option String) : Origin → Option String
  | drawn sketch => give sketch
  | twin _ _ => none

/-- Texts for nodes in a row are those of the parts that the nodes stand for. -/
def Agrees (give : Sketch → Option String) (texts : NodeId → Option String) (first : NodeId)
    (origins : List Origin) : Prop :=
  ∀ (index : Nat) (origin : Origin), origins[index]? = some origin →
    texts (first + index) = origin.given? give

namespace Agrees

theorem left (hagrees : Agrees give texts first (origins ++ others)) :
    Agrees give texts first origins :=
  fun index origin horigin => hagrees index origin
    ((List.getElem?_append_left (List.getElem?_eq_some_iff.mp horigin).1).trans horigin)

theorem right (hagrees : Agrees give texts first (origins ++ others)) :
    Agrees give texts (first + origins.length) others := by
  intro index origin horigin
  rw [Nat.add_assoc]
  apply hagrees
  rw [List.getElem?_append_right (Nat.le_add_right _ _), Nat.add_sub_cancel_left]
  exact horigin

theorem apply_length {part : Sketch} (hagrees : Agrees give texts first (origins ++ [.drawn part])) :
    texts (first + origins.length) = give part :=
  hagrees _ _ List.getElem?_concat_length

end Agrees

mutual

theorem replaced_eq_rewritten : ∀ (sketch : Sketch) (first : NodeId),
    Agrees give texts first sketch.origins → sketch.replaced texts first = sketch.rewritten give
  | node kind pieces attributes type tag, first, hagrees => by
      rw [Sketch.origins] at hagrees
      have hpieces := replacedPieces_eq_rewrittenPieces pieces none first hagrees.left
      have htext := hagrees.apply_length
      cases hgive : give (node kind pieces attributes type tag) with
      | none => simp only [replaced, rewritten, htext, hgive, hpieces]
      | some text => simp only [replaced, rewritten, htext, hgive]

theorem replacedPieces_eq_rewrittenPieces : ∀ (pieces : List Piece) (before : Option Sketch)
    (first : NodeId), Agrees give texts first (originsOfPieces before pieces) →
      replacedPieces texts first pieces = rewrittenPieces give pieces
  | [], _, _, _ => rfl
  | piece :: pieces, before, first, hagrees => by
      rw [originsOfPieces] at hagrees
      rw [replacedPieces, rewrittenPieces, ← length_originsOfPiece before piece,
        replacedPiece_eq_rewrittenPiece piece before first hagrees.left,
        replacedPieces_eq_rewrittenPieces pieces (lastChild before piece) _ hagrees.right]

theorem replacedPiece_eq_rewrittenPiece : ∀ (piece : Piece) (before : Option Sketch)
    (first : NodeId), Agrees give texts first (originsOfPiece before piece) →
      replacedPiece texts first piece = rewrittenPiece give piece
  | .text _, _, _, _ => rfl
  | .child _ child, _, first, hagrees => by
      rw [replacedPiece, rewrittenPiece, replaced_eq_rewritten child first hagrees]
  | .list _ items _, _, first, hagrees => by
      rw [replacedPiece, rewrittenPiece, replacedItems_eq_rewrittenItems items first hagrees]
  | .absent _, _, _, _ => rfl
  | .twin _ _, _, _, _ => rfl

theorem replacedItems_eq_rewrittenItems : ∀ (items : List Sketch) (first : NodeId),
    Agrees give texts first (originsOfItems items) →
      replacedItems texts first items = rewrittenItems give items
  | [], _, _ => rfl
  | item :: items, first, hagrees => by
      rw [originsOfItems] at hagrees
      rw [replacedItems, rewrittenItems, replaced_eq_rewritten item first hagrees.left,
        replacedItems_eq_rewrittenItems items _ hagrees.right]

end

/-! ## Fixes of leaves -/

def pieces : Sketch → List Piece
  | node _ pieces _ _ _ => pieces

/-- A part that consists of text. -/
structure IsLeaf (part : Sketch) : Prop where
  noSlots : part.pieces.filter isSlot = []
  source_ne : part.source ≠ []

/-- Only leaves are given texts. -/
def GivesLeaves (give : Sketch → Option String) (sketch : Sketch) : Prop :=
  ∀ part text, .drawn part ∈ sketch.origins → give part = some text → part.IsLeaf

/-- The nodes whose parts are given a text, with it. -/
def chosenBy (give : Sketch → Option String) (sketch : Sketch) : List (NodeId × String) :=
  (List.range sketch.origins.length).filterMap fun id =>
    (sketch.origins[id]?.bind (Origin.given? give)).map (id, ·)

theorem mem_chosenBy_iff {choice : NodeId × String} :
    choice ∈ chosenBy give sketch ↔
      ∃ part, sketch.origins[choice.1]? = some (.drawn part) ∧ give part = some choice.2 := by
  obtain ⟨id, text⟩ := choice
  simp only [chosenBy, List.mem_filterMap, List.mem_range, Option.map_eq_some_iff,
    Option.bind_eq_some_iff, Prod.mk.injEq]
  constructor
  · rintro ⟨id, -, text, ⟨origin, horigin, hgive⟩, rfl, rfl⟩
    cases origin with
    | drawn part => exact ⟨part, horigin, hgive⟩
    | twin => cases hgive
  · rintro ⟨part, hpart, hgive⟩
    exact ⟨id, (List.getElem?_eq_some_iff.mp hpart).1, text, ⟨_, hpart, hgive⟩, rfl, rfl⟩

theorem lookup_chosenBy (id : NodeId) :
    (chosenBy give sketch).lookup id = sketch.origins[id]?.bind (Origin.given? give) := by
  rw [chosenBy, lookup_filterMap_key]
  split
  next => rfl
  next hid =>
    have hlength : sketch.origins.length ≤ id := by simpa using hid
    rw [List.getElem?_eq_none hlength]
    rfl

/-- Replacing the chosen nodes is rewriting their parts. -/
theorem replaced_chosenBy :
    sketch.replaced ((chosenBy give sketch).lookup ·) 0 = sketch.rewritten give := by
  apply replaced_eq_rewritten
  intro index origin horigin
  change (chosenBy give sketch).lookup (0 + index) = _
  rw [Nat.zero_add, lookup_chosenBy, horigin]
  rfl

section Built

variable (hbuilt : sketch.IsBuiltAs built)

include hbuilt

/-- The slots of a node that stands for a part without slots hold its attributes. -/
theorem IsBuiltAs.fields_of_noSlots {id : NodeId} {kind : Kind} {pieces : List Piece}
    {attributes : List (String × Scalar)} {type : Option Ty} {tag : Option String}
    (horigin : sketch.origins[id]? = some (.drawn (node kind pieces attributes type tag)))
    (hnone : pieces.filter isSlot = []) :
    built.tree.fields id = attributes.map fun (key, value) => (key, .value value) := by
  have hfields := (hbuilt.depicts id _ horigin).fields
  generalize hgiven : (built.tree.node id).toNodeDraft.fields = fields at hfields
  cases hfields with
  | drawn hfills =>
      rw [hnone] at hfills
      cases hfills
      exact hgiven

/-- Nothing is below a node that stands for a leaf. -/
theorem IsBuiltAs.not_above_of_isLeaf {id below : NodeId} {part : Sketch}
    (horigin : sketch.origins[id]? = some (.drawn part)) (hleaf : part.IsLeaf) :
    ¬ built.tree.Above below id := by
  intro habove
  obtain ⟨child, -, hparent⟩ := Relation.TransGen.tail'_iff.mp habove
  have hmem : child ∈ (built.tree.node id).slotIds :=
    (hbuilt.isBuilt.mem_slotIds_iff (hbuilt.isBuilt.parent?_lt hparent)).mpr hparent
  obtain ⟨kind, pieces, attributes, type, tag⟩ := part
  have hfields : (built.tree.node id).fields = _ := hbuilt.fields_of_noSlots horigin hleaf.noSlots
  simp [NodeDraft.slotIds, hfields, Slot.ids] at hmem

theorem isChoice_chosenBy (hleaves : GivesLeaves give sketch) :
    sketch.IsChoice built.tree (chosenBy give sketch) := by
  have hleaf : ∀ choice ∈ chosenBy give sketch, ∃ part,
      sketch.origins[choice.1]? = some (.drawn part) ∧ part.IsLeaf := by
    intro choice hmem
    obtain ⟨part, hpart, hgive⟩ := mem_chosenBy_iff.mp hmem
    exact ⟨part, hpart, hleaves part _ (List.mem_of_getElem? hpart) hgive⟩
  refine ⟨?_, fun choice hmem => ?_, fun choice hmem => ?_, fun choice _ other hother habove => ?_⟩
  · rw [chosenBy, List.map_filterMap]
    apply List.nodup_range.filterMap
    simp only [Option.mem_def, Option.map_eq_some_iff]
    rintro id id' _ ⟨_, ⟨_, -, rfl⟩, rfl⟩ ⟨_, ⟨_, -, rfl⟩, rfl⟩
    rfl
  · obtain ⟨part, hpart, -⟩ := hleaf choice hmem
    exact ⟨part, hpart⟩
  · obtain ⟨part, hpart, hleaf⟩ := hleaf choice hmem
    rw [hbuilt.text_eq _ _ hpart]
    simpa [Origin.source] using hleaf.source_ne
  · obtain ⟨part, hpart, hleaf⟩ := hleaf other hother
    exact hbuilt.not_above_of_isLeaf hpart hleaf habove

end Built

/-- Fixes that put the given texts in the place of leaves are all applied, in any order, and make
the source of the rewritten sketch. -/
theorem applyFixes_rewritten (hbuild : sketch.build? = .ok built)
    (hleaves : GivesLeaves give sketch) {edits : List Edit} {diagnostics : List Diagnostic}
    (hedits : edits.Perm ((chosenBy give sketch).map fun choice =>
      built.tree.replaceNode choice.1 choice.2))
    (hmakes : List.Forall₂ Diagnostic.Makes edits diagnostics) :
    (applyFixes built.tree.source diagnostics).skipped = 0 ∧
      (applyFixes built.tree.source diagnostics).output =
        String.ofList (sketch.rewritten give).source := by
  have hchoice := isChoice_chosenBy (isBuiltAs_of_build? hbuild) hleaves
  obtain ⟨hskipped, -, houtput⟩ := hchoice.applyFixes_eq hbuild hedits hmakes
  exact ⟨hskipped, houtput.trans (by rw [replaced_chosenBy])⟩

end ReactiveLint.Sketch
