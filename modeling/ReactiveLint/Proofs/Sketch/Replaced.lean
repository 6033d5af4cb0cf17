import ReactiveLint.Proofs.Fix.Replacing
import ReactiveLint.Proofs.Sketch.Built
import ReactiveLint.Proofs.Syntax.Nearest
import ReactiveLint.Rule.Report
import ReactiveLint.Sketch.Program

/-!
# Sketches with texts in the place of nodes

`Sketch.replaced` puts texts in the place of some nodes of a sketch, which it knows by their
numbers.  Nodes are numbered as they are finished, so nodes that are not nested are numbered in
the order of the text.  The edits that replace them, in this order, therefore rewrite the source
of the sketch in one splice, and what they make of it is the source of the new sketch.
-/

namespace ReactiveLint

open Text

namespace Sketch

variable {texts : NodeId → Option String} {all : List Origin} {whole : List NodeDraft}
  {first count more cursor : Nat} {source out rest behind : List Char}

mutual

/-- A sketch with texts in the place of some of its nodes.  The nodes are known by their numbers,
of which the first one is given. -/
def replaced (texts : NodeId → Option String) (first : NodeId) : Sketch → Sketch
  | node kind pieces attributes type tag =>
      match texts (first + (originsOfPieces none pieces).length) with
      | some text => node kind [.text text] attributes type tag
      | none => node kind (replacedPieces texts first pieces) attributes type tag

def replacedPieces (texts : NodeId → Option String) (first : NodeId) : List Piece → List Piece
  | [] => []
  | piece :: pieces =>
      replacedPiece texts first piece ::
        replacedPieces texts (first + (originsOfPiece none piece).length) pieces

def replacedPiece (texts : NodeId → Option String) (first : NodeId) : Piece → Piece
  | .child field child => .child field (replaced texts first child)
  | .list field items separator => .list field (replacedItems texts first items) separator
  | piece => piece

def replacedItems (texts : NodeId → Option String) (first : NodeId) : List Sketch → List Sketch
  | [] => []
  | item :: items =>
      replaced texts first item :: replacedItems texts (first + item.origins.length) items

end

/-- The edits that put texts in the place of nodes, in the order of some numbers. -/
def replacements (texts : NodeId → Option String) (arena : List NodeDraft) (ids : List NodeId) :
    List Edit :=
  ids.filterMap fun id =>
    (texts id).bind fun text => arena[id]?.map fun draft => ⟨draft.span, text⟩

theorem replacements_append (ids moreIds : List NodeId) :
    replacements texts whole (ids ++ moreIds) =
      replacements texts whole ids ++ replacements texts whole moreIds :=
  List.filterMap_append

theorem replacements_singleton {id : NodeId} {draft : NodeDraft}
    (hdraft : whole[id]? = some draft) :
    replacements texts whole [id] = (texts id).toList.map (Edit.mk draft.span) := by
  cases htext : texts id <;> simp [replacements, htext, hdraft]

theorem replacements_eq_nil {ids : List NodeId} (hnone : ∀ id ∈ ids, texts id = none) :
    replacements texts whole ids = [] := by
  apply List.filterMap_eq_nil_iff.mpr
  intro id hid
  rw [hnone id hid]
  rfl

/-- Texts for nodes that stand for sketches and are not below each other. -/
structure Chooses (texts : NodeId → Option String) (all : List Origin)
    (whole : List NodeDraft) : Prop where
  drawn : ∀ id text, texts id = some text → ∃ part, all[id]? = some (.drawn part)
  apart : ∀ id other text text', texts id = some text → texts other = some text' →
    Tree.Reachable whole id other → id = other

/-- Nothing below a replaced node is replaced itself. -/
theorem Chooses.replacements_below (hchooses : Chooses texts all whole) {top : NodeId}
    {text : String} (htext : texts top = some text) {ids : List NodeId}
    (hbelow : ∀ id ∈ ids, Tree.Reachable whole top id ∧ id ≠ top) :
    replacements texts whole ids = [] := by
  apply replacements_eq_nil
  intro id hid
  obtain ⟨hreached, hne⟩ := hbelow id hid
  rw [Option.eq_none_iff_forall_ne_some]
  intro other hother
  exact hne (hchooses.apart top id text other htext hother hreached).symm

/-- The replacements of some nodes in a row rewrite a text that begins at the cursor. -/
def Rewrites (texts : NodeId → Option String) (first count cursor : Nat) (source out : List Char)
    (all : List Origin) (whole : List NodeDraft) : Prop :=
  Chooses texts all whole →
    Fix.Splice cursor source (replacements texts whole (List.range' first count)) out

namespace Rewrites

theorem nothing (source : List Char) : Rewrites texts first 0 cursor source source all whole :=
  fun _ => .done cursor source

theorem append (hfirst : Rewrites texts first count cursor source out all whole)
    (hsecond : Rewrites texts (first + count) more (cursor + byteLength source) behind rest all
      whole) :
    Rewrites texts first (count + more) cursor (source ++ behind) (out ++ rest) all whole := by
  intro hchooses
  rw [← List.range'_append_1, replacements_append]
  exact (hfirst hchooses).append (hsecond hchooses)

end Rewrites

theorem length_originsOfPiece (before : Option Sketch) (piece : Piece) :
    (originsOfPiece before piece).length = (originsOfPiece none piece).length := by
  cases piece <;> simp [originsOfPiece]

/-- The nodes of a sketch are reached from the node that stands for it. -/
theorem grows_render (sketch : Sketch) (rendering : Rendering) :
    Tree.Grows rendering.nodes (render rendering sketch).1.nodes sketch.origins fun _ whole =>
      ∀ id ∈ List.range' rendering.nodes.length sketch.origins.length,
        Tree.Reachable whole (render rendering sketch).2.id id := by
  refine (draws_render sketch rendering List.prefix_rfl).grows.imp ?_
  intro all whole hreached id hid
  obtain ⟨top, htop, hreachable⟩ := hreached id hid
  rwa [List.mem_singleton.mp htop] at hreachable

theorem offset_write (rendering : Rendering) (text : String) :
    (rendering.write text).offset = rendering.offset + byteLength text.toList :=
  byteLength_append ..

theorem offset_render (sketch : Sketch) (rendering : Rendering) :
    (render rendering sketch).1.offset = rendering.offset + byteLength sketch.source := by
  rw [Rendering.offset, text_render, byteLength_append, Rendering.offset]

theorem offset_renderPiece (piece : Piece) (rendering : Rendering) (slots : Slots) :
    (renderPiece rendering slots piece).1.offset =
      rendering.offset + byteLength (sourceOfPiece piece) := by
  rw [Rendering.offset, text_renderPiece, byteLength_append, Rendering.offset]

theorem offset_renderPieces (pieces : List Piece) (rendering : Rendering) (slots : Slots) :
    (renderPieces rendering slots pieces).1.offset =
      rendering.offset + byteLength (sourceOfPieces pieces) := by
  rw [Rendering.offset, text_renderPieces, byteLength_append, Rendering.offset]

/-- A node comes behind those inside of it, and its span is that of its source. -/
theorem exists_nodes_render_node (kind : Kind) (pieces : List Piece)
    (attributes : List (String × Scalar)) (type : Option Ty) (tag : Option String)
    (rendering : Rendering) :
    ∃ fields, (render rendering (node kind pieces attributes type tag)).1.nodes =
      (renderPieces rendering { last := .point rendering.offset } pieces).1.nodes ++
        [⟨kind, ⟨rendering.offset, rendering.offset + byteLength (sourceOfPieces pieces)⟩,
          fields⟩] := by
  rw [render, Rendering.nodes_mark, ← offset_renderPieces]
  exact ⟨_, rfl⟩

/-- A node that is not replaced is rewritten where the nodes inside of it are. -/
theorem rewrites_node (kind : Kind) (pieces : List Piece) (attributes : List (String × Scalar))
    (type : Option Ty) (tag : Option String) (rendering : Rendering)
    (hpieces : Tree.Grows rendering.nodes
      (renderPieces rendering { last := .point rendering.offset } pieces).1.nodes
      (originsOfPieces none pieces)
      (Rewrites texts rendering.nodes.length (originsOfPieces none pieces).length rendering.offset
        (sourceOfPieces pieces)
        (sourceOfPieces (replacedPieces texts rendering.nodes.length pieces)))) :
    Tree.Grows rendering.nodes
      (render rendering (node kind pieces attributes type tag)).1.nodes
      (node kind pieces attributes type tag).origins
      (Rewrites texts rendering.nodes.length
        (node kind pieces attributes type tag).origins.length rendering.offset
        (node kind pieces attributes type tag).source
        ((node kind pieces attributes type tag).replaced texts rendering.nodes.length).source) := by
  have hlength := hpieces.length_eq
  have hreached := grows_render (node kind pieces attributes type tag) rendering
  have hid : (render rendering (node kind pieces attributes type tag)).2.id =
      rendering.nodes.length + (originsOfPieces none pieces).length := hlength
  obtain ⟨fields, hnodes⟩ := exists_nodes_render_node kind pieces attributes type tag rendering
  rw [hid, hnodes, origins] at hreached
  rw [hnodes, origins]
  refine ((hpieces.add _ _).and hreached).imp ?_
  rintro all whole ⟨⟨hrewrites, -, hdraft⟩, hreached⟩ hchooses
  rw [List.length_append, List.length_singleton, List.range'_1_concat] at hreached ⊢
  rw [hlength] at hdraft
  rw [replacements_append, replacements_singleton hdraft, source, replaced]
  cases htext : texts (rendering.nodes.length + (originsOfPieces none pieces).length) with
  | none => simpa [source] using hrewrites hchooses
  | some text =>
      have hnone : replacements texts whole
          (List.range' rendering.nodes.length (originsOfPieces none pieces).length) = [] :=
        hchooses.replacements_below htext fun id hid =>
          ⟨hreached id (List.mem_append_left _ hid), Nat.ne_of_lt (List.mem_range'_1.mp hid).2⟩
      rw [hnone]
      simp only [source, sourceOfPieces, sourceOfPiece, List.append_nil]
      exact .singleton rfl rfl

mutual

theorem rewrites_render : ∀ (sketch : Sketch) (rendering : Rendering),
    Tree.Grows rendering.nodes (render rendering sketch).1.nodes sketch.origins
      (Rewrites texts rendering.nodes.length sketch.origins.length rendering.offset sketch.source
        (sketch.replaced texts rendering.nodes.length).source)
  | node kind pieces attributes type tag, rendering =>
      rewrites_node kind pieces attributes type tag rendering
        (rewrites_renderPieces pieces rendering { last := .point rendering.offset } none)

theorem rewrites_renderPieces : ∀ (pieces : List Piece) (rendering : Rendering) (slots : Slots)
    (before : Option Sketch),
    Tree.Grows rendering.nodes (renderPieces rendering slots pieces).1.nodes
      (originsOfPieces before pieces)
      (Rewrites texts rendering.nodes.length (originsOfPieces before pieces).length
        rendering.offset (sourceOfPieces pieces)
        (sourceOfPieces (replacedPieces texts rendering.nodes.length pieces)))
  | [], rendering, slots, before => .nothing fun _ _ => .nothing []
  | piece :: pieces, rendering, slots, before => by
      have hpiece := rewrites_renderPiece piece rendering slots before
      have hpieces := rewrites_renderPieces pieces (renderPiece rendering slots piece).1
        (renderPiece rendering slots piece).2 (lastChild before piece)
      rw [hpiece.length_eq, offset_renderPiece] at hpieces
      rw [renderPieces, originsOfPieces, List.length_append, replacedPieces,
        ← length_originsOfPiece before piece]
      exact (hpiece.append hpieces).imp fun all whole hfacts => hfacts.1.append hfacts.2

theorem rewrites_renderPiece : ∀ (piece : Piece) (rendering : Rendering) (slots : Slots)
    (before : Option Sketch),
    Tree.Grows rendering.nodes (renderPiece rendering slots piece).1.nodes
      (originsOfPiece before piece)
      (Rewrites texts rendering.nodes.length (originsOfPiece before piece).length
        rendering.offset (sourceOfPiece piece)
        (sourceOfPiece (replacedPiece texts rendering.nodes.length piece)))
  | .text text, rendering, slots, before => .nothing fun _ _ => .nothing text.toList
  | .child field child, rendering, slots, before => by
      rw [renderPiece, originsOfPiece, replacedPiece, sourceOfPiece, sourceOfPiece]
      exact rewrites_render child rendering
  | .list field items separator, rendering, slots, before => by
      rw [renderPiece, originsOfPiece, replacedPiece, sourceOfPiece, sourceOfPiece]
      exact rewrites_renderItems items rendering separator slots.last
  | .absent field, rendering, slots, before => .nothing fun _ _ => .nothing []
  | .twin field name, rendering, slots, before => by
      have hnothing : Tree.Grows rendering.nodes rendering.nodes ([] : List Origin)
          fun _ _ => True := .nothing fun _ _ => trivial
      refine (hnothing.add (.twin name before) _).imp ?_
      rintro all whole ⟨-, htwin, -⟩ hchooses
      have hnone : replacements texts whole [rendering.nodes.length] = [] := by
        apply replacements_eq_nil
        intro id hid
        rw [List.mem_singleton.mp hid, Option.eq_none_iff_forall_ne_some]
        intro text htext
        obtain ⟨part, hpart⟩ := hchooses.drawn _ text htext
        rw [htwin] at hpart
        cases hpart
      change Fix.Splice _ _ (replacements texts whole [rendering.nodes.length]) _
      rw [hnone]
      exact .done rendering.offset []

theorem rewrites_renderItems : ∀ (items : List Sketch) (rendering : Rendering)
    (separator : String) (last : Span),
    Tree.Grows rendering.nodes (renderItems rendering separator last items).1.nodes
      (originsOfItems items)
      (Rewrites texts rendering.nodes.length (originsOfItems items).length rendering.offset
        (sourceOfItems separator.toList items)
        (sourceOfItems separator.toList (replacedItems texts rendering.nodes.length items)))
  | [], rendering, separator, last => .nothing fun _ _ => .nothing []
  | [item], rendering, separator, last => by
      have hitem := rewrites_render item rendering
      simp only [renderItems, originsOfItems, List.append_nil, replacedItems, sourceOfItems]
      exact hitem
  | item :: next :: items, rendering, separator, last => by
      have hitem := rewrites_render item rendering
      have hitems := rewrites_renderItems (next :: items)
        ((render rendering item).1.write separator) separator (render rendering item).2.span
      rw [offset_write, offset_render, Nat.add_assoc, ← byteLength_append] at hitems
      have hlength : ((render rendering item).1.write separator).nodes.length =
          rendering.nodes.length + item.origins.length := hitem.length_eq
      rw [hlength] at hitems
      rw [originsOfItems, List.length_append]
      refine (hitem.append hitems).imp fun all whole hfacts => ?_
      exact (hfacts.1.append (.nothing separator.toList)).append hfacts.2

end

/-! ## Replacing the nodes of a built sketch -/

/-- Nodes of a built sketch with texts for them, in any order: each stands for a sketch, not for
a twin, and has a text of its own, and none is below another. -/
structure IsChoice (sketch : Sketch) (tree : Tree) (chosen : List (NodeId × String)) : Prop where
  nodup : (chosen.map Prod.fst).Nodup
  isDrawn : ∀ choice ∈ chosen, ∃ part, sketch.origins[choice.1]? = some (.drawn part)
  text_ne : ∀ choice ∈ chosen, tree.text choice.1 ≠ ""
  apart : ∀ choice ∈ chosen, ∀ other ∈ chosen, ¬ tree.Above choice.1 other.1

theorem arena_of_build? {sketch : Sketch} {built : Built} (hbuild : sketch.build? = .ok built) :
    built.tree.arena = (render {} sketch).1.nodes := by
  obtain ⟨tree, htree, hbuilt⟩ := bind_eq_ok_iff.mp hbuild
  obtain rfl := Except.ok.inj hbuilt
  exact (Tree.build?_eq_ok htree).1

section Built

variable {sketch : Sketch} {built : Built} {chosen : List (NodeId × String)}
  (hbuilt : sketch.IsBuiltAs built) (hchoice : sketch.IsChoice built.tree chosen)

include hbuilt hchoice

theorem IsChoice.chooses : Chooses (chosen.lookup ·) sketch.origins built.tree.arena where
  drawn id text htext := hchoice.isDrawn _ ((lookup_eq_some_iff_mem hchoice.nodup).mp htext)
  apart id other text text' htext htext' hreachable := by
    have hmem := (lookup_eq_some_iff_mem hchoice.nodup).mp htext
    have hmem' := (lookup_eq_some_iff_mem hchoice.nodup).mp htext'
    rcases hbuilt.isBuilt.eq_or_above_of_reachable hreachable with heq | habove
    · exact heq
    · exact absurd habove (hchoice.apart _ hmem' _ hmem)

theorem IsChoice.perm_replacements :
    (replacements (chosen.lookup ·) built.tree.arena (List.range built.tree.size)).Perm
      (chosen.map fun choice => built.tree.replaceNode choice.1 choice.2) := by
  have hpairs : replacements (chosen.lookup ·) built.tree.arena (List.range built.tree.size) =
      ((List.range built.tree.size).filterMap fun id => (chosen.lookup id).map (id, ·)).map
        fun choice => built.tree.replaceNode choice.1 choice.2 := by
    rw [List.map_filterMap]
    apply List.filterMap_congr
    intro id hid
    obtain ⟨draft, hdraft⟩ := Tree.exists_getElem?_arena (List.mem_range.mp hid)
    have hspan : built.tree.span id = draft.span := by
      rw [Tree.span, Tree.toNodeDraft_node, hdraft]
      rfl
    cases hlookup : chosen.lookup id with
    | none => simp [hlookup]
    | some text => simp [hlookup, hdraft, Tree.replaceNode, hspan]
  rw [hpairs]
  apply List.Perm.map
  apply perm_filterMap_lookup hchoice.nodup List.nodup_range
  intro choice hmem
  obtain ⟨part, hpart⟩ := hchoice.isDrawn choice hmem
  rw [List.mem_range, hbuilt.size_eq]
  exact (List.getElem?_eq_some_iff.mp hpart).1

/-- A node with a text of its own has a span that is not empty. -/
theorem IsChoice.start_lt_stop {choice : NodeId × String} (hmem : choice ∈ chosen) :
    (built.tree.span choice.1).start < (built.tree.span choice.1).stop := by
  obtain ⟨part, hpart⟩ := hchoice.isDrawn choice hmem
  obtain ⟨before, after, -, hspan⟩ := (hbuilt.depicts _ _ hpart).cuts
  have hspan : built.tree.span choice.1 = _ := hspan
  rw [hspan]
  apply Nat.lt_add_of_pos_right
  rw [Nat.pos_iff_ne_zero]
  intro hlength
  apply hchoice.text_ne choice hmem
  rw [hbuilt.text_eq _ _ hpart, eq_nil_of_byteLength_eq_zero hlength]

end Built

section Applied

variable {sketch : Sketch} {built : Built} {chosen : List (NodeId × String)}
  (hbuild : sketch.build? = .ok built) (hchoice : sketch.IsChoice built.tree chosen)

include hbuild hchoice

/-- In the order of the nodes the replacements make one splice of the source. -/
theorem IsChoice.splice :
    Fix.Splice 0 built.tree.source.toList
      (replacements (chosen.lookup ·) built.tree.arena (List.range built.tree.size))
      (sketch.replaced (chosen.lookup ·) 0).source := by
  have hbuilt := isBuiltAs_of_build? hbuild
  have hrewrites : Rewrites (chosen.lookup ·) 0 sketch.origins.length 0 sketch.source
      (sketch.replaced (chosen.lookup ·) 0).source sketch.origins built.tree.arena := by
    rw [arena_of_build? hbuild]
    exact (rewrites_render sketch {}).whole
  rw [hbuilt.source_eq, String.toList_ofList, hbuilt.size_eq, List.range_eq_range']
  exact hrewrites (hchoice.chooses hbuilt)

/-- Of two chosen nodes the one with the lower number ends before the other one starts. -/
theorem IsChoice.stop_le_start {left right : NodeId × String} (hleft : left ∈ chosen)
    (hright : right ∈ chosen) (hlt : left.1 < right.1) :
    (built.tree.span left.1).stop ≤ (built.tree.span right.1).start := by
  have hbuilt := isBuiltAs_of_build? hbuild
  have hedit : ∀ choice ∈ chosen, ∃ draft, choice.1 < built.tree.size ∧
      built.tree.arena[choice.1]? = some draft ∧ built.tree.span choice.1 = draft.span ∧
        chosen.lookup choice.1 = some choice.2 := by
    intro choice hmem
    obtain ⟨part, hpart⟩ := hchoice.isDrawn choice hmem
    have hid : choice.1 < built.tree.size :=
      hbuilt.size_eq ▸ (List.getElem?_eq_some_iff.mp hpart).1
    obtain ⟨draft, hdraft⟩ := Tree.exists_getElem?_arena hid
    refine ⟨draft, hid, hdraft, ?_, (lookup_eq_some_iff_mem hchoice.nodup).mpr hmem⟩
    rw [Tree.span, Tree.toNodeDraft_node, hdraft]
    rfl
  obtain ⟨draft, -, hdraft, hspan, hlookup⟩ := hedit left hleft
  obtain ⟨draft', hid', hdraft', hspan', hlookup'⟩ := hedit right hright
  have hapart := List.pairwise_filterMap.mp (hchoice.splice hbuild).inOrder_source.apart
  rw [List.pairwise_iff_getElem] at hapart
  have hpair := hapart left.1 right.1 (by simpa using Nat.lt_trans hlt hid') (by simpa using hid')
    hlt ⟨draft.span, left.2⟩ (by simp [hlookup, hdraft]) ⟨draft'.span, right.2⟩
    (by simp [hlookup', hdraft'])
  rwa [hspan, hspan']

/-- One fix for each chosen node that replaces it is applied, whatever the order. -/
theorem IsChoice.applyFixes_eq {given : List Edit} {diagnostics : List Diagnostic}
    (hgiven : given.Perm (chosen.map fun choice => built.tree.replaceNode choice.1 choice.2))
    (hmakes : List.Forall₂ Diagnostic.Makes given diagnostics) :
    (applyFixes built.tree.source diagnostics).skipped = 0 ∧
      (applyFixes built.tree.source diagnostics).applied.Perm (diagnostics.map (·.ruleId)) ∧
      (applyFixes built.tree.source diagnostics).output =
        String.ofList (sketch.replaced (chosen.lookup ·) 0).source := by
  have hbuilt := isBuiltAs_of_build? hbuild
  have hperm := hchoice.perm_replacements hbuilt
  have hforward : ∀ edit ∈ replacements (chosen.lookup ·) built.tree.arena
      (List.range built.tree.size), edit.span.start < edit.span.stop := by
    intro edit hedit
    obtain ⟨choice, hmem, rfl⟩ := List.mem_map.mp (hperm.subset hedit)
    exact hchoice.start_lt_stop hbuilt hmem
  exact applyFixes_of_makes (hchoice.splice hbuild) hforward (hgiven.trans hperm.symm) hmakes

end Applied

/-- Every sketch can be built, and replacing nodes commutes with rendering: one fix for each of
some nodes that replaces it, in any order of the diagnostics, is accepted and applied, and the
output is the source of the sketch with these texts in the place of the nodes. -/
theorem exists_applyFixes_replaced (sketch : Sketch) :
    ∃ built, sketch.build? = .ok built ∧
      ∀ chosen, sketch.IsChoice built.tree chosen →
        let edits := chosen.map fun choice => built.tree.replaceNode choice.1 choice.2
        (∀ edit ∈ edits, Fix.ofEdits? [edit] (byteLength built.tree.source.toList) =
            .ok ⟨[edit]⟩) ∧
          ∀ given, given.Perm edits →
            ∀ diagnostics, List.Forall₂ Diagnostic.Makes given diagnostics →
              (applyFixes built.tree.source diagnostics).skipped = 0 ∧
                (applyFixes built.tree.source diagnostics).applied.Perm
                  (diagnostics.map (·.ruleId)) ∧
                (applyFixes built.tree.source diagnostics).output =
                  String.ofList (sketch.replaced (chosen.lookup ·) 0).source := by
  obtain ⟨built, hbuild⟩ := exists_build? sketch
  have hbuilt := isBuiltAs_of_build? hbuild
  refine ⟨built, hbuild, fun chosen hchoice => ⟨fun edit hedit => ?_, ?_⟩⟩
  · have hmem := (hchoice.perm_replacements hbuilt).symm.subset hedit
    exact ((hchoice.splice hbuild).inOrder_singleton hmem).ofEdits? (List.cons_ne_nil _ _)
  · exact fun given hgiven diagnostics hmakes => hchoice.applyFixes_eq hbuild hgiven hmakes

/-- The source `import { of } from "rxjs";` and behind it `f<T>(é, é);`. -/
def genericCall : Sketch :=
  program [importDecl [importSpec "of"] "rxjs",
    exprStmt (callGeneric (ident "f") [ident "T"] [ident "é", ident "é"])]

/-- An argument, the type arguments, the callee right before them, and the specifier. -/
def renamings : List (NodeId × String) := [(9, "b"), (7, ""), (5, "g"), (2, "of as just")]

def renamingFixes (tree : Tree) : List Diagnostic :=
  renamings.map fun choice =>
    { (default : Diagnostic) with fix := some ⟨[tree.replaceNode choice.1 choice.2]⟩ }

theorem isChoice_renamings {built : Built} (hbuild : genericCall.build? = .ok built) :
    genericCall.IsChoice built.tree renamings := by
  have hevaluated : (match genericCall.build? with
      | .ok built => renamings.all fun choice => built.tree.text choice.1 != "" &&
          renamings.all fun other => !(built.tree.ancestors choice.1).contains other.1
      | .error _ => false) = true := by
    decide +kernel
  simp only [hbuild, List.all_eq_true, Bool.and_eq_true, bne_iff_ne, Bool.not_eq_true',
    List.contains_eq_mem, decide_eq_false_iff_not] at hevaluated
  have hbuilt := isBuiltAs_of_build? hbuild
  have hdrawn : ∀ choice ∈ renamings, ∃ part,
      genericCall.origins[choice.1]? = some (.drawn part) := by
    simp only [renamings, List.forall_mem_cons]
    exact ⟨⟨_, rfl⟩, ⟨_, rfl⟩, ⟨_, rfl⟩, ⟨_, rfl⟩, List.forall_mem_nil _⟩
  refine ⟨by decide, hdrawn, fun choice hmem => (hevaluated choice hmem).1, ?_⟩
  intro choice hmem other hother habove
  have hid := habove.lower_lt_size hbuilt.isBuilt
  exact (hevaluated choice hmem).2 other hother ((hbuilt.isBuilt.mem_ancestors_iff hid).mpr habove)

theorem exists_applyFixes_replaced_renamings :
    ∃ built, genericCall.build? = .ok built ∧ genericCall.IsChoice built.tree renamings ∧
      (applyFixes built.tree.source (renamingFixes built.tree)).skipped = 0 ∧
      (applyFixes built.tree.source (renamingFixes built.tree)).output =
        "import \x7b of as just \x7d from \"rxjs\";\ng(é, b);" := by
  obtain ⟨built, hbuild, hreplaced⟩ := exists_applyFixes_replaced genericCall
  have hchoice := isChoice_renamings hbuild
  obtain ⟨-, hfixed⟩ := hreplaced renamings hchoice
  have hmakes : List.Forall₂ Diagnostic.Makes
      (renamings.map fun choice => built.tree.replaceNode choice.1 choice.2)
      (renamingFixes built.tree) := by
    rw [renamingFixes, List.forall₂_map_left_iff, List.forall₂_map_right_iff, List.forall₂_same]
    exact fun choice _ => rfl
  obtain ⟨hskipped, -, houtput⟩ := hfixed _ (.refl _) _ hmakes
  refine ⟨built, hbuild, hchoice, hskipped, ?_⟩
  rw [houtput]
  decide +kernel

end Sketch

end ReactiveLint
