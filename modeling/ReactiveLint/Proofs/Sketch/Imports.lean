import ReactiveLint.Proofs.Sketch.Rewritten
import ReactiveLint.Rules.Imports
import ReactiveLint.Sketch.Program

/-!
# Programs of imports

A program that consists of import declarations has one literal for each of them.  The literals
with internal locations can be replaced by those with the public ones, which makes the program of
the settled imports.
-/

namespace ReactiveLint

/-- Whether a node is the source of an import declaration. -/
def Tree.isImportSource (tree : Tree) (id : NodeId) : Bool :=
  (tree.parent? id).any fun declaration =>
    tree.is declaration .importDeclaration && tree.child? declaration "source" == some id

/-- The sources of import declarations, in the order of the arena. -/
def Tree.importSources (tree : Tree) : List NodeId := tree.ids.filter tree.isImportSource

namespace Sketch

/-- What an import takes from a module. -/
inductive Specifier
  | named (name : String)
  | renamed (imported localName : String)
  | default (localName : String)
  | whole (localName : String)

def Specifier.sketch : Specifier → Sketch
  | .named name => importSpec name
  | .renamed imported localName => importSpecAs imported localName
  | .default localName => importDefault localName
  | .whole localName => importNamespace localName

inductive Quote
  | single
  | double

def Quote.char : Quote → Char
  | .single => '\''
  | .double => '"'

/-- An import with any specifiers from a location in quotes. -/
structure Import where
  specifiers : List Specifier
  location : String
  quote : Quote

namespace Import

/-- The source literal of an import. -/
def literal (item : Import) : Sketch := quoted item.location item.quote.char

def sketch (item : Import) : Sketch :=
  importWith (item.specifiers.map Specifier.sketch) item.literal

def isInternal (item : Import) : Bool := "rxjs/internal".toList.isPrefixOf item.location.toList

/-- An import from an internal location becomes one from where the exports are public. -/
def settled (item : Import) : Import :=
  if item.isInternal then { item with location := Rules.publicLocation item.location.toList }
  else item

end Import

/-- The program that consists of some imports. -/
def importing (imports : List Import) : Sketch := program (imports.map Import.sketch)

/-! ## The parts of the program -/

/-- The pieces of an import up to its last specifier. -/
def importHead (specifiers : List Sketch) : List Piece :=
  if specifiers.any (·.kind == .importSpecifier) then
    [.text "import ", .text "\x7b ", .list "specifiers" specifiers ", ", .text " \x7d"]
  else [.text "import ", .list "specifiers" specifiers ", "]

def importPieces (specifiers : List Sketch) (source : Sketch) : List Piece :=
  importHead specifiers ++ [.text " from ", .child "source" source, .text ";"]

theorem importWith_eq (specifiers : List Sketch) (source : Sketch) :
    importWith specifiers source = node .importDeclaration (importPieces specifiers source)
      [("importKind", .text "value")] none none := by
  rw [importWith, importPieces, importHead]
  split <;> rfl

theorem filter_isSlot_importPieces (specifiers : List Sketch) (source : Sketch) :
    (importPieces specifiers source).filter isSlot =
      [.list "specifiers" specifiers ", ", .child "source" source] := by
  rw [importPieces, importHead]
  split <;> rfl

theorem originsOfItems_eq_flatMap (items : List Sketch) :
    originsOfItems items = items.flatMap origins := by
  induction items with
  | nil => rfl
  | cons item items ih => rw [originsOfItems, ih, List.flatMap_cons]

theorem origins_importWith (specifiers : List Sketch) (source : Sketch) :
    (importWith specifiers source).origins = specifiers.flatMap origins ++ source.origins ++
      [.drawn (importWith specifiers source)] := by
  have hpieces : originsOfPieces none (importPieces specifiers source) =
      originsOfItems specifiers ++ source.origins := by
    rw [importPieces, importHead]
    split <;> simp [originsOfPieces, originsOfPiece]
  rw [importWith_eq, origins, hpieces, originsOfItems_eq_flatMap]

theorem Specifier.filter_kind_origins {kind : Kind}
    (hkind : kind = .literal ∨ kind = .importDeclaration) (specifier : Specifier) :
    specifier.sketch.origins.filter (·.kind == kind) = [] := by
  cases specifier <;> rcases hkind with rfl | rfl <;> rfl

/-- The origins of an import of a kind that its specifiers do not have. -/
theorem Import.filter_kind_origins {kind : Kind}
    (hkind : kind = .literal ∨ kind = .importDeclaration) (item : Import) :
    item.sketch.origins.filter (·.kind == kind) =
      [Origin.drawn item.literal, .drawn item.sketch].filter (·.kind == kind) := by
  have hspecifiers : ((item.specifiers.map Specifier.sketch).flatMap origins).filter
      (·.kind == kind) = [] := by
    rw [List.flatMap_map, List.filter_flatMap, List.flatMap_eq_nil_iff]
    exact fun specifier _ => specifier.filter_kind_origins hkind
  rw [sketch, origins_importWith, List.append_assoc, List.filter_append, hspecifiers]
  rfl

theorem importing_eq (imports : List Import) :
    importing imports = node .program [.list "body" (imports.map Import.sketch) "\n"]
      [("sourceType", .text "module")] none none := rfl

theorem origins_importing (imports : List Import) :
    (importing imports).origins =
      (imports.map Import.sketch).flatMap origins ++ [.drawn (importing imports)] := by
  rw [importing_eq, origins, originsOfPieces, originsOfPieces, originsOfPiece, List.append_nil,
    originsOfItems_eq_flatMap]

theorem Import.kind_literal (item : Import) : item.literal.kind = .literal := rfl

theorem Import.kind_sketch (item : Import) : item.sketch.kind = .importDeclaration := by
  rw [sketch, importWith_eq, kind]

/-- Of a kind that each import has in one place, the program has one origin for each import. -/
theorem filter_kind_origins_importing {kind : Kind} {part : Import → Sketch}
    (hkind : kind = .literal ∨ kind = .importDeclaration)
    (hpart : ∀ item : Import, [Origin.drawn item.literal, .drawn item.sketch].filter
      (·.kind == kind) = [.drawn (part item)]) (imports : List Import) :
    (importing imports).origins.filter (·.kind == kind) =
      imports.map fun item => .drawn (part item) := by
  have hprogram : [Origin.drawn (importing imports)].filter (·.kind == kind) = [] := by
    rcases hkind with rfl | rfl <;> rfl
  rw [origins_importing, List.filter_append, hprogram, List.append_nil, List.flatMap_map,
    List.filter_flatMap, List.map_eq_flatMap]
  refine congrArg (imports.flatMap ·) (funext fun item => ?_)
  rw [item.filter_kind_origins hkind, hpart]

theorem literals_importing (imports : List Import) :
    (importing imports).origins.filter (·.kind == .literal) =
      imports.map fun item => .drawn item.literal :=
  filter_kind_origins_importing (.inl rfl)
    (fun item => by simp [Origin.kind, item.kind_literal, item.kind_sketch]) imports

theorem declarations_importing (imports : List Import) :
    (importing imports).origins.filter (·.kind == .importDeclaration) =
      imports.map fun item => .drawn item.sketch :=
  filter_kind_origins_importing (.inr rfl)
    (fun item => by simp [Origin.kind, item.kind_literal, item.kind_sketch]) imports

/-! ## The nodes of the program -/

section Built

variable {sketch : Sketch} {built : Built} {imports : List Import} {id : NodeId}

/-- The nodes of a kind stand for the parts of that kind, in order. -/
theorem IsBuiltAs.forall₂_ofKind (hbuilt : sketch.IsBuiltAs built) (kind : Kind) :
    List.Forall₂ (fun id origin => sketch.origins[id]? = some origin)
      (built.tree.ids.filter (built.tree.is · kind)) (sketch.origins.filter (·.kind == kind)) := by
  have hall : List.Forall₂ (fun id origin => sketch.origins[id]? = some origin)
      built.tree.ids sketch.origins := by
    have hsize : built.tree.nodes.size = sketch.origins.length := hbuilt.size_eq
    rw [Tree.ids, hsize]
    exact List.forall₂_iff_get.mpr ⟨List.length_range, fun index _ _ => by simp⟩
  refine List.rel_filter (fun id origin horigin => ?_) hall
  have hid : built.tree.kind id = origin.kind := (hbuilt.depicts id origin horigin).kind_eq
  simp only [Tree.is, hid]

theorem IsBuiltAs.exists_child_source {specifiers : List Sketch} {source : Sketch}
    (hbuilt : sketch.IsBuiltAs built)
    (horigin : sketch.origins[id]? = some (.drawn (importWith specifiers source))) :
    ∃ child, built.tree.child? id "source" = some child ∧
      sketch.origins[child]? = some (.drawn source) := by
  have hfields := (hbuilt.depicts id _ horigin).fields
  rw [importWith_eq] at hfields
  generalize hgiven : (built.tree.node id).toNodeDraft.fields = fields at hfields
  cases hfields with
  | drawn hfills =>
      rw [filter_isSlot_importPieces] at hfills
      obtain _ | ⟨hspecifiers, _ | ⟨hsource, _ | _⟩⟩ := hfills
      cases hspecifiers
      cases hsource with
      | child hchild =>
          refine ⟨_, ?_, hchild⟩
          rw [Tree.child?, Tree.slot?, Tree.fields, hgiven]
          rfl

variable (hbuilt : (importing imports).IsBuiltAs built)

include hbuilt

theorem forall₂_literals : List.Forall₂
    (fun id item => (importing imports).origins[id]? = some (.drawn item.literal))
    (built.tree.ids.filter (built.tree.is · .literal)) imports := by
  have hkind := hbuilt.forall₂_ofKind .literal
  rwa [literals_importing, List.forall₂_map_right_iff] at hkind

theorem forall₂_declarations : List.Forall₂
    (fun id item => (importing imports).origins[id]? = some (.drawn item.sketch))
    (built.tree.ids.filter (built.tree.is · .importDeclaration)) imports := by
  have hkind := hbuilt.forall₂_ofKind .importDeclaration
  rwa [declarations_importing, List.forall₂_map_right_iff] at hkind

/-- There are as many literals as declarations, and no two of these share their source, so each
literal is the source of a declaration. -/
theorem perm_literals :
    ((built.tree.ids.filter (built.tree.is · .importDeclaration)).filterMap
      (built.tree.child? · "source")).Perm (built.tree.ids.filter (built.tree.is · .literal)) := by
  have hdeclarations := forall₂_declarations hbuilt
  have hsource : ∀ declaration ∈ built.tree.ids.filter (built.tree.is · .importDeclaration),
      ∃ child, built.tree.child? declaration "source" = some child ∧
        child ∈ built.tree.ids.filter (built.tree.is · .literal) := by
    intro declaration hmem
    obtain ⟨item, hitem⟩ := exists_forall₂_iff.mp ⟨imports, hdeclarations⟩ declaration hmem
    obtain ⟨child, hchild, hliteral⟩ := hbuilt.exists_child_source hitem
    have hkind : built.tree.kind child = .literal := (hbuilt.depicts child _ hliteral).kind_eq
    have hid : child < built.tree.size := hbuilt.isBuilt.lt_of_parent?
      (hbuilt.isBuilt.parent?_of_child? hchild)
    exact ⟨child, hchild, List.mem_filter.mpr ⟨List.mem_range.mpr hid, beq_iff_eq.mpr hkind⟩⟩
  have hnodup : ((built.tree.ids.filter (built.tree.is · .importDeclaration)).filterMap
      (built.tree.child? · "source")).Nodup := by
    apply (List.nodup_range.filter _).filterMap
    intro declaration other child hchild hother
    exact Option.some.inj ((hbuilt.isBuilt.parent?_of_child? hchild).symm.trans
      (hbuilt.isBuilt.parent?_of_child? hother))
  refine (List.subperm_of_subset hnodup fun child hmem => ?_).perm_of_length_le (Nat.le_of_eq ?_)
  · obtain ⟨declaration, hdeclaration, hchild⟩ := List.mem_filterMap.mp hmem
    obtain ⟨literal, hliteral, hmem⟩ := hsource declaration hdeclaration
    rwa [Option.some.inj (hchild.symm.trans hliteral)]
  · have hall : ∀ declaration ∈ built.tree.ids.filter (built.tree.is · .importDeclaration),
        (built.tree.child? declaration "source").isSome := by
      intro declaration hmem
      obtain ⟨child, hchild, -⟩ := hsource declaration hmem
      exact Option.isSome_iff_exists.mpr ⟨child, hchild⟩
    rw [List.filterMap_length_eq_length.mpr hall, hdeclarations.length_eq,
      (forall₂_literals hbuilt).length_eq]

theorem importSources_eq :
    built.tree.importSources = built.tree.ids.filter (built.tree.is · .literal) := by
  apply List.filter_congr
  intro id hid
  have hmem := (perm_literals hbuilt).mem_iff (a := id)
  rw [List.mem_filter, List.mem_filterMap, and_iff_right hid] at hmem
  rw [Bool.eq_iff_iff, ← hmem, Tree.isImportSource]
  simp only [Option.any_eq_true, Bool.and_eq_true, beq_iff_eq, List.mem_filter]
  constructor
  · rintro ⟨declaration, hparent, hkind, hchild⟩
    exact ⟨declaration, ⟨List.mem_range.mpr (hbuilt.isBuilt.parent?_lt hparent), hkind⟩, hchild⟩
  · rintro ⟨declaration, ⟨-, hkind⟩, hchild⟩
    exact ⟨declaration, hbuilt.isBuilt.parent?_of_child? hchild, hkind, hchild⟩

/-- The sources stand for the literals of the imports, one for each. -/
theorem forall₂_importSources : List.Forall₂
    (fun item id => (importing imports).origins[id]? = some (.drawn item.literal))
    imports built.tree.importSources := by
  rw [importSources_eq hbuilt]
  exact (forall₂_literals hbuilt).flip

end Built

/-! ## Settled sources -/

section Settled

variable {word path : List Char} {quote : Char}

/-- A letter that a word does not have can follow a text without making it begin with the word. -/
theorem isPrefixOf_append_singleton (hquote : quote ∉ word) :
    word.isPrefixOf (path ++ [quote]) = word.isPrefixOf path := by
  rw [Bool.eq_iff_iff, List.isPrefixOf_iff_prefix, List.isPrefixOf_iff_prefix,
    List.prefix_concat_iff, or_iff_right]
  rintro rfl
  exact hquote (List.mem_append_right _ List.mem_cons_self)

/-- The public location can be read off a path with the closing quote. -/
theorem publicLocation_append_quote (quote : Quote) (path : List Char) :
    Rules.publicLocation (path ++ [quote.char]) = Rules.publicLocation path := by
  have hlower : quote.char.toLower = quote.char := by cases quote <;> rfl
  have hajax : quote.char ∉ "rxjs/internal/ajax".toList := by cases quote <;> decide
  have hoperators : quote.char ∉ "rxjs/internal/operators".toList := by cases quote <;> decide
  have htesting : quote.char ∉ "rxjs/internal/testing".toList := by cases quote <;> decide
  have hwebsocket : quote.char ∉ "rxjs/internal/websocket".toList := by cases quote <;> decide
  rw [Rules.publicLocation, Rules.publicLocation]
  simp only [List.map_append, List.map_singleton, hlower, isPrefixOf_append_singleton hajax,
    isPrefixOf_append_singleton hoperators, isPrefixOf_append_singleton htesting,
    isPrefixOf_append_singleton hwebsocket]

theorem not_isPrefixOf_publicLocation (path : List Char) :
    "rxjs/internal".toList.isPrefixOf (Rules.publicLocation path).toList = false := by
  simp only [Rules.publicLocation]
  repeat' split
  all_goals rfl

namespace Import

theorem source_literal (item : Import) :
    item.literal.source = item.quote.char :: (item.location.toList ++ [item.quote.char]) := by
  simp [literal, quoted, labelled, attr, Sketch.text, append, empty, Sketch.source,
    sourceOfPieces, sourceOfPiece]

theorem isLeaf_literal (item : Import) : item.literal.IsLeaf where
  noSlots := rfl
  source_ne := by
    rw [source_literal]
    exact List.cons_ne_nil _ _

theorem isInternal_settled (item : Import) : item.settled.isInternal = false := by
  rw [settled]
  split
  next => exact not_isPrefixOf_publicLocation _
  next hplain => exact Bool.eq_false_iff.mpr hplain

/-- The text of an internal source leads to that of the settled one. -/
theorem publicLiteral?_source {item : Import} (hinternal : item.isInternal = true) :
    Rules.publicLiteral? (String.ofList item.literal.source) =
      some (String.ofList item.settled.literal.source) := by
  have hquote : item.quote.char = '\'' ∨ item.quote.char = '"' := by
    cases item.quote
    · exact .inl rfl
    · exact .inr rfl
  have htrim : Text.trimStart item.literal.source = item.literal.source := by
    rw [source_literal]
    cases item.quote <;> rfl
  rw [Rules.publicLiteral?, String.toList_ofList, htrim, source_literal]
  simp only [hquote, if_true, publicLocation_append_quote, settled, hinternal, source_literal,
    Option.some_inj, ← String.toList_inj, String.toList_append, String.toList_ofList]
  simp

end Import

/-- The text for a literal that has an internal location. -/
def settledText? (part : Sketch) : Option String :=
  if part.kind == .literal && "rxjs/internal".toList.isPrefixOf part.source.tail then
    Rules.publicLiteral? (String.ofList part.source)
  else none

theorem settledText?_literal (item : Import) :
    settledText? item.literal =
      if item.isInternal then some (String.ofList item.settled.literal.source) else none := by
  have hquote : item.quote.char ∉ "rxjs/internal".toList := by cases item.quote <;> decide
  have hkind : item.literal.kind = .literal := rfl
  have hinternal : "rxjs/internal".toList.isPrefixOf item.literal.source.tail =
      item.isInternal := by
    rw [item.source_literal, List.tail_cons, isPrefixOf_append_singleton hquote, Import.isInternal]
  rw [settledText?, hkind, hinternal, beq_self_eq_true, Bool.true_and]
  split
  next htrue => exact Import.publicLiteral?_source htrue
  next => rfl

theorem settledText?_of_kind_ne {part : Sketch} (hkind : part.kind ≠ .literal) :
    settledText? part = none := by
  rw [settledText?, beq_false_of_ne hkind]
  rfl

theorem givesLeaves_settledText? (imports : List Import) :
    GivesLeaves settledText? (importing imports) := by
  intro part text hmem hgive
  have hkind : part.kind = .literal := by
    by_contra hkind
    rw [settledText?_of_kind_ne hkind] at hgive
    cases hgive
  have hliteral : Origin.drawn part ∈ (importing imports).origins.filter (·.kind == .literal) :=
    List.mem_filter.mpr ⟨hmem, beq_iff_eq.mpr hkind⟩
  rw [literals_importing, List.mem_map] at hliteral
  obtain ⟨item, -, hitem⟩ := hliteral
  obtain rfl := Origin.drawn.inj hitem
  exact item.isLeaf_literal

theorem Specifier.rewritten_sketch (specifier : Specifier) :
    specifier.sketch.rewritten settledText? = specifier.sketch := by
  cases specifier <;> rfl

theorem rewrittenPieces_importPieces {give : Sketch → Option String} {specifiers : List Sketch}
    (hspecifiers : rewrittenItems give specifiers = specifiers) (source : Sketch) :
    rewrittenPieces give (importPieces specifiers source) =
      importPieces specifiers (source.rewritten give) := by
  rw [importPieces, importPieces, importHead]
  split <;> simp [rewrittenPieces, rewrittenPiece, hspecifiers]

theorem Import.rewritten_sketch (item : Import) :
    item.sketch.rewritten settledText? =
      importWith (item.specifiers.map Specifier.sketch) (item.literal.rewritten settledText?) := by
  have hspecifiers : rewrittenItems settledText? (item.specifiers.map Specifier.sketch) =
      item.specifiers.map Specifier.sketch := by
    rw [rewrittenItems_eq_map, List.map_map]
    exact List.map_congr_left fun specifier _ => specifier.rewritten_sketch
  have hkind : item.sketch.kind ≠ .literal := by
    rw [item.kind_sketch]
    decide
  have hnone := settledText?_of_kind_ne hkind
  rw [sketch, importWith_eq] at hnone ⊢
  rw [rewritten_of_none hnone, rewrittenPieces_importPieces hspecifiers, importWith_eq]

theorem Import.source_rewritten_literal (item : Import) :
    (item.literal.rewritten settledText?).source = item.settled.literal.source := by
  have hgive := settledText?_literal item
  obtain ⟨raw, attributes, hliteral⟩ : ∃ raw attributes,
      item.literal = node .literal [.text raw] attributes none none := ⟨_, _, rfl⟩
  cases hinternal : item.isInternal with
  | false =>
      rw [hinternal, if_neg Bool.false_ne_true, hliteral] at hgive
      have hsettled : item.settled = item := by
        rw [settled, hinternal]
        rfl
      rw [hsettled, hliteral, rewritten_of_none hgive]
      rfl
  | true =>
      rw [hinternal, if_pos rfl, hliteral] at hgive
      rw [hliteral, rewritten, hgive]
      simp [Sketch.source, sourceOfPieces, sourceOfPiece]

theorem source_importWith_congr {specifiers : List Sketch} {source other : Sketch}
    (hsource : source.source = other.source) :
    (importWith specifiers source).source = (importWith specifiers other).source := by
  rw [importWith_eq, importWith_eq, Sketch.source, Sketch.source, importPieces, importPieces,
    importHead]
  split <;> simp [sourceOfPieces, sourceOfPiece, hsource]

theorem sourceOfItems_map_congr {A : Type*} {separator : List Char} {left right : A → Sketch}
    (hsource : ∀ item, (left item).source = (right item).source) (items : List A) :
    sourceOfItems separator (items.map left) = sourceOfItems separator (items.map right) := by
  induction items with
  | nil => rfl
  | cons item items ih =>
      cases items with
      | nil => exact hsource item
      | cons next items =>
          simp only [List.map_cons, sourceOfItems, hsource] at ih ⊢
          rw [ih]

/-- Rewriting the sources makes the text of the settled imports. -/
theorem source_rewritten_importing (imports : List Import) :
    ((importing imports).rewritten settledText?).source =
      (importing (imports.map Import.settled)).source := by
  have hnone : settledText? (importing imports) = none := settledText?_of_kind_ne nofun
  have hitem : ∀ item : Import, (item.sketch.rewritten settledText?).source =
      item.settled.sketch.source := by
    intro item
    have hspecifiers : item.settled.specifiers = item.specifiers := by
      rw [Import.settled]
      split <;> rfl
    rw [item.rewritten_sketch, Import.sketch, hspecifiers]
    exact source_importWith_congr item.source_rewritten_literal
  rw [importing_eq] at hnone
  rw [importing_eq, importing_eq, rewritten_of_none hnone]
  simp only [rewrittenPieces, rewrittenPiece, rewrittenItems_eq_map, List.map_map, Sketch.source,
    sourceOfPieces, sourceOfPiece]
  exact congrArg (· ++ []) (sourceOfItems_map_congr hitem imports)

end Settled

end Sketch

end ReactiveLint
