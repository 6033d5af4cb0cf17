import ReactiveLint.Proofs.Data.Lookup
import ReactiveLint.Proofs.Order.StableSort
import ReactiveLint.Proofs.Scope.Declarations

/-!
# What names refer to

An identifier refers to the declaration of its name in the nearest scope around it that
declares the name, and to the first one there.  The tables of the analysis say this of
all identifiers of a built tree, and list under each declaration what refers to it.
-/

namespace ReactiveLint

namespace Tree

variable {tree : Tree} {id node scope identifier : NodeId} {name : String}
  {declaration : Declaration}

/-- An identifier that a node declares. -/
def IsDeclared (tree : Tree) (identifier : NodeId) : Prop :=
  (tree.name? identifier).isSome ∧
    ∃ node declaration, tree.Declares node declaration ∧ declaration.identifier = identifier

/-- A declaration of a name in a scope. -/
def IsOf (tree : Tree) (scope : NodeId) (name : String) (declaration : Declaration) : Prop :=
  declaration.scope = scope ∧ tree.name? declaration.identifier = some name

instance : DecidablePred (tree.IsOf scope name) := fun _ =>
  inferInstanceAs (Decidable (_ ∧ _))

/-- A node that opens a scope and is the scope of a declaration of a name. -/
def Knows (tree : Tree) (name : String) (scope : NodeId) : Prop :=
  tree.opensScope scope ∧ ∃ node declaration, tree.Declares node declaration ∧
    tree.IsOf scope name declaration

/-- The first declaration of a name in a scope, in the order of the arena and of the names
that one node declares. -/
def IsFirst (tree : Tree) (scope : NodeId) (name : String) (identifier : NodeId) : Prop :=
  ∃ node < tree.size, ∃ earlier declaration later,
    tree.declarationsAt node = earlier ++ declaration :: later ∧
      declaration.identifier = identifier ∧ tree.IsOf scope name declaration ∧
      (∀ other ∈ earlier, ¬ tree.IsOf scope name other) ∧
      ∀ before < node, ∀ other, tree.Declares before other → ¬ tree.IsOf scope name other

end Tree

namespace Scopes

open ReactiveLint.Tree

variable {tree : Tree} {id scope target : NodeId} {name : String}

/-! ## The first declaration in a scope -/

theorem declared?_eq (tree : Tree) (scope : NodeId) (name : String) :
    declared? tree tree.declarations scope name =
      (tree.ids.findSome? fun id =>
        (tree.declarationsAt id).find? fun declaration => decide (tree.IsOf scope name declaration)).map
          (·.identifier) := by
  rw [declared?, declarations, List.find?_filter, ← List.find?_flatMap]
  congr 2
  funext declaration
  have hnamed : tree.IsOf scope name declaration →
      (tree.name? declaration.identifier).isSome := fun hof => by rw [hof.2, Option.isSome_some]
  rw [Bool.eq_iff_iff, decide_eq_true_eq, decide_eq_true_eq, Bool.and_eq_true, beq_iff_eq,
    beq_iff_eq]
  exact ⟨And.right, fun hof => ⟨hnamed hof, hof⟩⟩

section Built

variable (hbuilt : tree.IsBuilt)

include hbuilt

theorem declared?_isSome_iff :
    (declared? tree tree.declarations scope name).isSome ↔
      ∃ node declaration, tree.Declares node declaration ∧ tree.IsOf scope name declaration := by
  rw [declared?_eq, Option.isSome_map, List.findSome?_isSome_iff]
  constructor
  · rintro ⟨node, hnode, hfind⟩
    obtain ⟨declaration, hmem, hof⟩ := List.find?_isSome.mp hfind
    have hdeclares := (hbuilt.mem_declarationsAt_iff (List.mem_range.mp hnode)).mp hmem
    exact ⟨node, declaration, hdeclares, of_decide_eq_true hof⟩
  · rintro ⟨node, declaration, hdeclares, hof⟩
    have hnode := hdeclares.lt_size hbuilt
    refine ⟨node, List.mem_range.mpr hnode, List.find?_isSome.mpr ?_⟩
    exact ⟨declaration, (hbuilt.mem_declarationsAt_iff hnode).mpr hdeclares, decide_eq_true hof⟩

theorem isFirst_of_declared? (hdeclared : declared? tree tree.declarations scope name = some target) :
    tree.IsFirst scope name target := by
  rw [declared?_eq, Option.map_eq_some_iff] at hdeclared
  obtain ⟨declaration, hfind, rfl⟩ := hdeclared
  obtain ⟨prior, node, after, hsplit, hfind, hprior⟩ := List.findSome?_eq_some_iff.mp hfind
  obtain ⟨hof, earlier, later, hlist, hearlier⟩ := List.find?_eq_some_iff_append.mp hfind
  have hnode : node < tree.size := List.mem_range.mp (show node ∈ tree.ids by simp [hsplit])
  refine ⟨node, hnode, earlier, declaration, later, hlist, rfl, of_decide_eq_true hof, ?_, ?_⟩
  · simpa using hearlier
  · intro before hbefore other hdeclares hother
    have hnode : before ∈ tree.ids := List.mem_range.mpr (hdeclares.lt_size hbuilt)
    have hmem := (hbuilt.mem_declarationsAt_iff (hdeclares.lt_size hbuilt)).mpr hdeclares
    -- a node of a smaller number stands before in the arena
    have hpairwise : tree.ids.Pairwise (· < ·) := List.pairwise_lt_range
    rw [hsplit] at hnode hpairwise
    rcases List.mem_append.mp hnode with hnode | hnode
    · have hnone := List.find?_eq_none.mp (hprior before hnode) other hmem
      exact hnone (decide_eq_true hother)
    · rcases List.mem_cons.mp hnode with rfl | hnode
      · exact Nat.lt_irrefl _ hbefore
      · have hafter := (List.pairwise_append.mp hpairwise).2.1
        have hlt := (List.pairwise_cons.mp hafter).1 before hnode
        exact Nat.lt_asymm hbefore hlt

end Built

/-! ## The nearest scope -/

theorem exists_find?_of_findSome?_filter {A B : Type*} {value? : A → Option B} {keep : A → Bool} {b : B}
    {items : List A} (hfind : (items.filter keep).findSome? value? = some b) :
    ∃ a, items.find? (fun a => keep a && (value? a).isSome) = some a ∧ value? a = some b := by
  induction items with
  | nil => simp at hfind
  | cons a items ih =>
      rw [List.find?_cons]
      rw [List.filter_cons] at hfind
      cases hkeep : keep a with
      | false => simpa [hkeep] using ih (by simpa [hkeep] using hfind)
      | true =>
          cases hvalue : value? a with
          | none => simpa using ih (by simpa [hkeep, hvalue] using hfind)
          | some found => exact ⟨a, by simp, by simpa [hkeep, hvalue] using hfind⟩

section Built

variable (hbuilt : tree.IsBuilt)

include hbuilt

theorem knows_iff :
    tree.Knows name scope ↔ tree.opensScope scope = true ∧
      (declared? tree tree.declarations scope name).isSome = true := by
  rw [declared?_isSome_iff hbuilt, Knows]

theorem lookup?_isSome_iff (hid : id < tree.size) :
    (lookup? tree tree.declarations id).isSome ↔ ∃ name scope,
      tree.name? id = some name ∧ tree.Above id scope ∧ tree.Knows name scope := by
  rw [lookup?]
  cases hname : tree.name? id with
  | none => simp
  | some name =>
      simp only [Option.bind_eq_bind, Option.bind_some, List.findSome?_isSome_iff, scopesAround,
        List.mem_filter, hbuilt.mem_ancestors_iff hid, and_assoc, ← knows_iff hbuilt,
        Option.some.injEq]
      constructor
      · rintro ⟨scope, habove, hknows⟩
        exact ⟨name, scope, rfl, habove, hknows⟩
      · rintro ⟨_, scope, rfl, habove, hknows⟩
        exact ⟨scope, habove, hknows⟩

theorem isNearest_of_lookup? (hid : id < tree.size)
    (hlookup : lookup? tree tree.declarations id = some target) :
    ∃ name scope, tree.name? id = some name ∧ tree.IsNearest (tree.Knows name) id scope ∧
      tree.IsFirst scope name target := by
  rw [lookup?] at hlookup
  obtain ⟨name, hname, hlookup⟩ := Option.bind_eq_some_iff.mp hlookup
  obtain ⟨scope, hfind, hdeclared⟩ := exists_find?_of_findSome?_filter hlookup
  have hnearest := (hbuilt.find?_ancestors_eq_some_iff hid).mp hfind
  simp only [Bool.and_eq_true, ← knows_iff hbuilt] at hnearest
  exact ⟨name, scope, hname, hnearest, isFirst_of_declared? hbuilt hdeclared⟩

end Built

/-! ## The tables -/

/-- What an identifier that the tree does not declare refers to. -/
def target? (tree : Tree) (id : NodeId) : Option NodeId :=
  if tree.is id .identifier && !(tree.declarations.any (·.identifier == id)) &&
      tree.isReference id then
    lookup? tree tree.declarations id
  else none

theorem resolvedUses_eq (tree : Tree) :
    resolvedUses tree tree.declarations =
      tree.ids.filterMap fun id => (target? tree id).map (id, ·) := by
  rw [resolvedUses]
  congr 1
  funext id
  rw [target?]
  split <;> rfl

theorem resolve?_analyze (tree : Tree) (id : NodeId) :
    (analyze tree).resolve? id =
      if tree.declarations.any (·.identifier == id) then some id
      else if tree.ids.contains id then target? tree id else none := by
  rw [resolve?, analyze, List.lookup_append, resolvedUses_eq, lookup_filterMap_key,
    lookup_map_key Declaration.identifier (fun id => id)]
  split <;> rfl

section Built

variable (hbuilt : tree.IsBuilt)

include hbuilt

theorem any_declarations_iff :
    tree.declarations.any (·.identifier == id) = true ↔ tree.IsDeclared id := by
  simp only [List.any_eq_true, beq_iff_eq, hbuilt.mem_declarations_iff, IsDeclared]
  constructor
  · rintro ⟨declaration, ⟨⟨node, hdeclares⟩, hnamed⟩, rfl⟩
    exact ⟨hnamed, node, declaration, hdeclares, rfl⟩
  · rintro ⟨hnamed, node, declaration, hdeclares, rfl⟩
    exact ⟨declaration, ⟨⟨node, hdeclares⟩, hnamed⟩, rfl⟩

theorem resolve?_of_isDeclared (hdeclared : tree.IsDeclared id) :
    (analyze tree).resolve? id = some id := by
  rw [resolve?_analyze, if_pos ((any_declarations_iff hbuilt).mpr hdeclared)]

theorem target?_eq_some_iff :
    target? tree id = some target ↔
      (tree.kind id = .identifier ∧ ¬ tree.IsDeclared id ∧ tree.isReference id) ∧
        lookup? tree tree.declarations id = some target := by
  rw [target?, ← any_declarations_iff hbuilt]
  simp [is, and_assoc]

theorem resolve?_eq_some_iff (hdeclared : ¬ tree.IsDeclared id) :
    (analyze tree).resolve? id = some target ↔ id < tree.size ∧ target? tree id = some target := by
  rw [← any_declarations_iff hbuilt] at hdeclared
  rw [resolve?_analyze, if_neg hdeclared]
  simp [ids, size]

/-- What a name refers to is declared with that name. -/
theorem isDeclared_of_isFirst (hfirst : tree.IsFirst scope name target) :
    tree.IsDeclared target ∧ tree.name? target = some name := by
  obtain ⟨node, hnode, earlier, declaration, later, hlist, rfl, hof, -, -⟩ := hfirst
  have hmem : declaration ∈ tree.declarationsAt node := by simp [hlist]
  refine ⟨⟨by rw [hof.2, Option.isSome_some], node, declaration, ?_, rfl⟩, hof.2⟩
  exact (hbuilt.mem_declarationsAt_iff hnode).mp hmem

theorem isDeclared_of_target? (hid : id < tree.size) (htarget : target? tree id = some target) :
    tree.IsDeclared target ∧ tree.name? target = tree.name? id := by
  have hlookup := ((target?_eq_some_iff hbuilt).mp htarget).2
  obtain ⟨name, scope, hname, -, hfirst⟩ := isNearest_of_lookup? hbuilt hid hlookup
  obtain ⟨hdeclared, htarget⟩ := isDeclared_of_isFirst hbuilt hfirst
  exact ⟨hdeclared, htarget.trans hname.symm⟩

/-- Whatever an identifier resolves to is declared, with its name. -/
theorem isDeclared_of_resolve? (hresolve : (analyze tree).resolve? id = some target) :
    tree.IsDeclared target ∧ tree.name? target = tree.name? id := by
  by_cases hdeclared : tree.IsDeclared id
  · obtain rfl : id = target :=
      Option.some.inj ((resolve?_of_isDeclared hbuilt hdeclared).symm.trans hresolve)
    exact ⟨hdeclared, rfl⟩
  · obtain ⟨hid, htarget⟩ := (resolve?_eq_some_iff hbuilt hdeclared).mp hresolve
    exact isDeclared_of_target? hbuilt hid htarget

/-! ## References -/

theorem references_analyze (target : NodeId) :
    (analyze tree).references target =
      StableSort.sort (fun left right => decide (tree.start left ≤ tree.start right))
        (tree.ids.filter fun use => target? tree use == some target) := by
  rw [references, analyze,
    lookup_map_key Declaration.identifier (usesOf tree (resolvedUses tree tree.declarations)),
    usesOf, resolvedUses_eq, map_fst_filter_filterMap]
  split
  next => rfl
  next hundeclared =>
    have hunused : (tree.ids.filter fun use => target? tree use == some target) = [] := by
      rw [List.filter_eq_nil_iff]
      intro use huse htarget
      have hdeclared := isDeclared_of_target? hbuilt (List.mem_range.mp huse) (eq_of_beq htarget)
      exact hundeclared ((any_declarations_iff hbuilt).mpr hdeclared.1)
    rw [hunused]
    rfl

theorem mem_references_iff {use : NodeId} :
    use ∈ (analyze tree).references target ↔
      ¬ tree.IsDeclared use ∧ (analyze tree).resolve? use = some target := by
  rw [references_analyze hbuilt, (StableSort.perm_sort _ _).mem_iff, List.mem_filter, beq_iff_eq,
    ids, List.mem_range]
  constructor
  · rintro ⟨hid, htarget⟩
    have hdeclared := ((target?_eq_some_iff hbuilt).mp htarget).1.2.1
    exact ⟨hdeclared, (resolve?_eq_some_iff hbuilt hdeclared).mpr ⟨hid, htarget⟩⟩
  · rintro ⟨hdeclared, hresolve⟩
    exact (resolve?_eq_some_iff hbuilt hdeclared).mp hresolve

theorem pairwise_references (target : NodeId) :
    ((analyze tree).references target).Pairwise fun left right =>
      tree.start left < tree.start right ∨ tree.start left = tree.start right ∧ left < right := by
  have hnodup : (tree.ids.filter fun use => target? tree use == some target).Nodup :=
    List.nodup_range.filter _
  rw [references_analyze hbuilt]
  apply (StableSort.pairwise_sort_key tree.start hnodup).imp
  intro left right horder
  refine horder.imp id fun ⟨hstart, hpair⟩ => ⟨hstart, ?_⟩
  have hrange : [left, right].Sublist (List.range tree.size) := hpair.trans List.filter_sublist
  exact List.pairwise_iff_forall_sublist.mp List.pairwise_lt_range hrange

theorem nodup_references (target : NodeId) : ((analyze tree).references target).Nodup := by
  apply (pairwise_references hbuilt target).imp
  rintro left right horder rfl
  simp at horder

end Built

/-- Tables that say of every identifier of a tree what it refers to. -/
structure IsResolution (tree : Tree) (scopes : Scopes) : Prop where
  declared : ∀ id, tree.IsDeclared id → scopes.resolve? id = some id
  /-- A use refers to something exactly when a scope around it knows its name. -/
  resolves_iff : ∀ id < tree.size, tree.kind id = .identifier → ¬ tree.IsDeclared id →
    ((scopes.resolve? id).isSome ↔ tree.isReference id ∧ ∃ name scope,
      tree.name? id = some name ∧ tree.Above id scope ∧ tree.Knows name scope)
  /-- It refers to the first declaration in the nearest of these scopes. -/
  resolves_to : ∀ id target, ¬ tree.IsDeclared id → scopes.resolve? id = some target →
    (id < tree.size ∧ tree.kind id = .identifier) ∧ ∃ name scope, tree.name? id = some name ∧
      tree.IsNearest (tree.Knows name) id scope ∧ tree.IsFirst scope name target
  idempotent : ∀ id target, scopes.resolve? id = some target →
    scopes.resolve? target = some target
  name_eq : ∀ id target, scopes.resolve? id = some target → tree.name? target = tree.name? id
  mem_references_iff : ∀ target use, use ∈ scopes.references target ↔
    ¬ tree.IsDeclared use ∧ scopes.resolve? use = some target
  references_nodup : ∀ target, (scopes.references target).Nodup
  /-- The references stand in the order of the text. -/
  references_ordered : ∀ target, (scopes.references target).Pairwise fun left right =>
    tree.start left < tree.start right ∨ tree.start left = tree.start right ∧ left < right
  references_disjoint : ∀ first second, first ≠ second →
    (scopes.references first).Disjoint (scopes.references second)

theorem isResolution_of_isBuilt (hbuilt : tree.IsBuilt) : (analyze tree).IsResolution tree := by
  refine ⟨fun id => resolve?_of_isDeclared hbuilt, ?_, ?_, ?_, ?_, ?_, nodup_references hbuilt,
    pairwise_references hbuilt, ?_⟩
  · intro id hid hkind hdeclared
    rw [← lookup?_isSome_iff hbuilt hid]
    simp only [Option.isSome_iff_exists, resolve?_eq_some_iff hbuilt hdeclared,
      target?_eq_some_iff hbuilt, hid, hkind, hdeclared, true_and, not_false_eq_true,
      exists_and_left]
  · intro id target hdeclared hresolve
    obtain ⟨hid, htarget⟩ := (resolve?_eq_some_iff hbuilt hdeclared).mp hresolve
    obtain ⟨⟨hkind, -, -⟩, hlookup⟩ := (target?_eq_some_iff hbuilt).mp htarget
    exact ⟨⟨hid, hkind⟩, isNearest_of_lookup? hbuilt hid hlookup⟩
  · intro id target hresolve
    exact resolve?_of_isDeclared hbuilt (isDeclared_of_resolve? hbuilt hresolve).1
  · intro id target hresolve
    exact (isDeclared_of_resolve? hbuilt hresolve).2
  · intro target use
    exact mem_references_iff hbuilt
  · intro first second hne use hfirst hsecond
    have hfirst := ((mem_references_iff hbuilt).mp hfirst).2
    have hsecond := ((mem_references_iff hbuilt).mp hsecond).2
    exact hne (Option.some.inj (hfirst.symm.trans hsecond))

/-- The analysis of a built tree resolves its identifiers. -/
theorem isResolution_analyze {drafts : List NodeDraft} {root : NodeId} {source : String}
    (hbuild : build? drafts root source = .ok tree) : (analyze tree).IsResolution tree :=
  isResolution_of_isBuilt (isBuilt_of_build? hbuild)

/-- `let a; (a => a)(a)`, with a parameter that takes the name over. -/
def shadowArena : List NodeDraft :=
  [ ⟨.identifier, ⟨4, 5⟩, [("name", .value (.text "a"))]⟩
  , ⟨.variableDeclarator, ⟨4, 5⟩, [("id", .node 0)]⟩
  , ⟨.variableDeclaration, ⟨0, 6⟩,
      [("declarations", .list [some 1]), ("kind", .value (.text "let"))]⟩
  , ⟨.identifier, ⟨8, 9⟩, [("name", .value (.text "a"))]⟩
  , ⟨.identifier, ⟨13, 14⟩, [("name", .value (.text "a"))]⟩
  , ⟨.arrowFunctionExpression, ⟨8, 14⟩, [("body", .node 4), ("params", .list [some 3])]⟩
  , ⟨.identifier, ⟨16, 17⟩, [("name", .value (.text "a"))]⟩
  , ⟨.callExpression, ⟨7, 18⟩, [("arguments", .list [some 6]), ("callee", .node 5)]⟩
  , ⟨.expressionStatement, ⟨7, 18⟩, [("expression", .node 7)]⟩
  , ⟨.program, ⟨0, 18⟩, [("body", .list [some 2, some 8])]⟩ ]

theorem isResolution_shadowArena :
    ∃ tree, build? shadowArena 9 "let a; (a => a)(a)" = .ok tree ∧
      (analyze tree).IsResolution tree ∧
      (analyze tree).references 0 = [6] ∧ (analyze tree).references 3 = [4] := by
  have hbuild : build? shadowArena 9 "let a; (a => a)(a)" = .ok _ := rfl
  exact ⟨_, hbuild, isResolution_analyze hbuild, by decide, by decide⟩

end Scopes

end ReactiveLint
