import ReactiveLint.Proofs.Syntax.Nearest
import ReactiveLint.Scope.Analysis

/-!
# What a tree declares

The names of a pattern and the declarations of a node, one constructor for each form of
the syntax, and the lists that the analysis makes of them.  A pattern in a built tree is
not nested more deeply than the tree has nodes, so that no name is missed.
-/

namespace ReactiveLint.Tree

variable {tree : Tree} {id pattern name scope : NodeId} {declaration : Declaration}

/-- An identifier that a pattern binds. -/
inductive Binds (tree : Tree) : NodeId → NodeId → Prop
  | identifier {id : NodeId} (hkind : tree.kind id = .identifier) : Binds tree id id
  /-- `{ key: value }` binds the names of the value. -/
  | value {pattern property value name : NodeId} (hkind : tree.kind pattern = .objectPattern)
      (hproperty : property ∈ (tree.list pattern "properties").ids)
      (hvalued : tree.kind property = .property)
      (hvalue : tree.child? property "value" = some value) (hbinds : Binds tree value name) :
      Binds tree pattern name
  | rest {pattern property name : NodeId} (hkind : tree.kind pattern = .objectPattern)
      (hproperty : property ∈ (tree.list pattern "properties").ids)
      (hvalued : tree.kind property ≠ .property) (hbinds : Binds tree property name) :
      Binds tree pattern name
  | element {pattern element name : NodeId} (hkind : tree.kind pattern = .arrayPattern)
      (helement : element ∈ (tree.list pattern "elements").ids)
      (hbinds : Binds tree element name) : Binds tree pattern name
  | default {pattern left name : NodeId} (hkind : tree.kind pattern = .assignmentPattern)
      (hleft : tree.child? pattern "left" = some left) (hbinds : Binds tree left name) :
      Binds tree pattern name
  | argument {pattern argument name : NodeId} (hkind : tree.kind pattern = .restElement)
      (hargument : tree.child? pattern "argument" = some argument)
      (hbinds : Binds tree argument name) : Binds tree pattern name
  | parameterProperty {pattern parameter name : NodeId}
      (hkind : tree.kind pattern = .tsParameterProperty)
      (hparameter : tree.child? pattern "parameter" = some parameter)
      (hbinds : Binds tree parameter name) : Binds tree pattern name

/-- The scope of the names of a declaration list. -/
def IsVariableScope (tree : Tree) (id scope : NodeId) : Prop :=
  if tree.variableKind id = .varName then
    tree.IsNearest (fun around => tree.isFunction around ∨ tree.kind around = .program) id scope
  else tree.IsNearest (fun around => tree.opensScope around) id scope

/-- The kinds of nodes that bind parameters. -/
def parameterOwners : List Kind :=
  [.functionDeclaration, .tsDeclareFunction, .functionExpression, .arrowFunctionExpression]

/-- The kinds of nodes that bind imported names. -/
def importOwners : List Kind :=
  [.importSpecifier, .importDefaultSpecifier, .importNamespaceSpecifier]

/-- A declaration that a node makes. -/
inductive Declares (tree : Tree) : NodeId → Declaration → Prop
  | declarator {id declarator pattern name scope : NodeId}
      (hkind : tree.kind id = .variableDeclaration)
      (hdeclarator : declarator ∈ (tree.list id "declarations").ids)
      (hpattern : tree.child? declarator "id" = some pattern) (hbinds : tree.Binds pattern name)
      (hscope : tree.IsVariableScope id scope) :
      Declares tree id ⟨name, scope, tree.variableKind id⟩
  | function {id name scope : NodeId}
      (hkind : tree.kind id = .functionDeclaration ∨ tree.kind id = .tsDeclareFunction)
      (hname : tree.child? id "id" = some name)
      (hscope : tree.IsNearest (fun around => tree.opensScope around) id scope) :
      Declares tree id ⟨name, scope, .functionName⟩
  /-- The name of a function expression is known inside it only. -/
  | functionExpression {id name : NodeId} (hkind : tree.kind id = .functionExpression)
      (hname : tree.child? id "id" = some name) : Declares tree id ⟨name, id, .functionName⟩
  | parameter {id pattern name : NodeId} (hkind : tree.kind id ∈ parameterOwners)
      (hpattern : pattern ∈ (tree.list id "params").ids) (hbinds : tree.Binds pattern name) :
      Declares tree id ⟨name, id, .parameter⟩
  | className {id name scope : NodeId}
      (hkind : tree.kind id = .classDeclaration ∨ tree.kind id = .classExpression)
      (hname : tree.child? id "id" = some name)
      (hscope : tree.IsNearest (fun around => tree.opensScope around) id scope) :
      Declares tree id ⟨name, scope, .className⟩
  | importName {id name : NodeId}
      (hkind : tree.kind id ∈ importOwners)
      (hname : tree.child? id "local" = some name) (hroot : id ≠ tree.root) :
      Declares tree id ⟨name, tree.root, .importName⟩
  | catchParameter {id pattern name : NodeId} (hkind : tree.kind id = .catchClause)
      (hpattern : tree.child? id "param" = some pattern) (hbinds : tree.Binds pattern name) :
      Declares tree id ⟨name, id, .catchParameter⟩

/-- Patterns bind identifiers only. -/
theorem Binds.kind_eq (hbinds : tree.Binds pattern name) : tree.kind name = .identifier := by
  induction hbinds with
  | identifier hkind => exact hkind
  | value _ _ _ _ _ ih | rest _ _ _ _ ih | element _ _ _ ih | default _ _ _ ih
  | argument _ _ _ ih | parameterProperty _ _ _ ih => exact ih

namespace IsBuilt

variable (hbuilt : tree.IsBuilt)

include hbuilt

/-- Fuel for as many nodes as there may be below a pattern finds all its names. -/
theorem mem_namesWithin_iff {fuel steps : Nat} (hfuel : tree.size ≤ steps + fuel)
    (hrises : Ancestry.Rises tree.parent? tree.root steps pattern) (hpattern : pattern < tree.size) :
    name ∈ tree.namesWithin fuel pattern ↔ tree.Binds pattern name := by
  induction fuel generalizing steps pattern with
  | zero =>
      have hlt := hrises.lt_size hbuilt.parent?_root (fun _ _ => hbuilt.parent?_lt) hpattern
      omega
  | succ fuel ih =>
      have hinner : ∀ {inner above : NodeId} {more : Nat}, tree.parent? inner = some above →
          Ancestry.Rises tree.parent? tree.root more above → steps ≤ more →
          (name ∈ tree.namesWithin fuel inner ↔ tree.Binds inner name) :=
        fun hparent hrises hle =>
          ih (by omega) (.step hparent hrises) (hbuilt.lt_of_parent? hparent)
      have hchild : ∀ {field : String} {inner : NodeId}, tree.child? pattern field = some inner →
          (name ∈ tree.namesWithin fuel inner ↔ tree.Binds inner name) := fun hchild =>
        hinner (hbuilt.parent?_of_child? hchild) hrises (Nat.le_refl _)
      constructor
      · intro hname
        rw [namesWithin] at hname
        simp only at hname
        split at hname
        next hkind =>
          obtain rfl := List.mem_singleton.mp hname
          exact .identifier hkind
        next hkind =>
          obtain ⟨property, hproperty, hname⟩ := List.mem_flatMap.mp hname
          have hparent := hbuilt.parent?_of_mem_list hproperty
          split at hname
          next hvalued =>
            obtain ⟨value, hvalue, hname⟩ := List.mem_flatMap.mp hname
            rw [Option.mem_toList] at hvalue
            exact .value hkind hproperty hvalued hvalue
              ((hinner (hbuilt.parent?_of_child? hvalue) (.step hparent hrises)
                (Nat.le_succ _)).mp hname)
          next hvalued =>
            exact .rest hkind hproperty hvalued
              ((hinner hparent hrises (Nat.le_refl _)).mp hname)
        next hkind =>
          obtain ⟨element, helement, hname⟩ := List.mem_flatMap.mp hname
          have hparent := hbuilt.parent?_of_mem_list helement
          exact .element hkind helement ((hinner hparent hrises (Nat.le_refl _)).mp hname)
        next hkind =>
          obtain ⟨left, hleft, hname⟩ := List.mem_flatMap.mp hname
          rw [Option.mem_toList] at hleft
          exact .default hkind hleft ((hchild hleft).mp hname)
        next hkind =>
          obtain ⟨argument, hargument, hname⟩ := List.mem_flatMap.mp hname
          rw [Option.mem_toList] at hargument
          exact .argument hkind hargument ((hchild hargument).mp hname)
        next hkind =>
          obtain ⟨parameter, hparameter, hname⟩ := List.mem_flatMap.mp hname
          rw [Option.mem_toList] at hparameter
          exact .parameterProperty hkind hparameter ((hchild hparameter).mp hname)
        next => exact absurd hname List.not_mem_nil
      · intro hbinds
        rw [namesWithin]
        cases hbinds with
        | identifier hkind => simp [hkind]
        | value hkind hproperty hvalued hvalue hbinds =>
            have hparent := hbuilt.parent?_of_mem_list hproperty
            have hname := (hinner (hbuilt.parent?_of_child? hvalue) (.step hparent hrises)
              (Nat.le_succ _)).mpr hbinds
            simp only [hkind, List.mem_flatMap]
            exact ⟨_, hproperty, by simpa [hvalued, hvalue] using hname⟩
        | rest hkind hproperty hvalued hbinds =>
            have hparent := hbuilt.parent?_of_mem_list hproperty
            have hname := (hinner hparent hrises (Nat.le_refl _)).mpr hbinds
            simp only [hkind, List.mem_flatMap]
            refine ⟨_, hproperty, ?_⟩
            split
            next hproperty' => exact absurd hproperty' hvalued
            next => exact hname
        | element hkind helement hbinds =>
            have hparent := hbuilt.parent?_of_mem_list helement
            have hname := (hinner hparent hrises (Nat.le_refl _)).mpr hbinds
            simp only [hkind, List.mem_flatMap]
            exact ⟨_, helement, hname⟩
        | default hkind hleft hbinds => simp [hkind, hleft, (hchild hleft).mpr hbinds]
        | argument hkind hargument hbinds =>
            simp [hkind, hargument, (hchild hargument).mpr hbinds]
        | parameterProperty hkind hparameter hbinds =>
            simp [hkind, hparameter, (hchild hparameter).mpr hbinds]

theorem mem_patternNames_iff (hpattern : pattern < tree.size) :
    name ∈ tree.patternNames pattern ↔ tree.Binds pattern name := by
  obtain ⟨steps, -, hrises⟩ := hbuilt.exists_rises hpattern
  exact hbuilt.mem_namesWithin_iff (Nat.le_add_left _ _) hrises hpattern

/-! ## The lists of declarations -/

theorem enclosingScope?_eq_some_iff (hid : id < tree.size) :
    tree.enclosingScope? id = some scope ↔
      tree.IsNearest (fun around => tree.opensScope around) id scope :=
  hbuilt.find?_ancestors_eq_some_iff hid

theorem variableScope?_eq_some_iff (hid : id < tree.size) :
    (if tree.variableKind id = .varName then tree.functionScope? id
      else tree.enclosingScope? id) = some scope ↔ tree.IsVariableScope id scope := by
  rw [IsVariableScope]
  split
  · rw [functionScope?, hbuilt.find?_ancestors_eq_some_iff hid]
    simp [is]
  · exact hbuilt.enclosingScope?_eq_some_iff hid

omit hbuilt in
theorem mem_fieldDeclaration_iff {field : String} {scope? : Option NodeId} {kind : BindingKind} :
    declaration ∈ tree.fieldDeclaration id field scope? kind ↔
      ∃ name scope, tree.child? id field = some name ∧ scope? = some scope ∧
        declaration = ⟨name, scope, kind⟩ := by
  cases hchild : tree.child? id field <;> cases scope? <;> simp [fieldDeclaration, hchild]

omit hbuilt in
theorem mem_fieldDeclaration {field : String} {scope? : Option NodeId} (kind : BindingKind)
    (hname : tree.child? id field = some name) (hscope : scope? = some scope) :
    ⟨name, scope, kind⟩ ∈ tree.fieldDeclaration id field scope? kind :=
  mem_fieldDeclaration_iff.mpr ⟨name, scope, hname, hscope, rfl⟩

theorem mem_parameterDeclarations_iff :
    declaration ∈ tree.parameterDeclarations id ↔
      ∃ pattern ∈ (tree.list id "params").ids, ∃ name, tree.Binds pattern name ∧
        declaration = ⟨name, id, .parameter⟩ := by
  simp only [parameterDeclarations, parameterNames, List.mem_map, List.mem_flatMap]
  constructor
  · rintro ⟨name, ⟨pattern, hpattern, hname⟩, rfl⟩
    have hlt := hbuilt.lt_of_parent? (hbuilt.parent?_of_mem_list hpattern)
    exact ⟨pattern, hpattern, name, (hbuilt.mem_patternNames_iff hlt).mp hname, rfl⟩
  · rintro ⟨pattern, hpattern, name, hbinds, rfl⟩
    have hlt := hbuilt.lt_of_parent? (hbuilt.parent?_of_mem_list hpattern)
    exact ⟨name, ⟨pattern, hpattern, (hbuilt.mem_patternNames_iff hlt).mpr hbinds⟩, rfl⟩

theorem mem_variableDeclarations_iff (hid : id < tree.size) :
    declaration ∈ tree.variableDeclarations id ↔
      ∃ declarator ∈ (tree.list id "declarations").ids, ∃ pattern name scope,
        tree.child? declarator "id" = some pattern ∧ tree.Binds pattern name ∧
          tree.IsVariableScope id scope ∧ declaration = ⟨name, scope, tree.variableKind id⟩ := by
  simp only [variableDeclarations, ← hbuilt.variableScope?_eq_some_iff hid]
  split
  next hscope => simp [hscope]
  next scope hscope =>
    simp only [hscope, List.mem_flatMap, Option.mem_toList, List.mem_map, Option.some.injEq]
    constructor
    · rintro ⟨declarator, hdeclarator, pattern, hpattern, name, hname, rfl⟩
      have hlt := hbuilt.lt_of_parent? (hbuilt.parent?_of_child? hpattern)
      exact ⟨declarator, hdeclarator, pattern, name, scope, hpattern,
        (hbuilt.mem_patternNames_iff hlt).mp hname, rfl, rfl⟩
    · rintro ⟨declarator, hdeclarator, pattern, name, _, hpattern, hbinds, rfl, rfl⟩
      have hlt := hbuilt.lt_of_parent? (hbuilt.parent?_of_child? hpattern)
      exact ⟨declarator, hdeclarator, pattern, hpattern, name,
        (hbuilt.mem_patternNames_iff hlt).mpr hbinds, rfl⟩

theorem declares_function (hid : id < tree.size)
    (hkind : tree.kind id = .functionDeclaration ∨ tree.kind id = .tsDeclareFunction)
    (hmem : declaration ∈
      tree.fieldDeclaration id "id" (tree.enclosingScope? id) .functionName) :
    tree.Declares id declaration := by
  obtain ⟨name, scope, hname, hscope, rfl⟩ := mem_fieldDeclaration_iff.mp hmem
  exact .function hkind hname ((hbuilt.enclosingScope?_eq_some_iff hid).mp hscope)

theorem declares_class (hid : id < tree.size)
    (hkind : tree.kind id = .classDeclaration ∨ tree.kind id = .classExpression)
    (hmem : declaration ∈ tree.fieldDeclaration id "id" (tree.enclosingScope? id) .className) :
    tree.Declares id declaration := by
  obtain ⟨name, scope, hname, hscope, rfl⟩ := mem_fieldDeclaration_iff.mp hmem
  exact .className hkind hname ((hbuilt.enclosingScope?_eq_some_iff hid).mp hscope)

theorem declares_import (hid : id < tree.size) (hkind : tree.kind id ∈ importOwners)
    (hmem : declaration ∈
      tree.fieldDeclaration id "local" (tree.ancestors id).getLast? .importName) :
    tree.Declares id declaration := by
  obtain ⟨name, scope, hname, hscope, rfl⟩ := mem_fieldDeclaration_iff.mp hmem
  rw [hbuilt.getLast?_ancestors hid] at hscope
  split at hscope
  next => cases hscope
  next hroot =>
    obtain rfl := Option.some.inj hscope
    exact .importName hkind hname hroot

theorem declares_parameter (hkind : tree.kind id ∈ parameterOwners)
    (hmem : declaration ∈ tree.parameterDeclarations id) : tree.Declares id declaration := by
  obtain ⟨pattern, hpattern, name, hbinds, rfl⟩ := hbuilt.mem_parameterDeclarations_iff.mp hmem
  exact .parameter hkind hpattern hbinds

/-- The declarations of a node are those of its form. -/
theorem mem_declarationsAt_iff (hid : id < tree.size) :
    declaration ∈ tree.declarationsAt id ↔ tree.Declares id declaration := by
  constructor
  · intro hmem
    rw [declarationsAt] at hmem
    split at hmem
    next hkind =>
      obtain ⟨declarator, hdeclarator, pattern, name, scope, hpattern, hbinds, hscope, rfl⟩ :=
        (hbuilt.mem_variableDeclarations_iff hid).mp hmem
      exact .declarator hkind hdeclarator hpattern hbinds hscope
    next hkind =>
      rcases List.mem_append.mp hmem with hmem | hmem
      · exact hbuilt.declares_function hid (.inl hkind) hmem
      · exact hbuilt.declares_parameter (by simp [hkind, parameterOwners]) hmem
    next hkind =>
      rcases List.mem_append.mp hmem with hmem | hmem
      · exact hbuilt.declares_function hid (.inr hkind) hmem
      · exact hbuilt.declares_parameter (by simp [hkind, parameterOwners]) hmem
    next hkind =>
      rcases List.mem_append.mp hmem with hmem | hmem
      · obtain ⟨name, scope, hname, hscope, rfl⟩ := mem_fieldDeclaration_iff.mp hmem
        obtain rfl := Option.some.inj hscope
        exact .functionExpression hkind hname
      · exact hbuilt.declares_parameter (by simp [hkind, parameterOwners]) hmem
    next hkind => exact hbuilt.declares_parameter (by simp [hkind, parameterOwners]) hmem
    next hkind => exact hbuilt.declares_class hid (.inl hkind) hmem
    next hkind => exact hbuilt.declares_class hid (.inr hkind) hmem
    next hkind => exact hbuilt.declares_import hid (by simp [hkind, importOwners]) hmem
    next hkind => exact hbuilt.declares_import hid (by simp [hkind, importOwners]) hmem
    next hkind => exact hbuilt.declares_import hid (by simp [hkind, importOwners]) hmem
    next hkind =>
      simp only [List.mem_flatMap, Option.mem_toList, List.mem_map] at hmem
      obtain ⟨pattern, hpattern, name, hname, rfl⟩ := hmem
      have hlt := hbuilt.lt_of_parent? (hbuilt.parent?_of_child? hpattern)
      exact .catchParameter hkind hpattern ((hbuilt.mem_patternNames_iff hlt).mp hname)
    next => exact absurd hmem List.not_mem_nil
  · intro hdeclares
    rw [declarationsAt]
    cases hdeclares with
    | declarator hkind hdeclarator hpattern hbinds hscope =>
        simp only [hkind]
        exact (hbuilt.mem_variableDeclarations_iff hid).mpr
          ⟨_, hdeclarator, _, _, _, hpattern, hbinds, hscope, rfl⟩
    | function hkind hname hscope =>
        have hmem := mem_fieldDeclaration .functionName hname
          ((hbuilt.enclosingScope?_eq_some_iff hid).mpr hscope)
        rcases hkind with hkind | hkind <;> simp [hkind, hmem]
    | functionExpression hkind hname =>
        simp [hkind, mem_fieldDeclaration_iff, hname]
    | parameter hkind hpattern hbinds =>
        have hmem := hbuilt.mem_parameterDeclarations_iff.mpr ⟨_, hpattern, _, hbinds, rfl⟩
        simp only [parameterOwners, List.mem_cons, List.not_mem_nil, or_false] at hkind
        rcases hkind with hkind | hkind | hkind | hkind <;> simp [hkind, hmem]
    | className hkind hname hscope =>
        have hmem := mem_fieldDeclaration .className hname
          ((hbuilt.enclosingScope?_eq_some_iff hid).mpr hscope)
        rcases hkind with hkind | hkind <;> simp [hkind, hmem]
    | importName hkind hname hroot =>
        have hlast := hbuilt.getLast?_ancestors hid
        rw [if_neg hroot] at hlast
        have hmem := mem_fieldDeclaration .importName hname hlast
        simp only [importOwners, List.mem_cons, List.not_mem_nil, or_false] at hkind
        rcases hkind with hkind | hkind | hkind <;> simp [hkind, hmem]
    | catchParameter hkind hpattern hbinds =>
        have hlt := hbuilt.lt_of_parent? (hbuilt.parent?_of_child? hpattern)
        simp [hkind, hpattern, (hbuilt.mem_patternNames_iff hlt).mpr hbinds]

end IsBuilt

theorem Declares.lt_size (hbuilt : tree.IsBuilt) (hdeclares : tree.Declares id declaration) :
    id < tree.size := by
  cases hdeclares with
  | declarator _ hdeclarator => exact hbuilt.parent?_lt (hbuilt.parent?_of_mem_list hdeclarator)
  | parameter _ hpattern => exact hbuilt.parent?_lt (hbuilt.parent?_of_mem_list hpattern)
  | function _ hname | functionExpression _ hname | className _ hname | importName _ hname
  | catchParameter _ hname => exact hbuilt.parent?_lt (hbuilt.parent?_of_child? hname)

/-- The declarations of a tree are those that a node makes of a named identifier. -/
theorem IsBuilt.mem_declarations_iff (hbuilt : tree.IsBuilt) :
    declaration ∈ tree.declarations ↔
      (∃ id, tree.Declares id declaration) ∧ (tree.name? declaration.identifier).isSome := by
  simp only [declarations, List.mem_filter, List.mem_flatMap, ids, List.mem_range]
  refine and_congr_left fun _ => exists_congr fun id => ?_
  constructor
  · rintro ⟨hid, hmem⟩
    exact (hbuilt.mem_declarationsAt_iff hid).mp hmem
  · intro hdeclares
    have hid := hdeclares.lt_size hbuilt
    exact ⟨hid, (hbuilt.mem_declarationsAt_iff hid).mpr hdeclares⟩

end ReactiveLint.Tree
