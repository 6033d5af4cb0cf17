import ReactiveLint.Proofs.Scope.Parameters
import ReactiveLint.Rules.NameSite

/-!
# Sites of bound names

Scope analysis walks a pattern down from its declaration; the rules about names climb from
an identifier to the declaration.  Both meet for all patterns of objects, arrays, defaults
and rests.  They part where a parameter property holds more than a name, since the climb
ends at the property.
-/

namespace ReactiveLint.NameSite

open ReactiveLint.Tree

variable {tree : Tree} {id part whole pattern inner top node owner name : NodeId}
  {field : String} {site : NameSite}

/-- The site that a declaration gives to what one of its fields holds. -/
def ofOwner? (kind : Kind) (field : String) : Option NameSite :=
  match kind, field with
  | .variableDeclarator, "id" => some variableName
  | kind, "params" => if kind.isFunction then some parameterName else none
  | _, _ => none

/-- A parameter property around a name, up to a pattern around it. -/
def InProperty (tree : Tree) (name pattern : NodeId) : Prop :=
  ∃ property, tree.Above name property ∧ tree.Within property pattern ∧
    tree.kind property = .tsParameterProperty

/-- A name stands in an object pattern without a property of its own. -/
def IsBare (tree : Tree) (name : NodeId) : Prop :=
  (tree.parent? name).any (tree.is · .objectPattern)

/-- A parameter property holds a name and nothing more. -/
def IsProperty (tree : Tree) (name : NodeId) : Prop :=
  (tree.parent? name).any (tree.is · .tsParameterProperty)

/-- A name whose declaration is reached by climbing through patterns. -/
structure IsPlain (tree : Tree) (name owner : NodeId) : Prop where
  not_isBare : ¬ IsBare tree name
  not_property : ∀ above, tree.Above name above → tree.Above above owner →
    tree.kind above ≠ .tsParameterProperty

theorem isPlain_iff : IsPlain tree name owner ↔ ¬ IsBare tree name ∧
    ¬ ∃ above, tree.Above name above ∧ tree.Above above owner ∧
      tree.kind above = .tsParameterProperty := by
  constructor
  · rintro ⟨hbare, hfree⟩
    exact ⟨hbare, fun ⟨above, hname, howner, hkind⟩ => hfree above hname howner hkind⟩
  · rintro ⟨hbare, hfree⟩
    exact ⟨hbare, fun above hname howner hkind => hfree ⟨above, hname, howner, hkind⟩⟩

/-- Where the climb from a name through a pattern around it leads. -/
structure ClimbsTo (tree : Tree) (name pattern : NodeId) : Prop where
  stops : InProperty tree name pattern → ofPattern? tree name = none
  passes : ¬ InProperty tree name pattern → ofPattern? tree name = ofPattern? tree pattern

/-- What decides on the site of an identifier: its parent, or else the climb. -/
structure IsSited (tree : Tree) (id : NodeId) : Prop where
  property : IsProperty tree id → ofIdentifier? tree id = some parameterName
  bare : IsBare tree id → ofIdentifier? tree id = none
  climbed : ¬ IsProperty tree id → ¬ IsBare tree id → ofIdentifier? tree id = ofPattern? tree id

section Built

variable (hbuilt : tree.IsBuilt)

include hbuilt

/-! ## The climb -/

/-- One step of the climb. -/
theorem ofPattern?_of_parent? (hparent : tree.parent? part = some whole)
    (hfield : tree.fieldName? part = some field) :
    ofPattern? tree part =
      if patternKinds.contains (tree.kind whole) then ofPattern? tree whole
      else ofOwner? (tree.kind whole) field := by
  have houtermost : outermost tree part =
      if patternKinds.contains (tree.kind whole) then outermost tree whole else part := by
    rw [outermost, hbuilt.ancestors_of_parent? hparent, List.takeWhile_cons]
    split
    next => simp [outermost, List.getLast?_cons]
    next => simp
  rw [ofPattern?, houtermost]
  split
  next => rfl
  next =>
    simp only [hparent, hfield, Option.bind_eq_bind, Option.bind_some]
    rfl

theorem within_of_binds (hbinds : tree.Binds pattern name) : tree.Within name pattern :=
  Relation.ReflTransGen.mono (fun _ _ hpart => hpart.1) _ _ (hbuilt.reflTransGen_isPart hbinds)

/-- A step up brings one more node into view. -/
theorem inProperty_of_parent? (hparent : tree.parent? inner = some whole)
    (hname : tree.Within name inner) :
    InProperty tree name whole ↔
      InProperty tree name inner ∨ tree.kind whole = .tsParameterProperty := by
  constructor
  · rintro ⟨property, habove, hwithin, hkind⟩
    rcases Within.total habove.to_reflTransGen hname with hup | hup
    · exact .inl ⟨property, habove, hup, hkind⟩
    · rcases hup.cases_head with rfl | ⟨above, hstep, hup⟩
      · exact .inl ⟨inner, habove, .refl, hkind⟩
      · obtain rfl : whole = above := Option.some.inj (hparent.symm.trans hstep)
        have hlt := hbuilt.parent?_lt hparent
        obtain rfl := Within.antisymm hbuilt hlt hup hwithin
        exact .inr hkind
  · rintro (⟨property, habove, hwithin, hkind⟩ | hkind)
    · exact ⟨property, habove, hwithin.tail hparent, hkind⟩
    · exact ⟨whole, Relation.TransGen.tail' hname hparent, .refl, hkind⟩

theorem inProperty_iff_between (hparent : tree.parent? top = some owner)
    (hname : tree.Within name top) :
    InProperty tree name top ↔ ∃ above, tree.Above name above ∧ tree.Above above owner ∧
      tree.kind above = .tsParameterProperty := by
  refine exists_congr fun property => and_congr_right fun habove => and_congr_left fun _ => ?_
  constructor
  · exact fun hwithin => Relation.TransGen.tail' hwithin hparent
  · intro howner
    rcases Within.total habove.to_reflTransGen hname with hup | hup
    · exact hup
    · rcases hup.cases_head with rfl | ⟨above, hstep, hup⟩
      · exact .refl
      · obtain rfl : owner = above := Option.some.inj (hparent.symm.trans hstep)
        exact absurd (Relation.TransGen.trans_right hup howner) hbuilt.not_above_self

theorem ClimbsTo.up (hclimbs : ClimbsTo tree name inner)
    (hparent : tree.parent? inner = some whole) (hfield : tree.fieldName? inner = some field)
    (hname : tree.Within name inner) (hkind : patternKinds.contains (tree.kind whole) = true) :
    ClimbsTo tree name whole := by
  have hother : tree.kind whole ≠ .tsParameterProperty := by
    rintro heq
    rw [heq] at hkind
    exact absurd hkind (by decide)
  have hstep := inProperty_of_parent? hbuilt hparent hname
  rw [or_iff_left hother] at hstep
  refine ⟨fun hinside => hclimbs.stops (hstep.mp hinside), fun hfree => ?_⟩
  rw [hclimbs.passes (fun hinside => hfree (hstep.mpr hinside)),
    ofPattern?_of_parent? hbuilt hparent hfield, if_pos hkind]

/-- Climbing from a name passes its pattern, unless a parameter property stops it. -/
theorem climbsTo_of_binds (hbinds : tree.Binds pattern name) : ClimbsTo tree name pattern := by
  induction hbinds with
  | identifier =>
      refine ⟨fun ⟨property, habove, hwithin, _⟩ => ?_, fun _ => rfl⟩
      exact absurd (habove.trans_left hwithin) hbuilt.not_above_self
  | value hkind hproperty hvalued hvalue hbinds ih =>
      have hwithin := within_of_binds hbuilt hbinds
      have hparent := hbuilt.parent?_of_child? hvalue
      have hclimbs := ih.up hbuilt hparent (hbuilt.fieldName?_of_child? hvalue) hwithin
        (by rw [hvalued]; decide)
      exact hclimbs.up hbuilt (hbuilt.parent?_of_mem_list hproperty)
        (hbuilt.fieldName?_of_mem_list hproperty) (hwithin.tail hparent) (by rw [hkind]; decide)
  | rest hkind hmem _ hbinds ih | element hkind hmem hbinds ih =>
      exact ih.up hbuilt (hbuilt.parent?_of_mem_list hmem) (hbuilt.fieldName?_of_mem_list hmem)
        (within_of_binds hbuilt hbinds) (by rw [hkind]; decide)
  | default hkind hchild hbinds ih | argument hkind hchild hbinds ih =>
      exact ih.up hbuilt (hbuilt.parent?_of_child? hchild) (hbuilt.fieldName?_of_child? hchild)
        (within_of_binds hbuilt hbinds) (by rw [hkind]; decide)
  | @parameterProperty property parameter name hkind hparameter hbinds ih =>
      have hparent := hbuilt.parent?_of_child? hparameter
      have hinside := (inProperty_of_parent? hbuilt hparent (within_of_binds hbuilt hbinds)).mpr
        (.inr hkind)
      refine ⟨fun _ => ?_, fun hfree => absurd hinside hfree⟩
      by_cases hinner : InProperty tree name parameter
      · exact ih.stops hinner
      · rw [ih.passes hinner, ofPattern?_of_parent? hbuilt hparent
          (hbuilt.fieldName?_of_child? hparameter), hkind]
        rfl

/-! ## The site of a bound name -/

/-- The fields from which the climb starts, by the kind of the node that has them. -/
def climbedFields : List (Kind × String) :=
  [(.arrayPattern, "elements"), (.assignmentPattern, "left"), (.restElement, "argument")]

theorem isSited_of_climbed (hparent : tree.parent? id = some whole)
    (hfield : tree.fieldName? id = some field)
    (hclimbed : (tree.kind whole, field) ∈ climbedFields) : IsSited tree id := by
  have hstep := ofPattern?_of_parent? hbuilt hparent hfield
  simp only [climbedFields, List.mem_cons, List.not_mem_nil, or_false, Prod.mk.injEq] at hclimbed
  rcases hclimbed with ⟨hkind, rfl⟩ | ⟨hkind, rfl⟩ | ⟨hkind, rfl⟩ <;>
    constructor <;>
    simp [IsProperty, IsBare, ofIdentifier?, is, patternKinds, hparent, hfield, hkind, hstep]

theorem isSited_of_value (hparent : tree.parent? id = some part)
    (hfield : tree.fieldName? id = some "value") (hkind : tree.kind part = .property)
    (hpattern : tree.parent? part = some whole) (hwhole : tree.kind whole = .objectPattern) :
    IsSited tree id := by
  have hstep := ofPattern?_of_parent? hbuilt hparent hfield
  constructor <;>
    simp [IsProperty, IsBare, ofIdentifier?, is, patternKinds, hparent, hfield, hkind, hpattern,
      hwhole, hstep]

omit hbuilt in
theorem isSited_of_bare (hparent : tree.parent? id = some whole)
    (hfield : tree.fieldName? id = some "properties")
    (hkind : tree.kind whole = .objectPattern) : IsSited tree id := by
  constructor <;> simp [IsProperty, IsBare, ofIdentifier?, is, hparent, hfield, hkind]

omit hbuilt in
theorem isSited_of_property (hparent : tree.parent? id = some whole)
    (hfield : tree.fieldName? id = some "parameter")
    (hkind : tree.kind whole = .tsParameterProperty) : IsSited tree id := by
  constructor <;> simp [IsProperty, IsBare, ofIdentifier?, is, hparent, hfield, hkind]

theorem isSited_of_owner (hparent : tree.parent? id = some owner)
    (hfield : tree.fieldName? id = some field)
    (howner : tree.kind owner = .variableDeclarator ∧ field = "id" ∨
      tree.isFunction owner ∧ field = "params") :
    IsSited tree id := by
  have hstep := ofPattern?_of_parent? hbuilt hparent hfield
  rw [isFunction_iff] at howner
  rcases howner with ⟨hkind, rfl⟩ | ⟨hkind | hkind | hkind, rfl⟩ <;>
    constructor <;>
    simp [IsProperty, IsBare, ofIdentifier?, is, patternKinds, ofOwner?, Kind.isFunction, hparent,
      hfield, hkind, hstep]

/-- With the pattern as a whole, each of its names is sited. -/
theorem isSited_of_binds (hbinds : tree.Binds pattern name) (hsited : IsSited tree pattern) :
    IsSited tree name := by
  induction hbinds with
  | identifier => exact hsited
  | value hkind hproperty hvalued hvalue _ ih =>
      exact ih (isSited_of_value hbuilt (hbuilt.parent?_of_child? hvalue)
        (hbuilt.fieldName?_of_child? hvalue) hvalued (hbuilt.parent?_of_mem_list hproperty) hkind)
  | rest hkind hproperty _ _ ih =>
      exact ih (isSited_of_bare (hbuilt.parent?_of_mem_list hproperty)
        (hbuilt.fieldName?_of_mem_list hproperty) hkind)
  | element hkind helement _ ih =>
      exact ih (isSited_of_climbed hbuilt (hbuilt.parent?_of_mem_list helement)
        (hbuilt.fieldName?_of_mem_list helement) (by rw [hkind]; decide))
  | default hkind hchild _ ih | argument hkind hchild _ ih =>
      exact ih (isSited_of_climbed hbuilt (hbuilt.parent?_of_child? hchild)
        (hbuilt.fieldName?_of_child? hchild) (by rw [hkind]; decide))
  | parameterProperty hkind hparameter _ ih =>
      exact ih (isSited_of_property (hbuilt.parent?_of_child? hparameter)
        (hbuilt.fieldName?_of_child? hparameter) hkind)

omit hbuilt in
theorem inProperty_of_isProperty (hwithin : tree.Within name pattern)
    (hproperty : IsProperty tree name) (hpattern : ¬ IsProperty tree pattern) :
    InProperty tree name pattern := by
  obtain ⟨property, hparent, hkind⟩ : ∃ property, tree.parent? name = some property ∧
      tree.is property .tsParameterProperty := by
    simpa [IsProperty, Option.any_eq_true] using hproperty
  rcases hwithin.cases_head with rfl | ⟨above, hstep, hup⟩
  · exact absurd hproperty hpattern
  · obtain rfl : property = above := Option.some.inj (hparent.symm.trans hstep)
    exact ⟨property, .single hparent, hup, eq_of_beq hkind⟩

/-- The site of a bound name is that of its owner, unless the place of the name is bare or a
parameter property holds it with more than itself. -/
theorem ofIdentifier?_eq_some_iff (hbinds : tree.Binds pattern name)
    (hparent : tree.parent? pattern = some owner) (hfield : tree.fieldName? pattern = some field)
    (howner : tree.kind owner = .variableDeclarator ∧ field = "id" ∧ site = variableName ∨
      tree.isFunction owner ∧ field = "params" ∧ site = parameterName) :
    ofIdentifier? tree name = some site ↔
      site = parameterName ∧ IsProperty tree name ∨
        ¬ IsBare tree name ∧ ¬ InProperty tree name pattern := by
  have hfields : tree.kind owner = .variableDeclarator ∧ field = "id" ∨
      tree.isFunction owner ∧ field = "params" :=
    howner.imp (fun h => ⟨h.1, h.2.1⟩) fun h => ⟨h.1, h.2.1⟩
  have hsited := isSited_of_binds hbuilt hbinds (isSited_of_owner hbuilt hparent hfield hfields)
  have hclimbs := climbsTo_of_binds hbuilt hbinds
  have hpattern : ofPattern? tree pattern = some site ∧ ¬ IsProperty tree pattern := by
    rw [ofPattern?_of_parent? hbuilt hparent hfield]
    rw [isFunction_iff] at howner
    rcases howner with ⟨hkind, rfl, rfl⟩ | ⟨hkind | hkind | hkind, rfl, rfl⟩ <;>
      simp [IsProperty, is, patternKinds, ofOwner?, Kind.isFunction, hparent, hkind]
  by_cases hproperty : IsProperty tree name
  · have hinside := inProperty_of_isProperty (within_of_binds hbuilt hbinds) hproperty hpattern.2
    simp [hsited.property hproperty, hproperty, hinside, eq_comm]
  · by_cases hbare : IsBare tree name
    · simp [hsited.bare hbare, hproperty, hbare]
    · rw [hsited.climbed hproperty hbare]
      by_cases hinside : InProperty tree name pattern
      · simp [hclimbs.stops hinside, hproperty, hinside]
      · simp [hclimbs.passes hinside, hpattern.1, hbare, hinside]

end Built

/-! ## What scope analysis binds -/

/-- The kinds of bindings that declaration lists make. -/
def variableBindings : List BindingKind := [.varName, .letName, .constName]

theorem variableKind_mem (tree : Tree) (list : NodeId) :
    tree.variableKind list ∈ variableBindings := by
  rw [variableKind]
  split <;> decide

theorem exists_declares_of_binding? (hbuilt : tree.IsBuilt) {binding : Binding}
    (hbinding : (Scopes.analyze tree).binding? id = some binding) :
    ∃ owner declaration, tree.Declares owner declaration ∧ declaration.identifier = id ∧
      binding = tree.bindingOf declaration := by
  obtain ⟨before, after, hentries, -⟩ := List.lookup_eq_some_iff.mp hbinding
  have hmem : (id, binding) ∈ (Scopes.analyze tree).bindings := by simp [hentries]
  obtain ⟨declaration, hdeclaration, hentry⟩ := List.mem_map.mp (List.mem_reverse.mp hmem)
  obtain ⟨⟨owner, hdeclares⟩, -⟩ := hbuilt.mem_declarations_iff.mp hdeclaration
  exact ⟨owner, declaration, hdeclares, (Prod.mk.inj hentry).1, (Prod.mk.inj hentry).2.symm⟩

/-- Declaration lists hold nothing but declarators. -/
def HasDeclarators (tree : Tree) : Prop :=
  ∀ list, tree.kind list = .variableDeclaration →
    ∀ declarator ∈ (tree.list list "declarations").ids,
      tree.kind declarator = .variableDeclarator

/-- What scope analysis binds as a parameter of a function or as a variable has the site of a
parameter or of a variable, exactly when its place is plain or, for a parameter, when a
parameter property holds nothing but its name. -/
theorem ofIdentifier?_of_binding? {drafts : List NodeDraft} {root : NodeId} {source : String}
    (hbuild : build? drafts root source = .ok tree) (hdeclarators : HasDeclarators tree)
    {binding : Binding} (hbinding : (Scopes.analyze tree).binding? id = some binding) :
    ∃ owner declaration, tree.Declares owner declaration ∧ declaration.identifier = id ∧
      binding = tree.bindingOf declaration ∧
      (binding.kind = .parameter → tree.isFunction owner →
        (ofIdentifier? tree id = some .parameterName ↔
          IsProperty tree id ∨ IsPlain tree id owner)) ∧
      (binding.kind ∈ variableBindings →
        (ofIdentifier? tree id = some .variableName ↔ IsPlain tree id owner)) := by
  have hbuilt := isBuilt_of_build? hbuild
  obtain ⟨owner, declaration, hdeclares, rfl, rfl⟩ := exists_declares_of_binding? hbuilt hbinding
  refine ⟨owner, declaration, hdeclares, rfl, rfl, fun hkind hfunction => ?_, fun hkind => ?_⟩
  · cases hdeclares with
    | parameter _ hpattern hbinds =>
        have hparent := hbuilt.parent?_of_mem_list hpattern
        rw [ofIdentifier?_eq_some_iff hbuilt hbinds hparent
          (hbuilt.fieldName?_of_mem_list hpattern) (.inr ⟨hfunction, rfl, rfl⟩),
          isPlain_iff, inProperty_iff_between hbuilt hparent (within_of_binds hbuilt hbinds)]
        simp
    | declarator =>
        have hvariable := variableKind_mem tree owner
        rw [show tree.variableKind owner = .parameter from hkind] at hvariable
        exact absurd hvariable (by decide)
    | _ => cases hkind
  · cases hdeclares with
    | declarator hlist hdeclarator hpattern hbinds =>
        have hdeclarator_kind := hdeclarators owner hlist _ hdeclarator
        have hparent := hbuilt.parent?_of_child? hpattern
        have hwithin := within_of_binds hbuilt hbinds
        have hup := inProperty_of_parent? hbuilt hparent hwithin
        rw [or_iff_left (by simp [hdeclarator_kind])] at hup
        rw [ofIdentifier?_eq_some_iff hbuilt hbinds hparent (hbuilt.fieldName?_of_child? hpattern)
          (.inl ⟨hdeclarator_kind, rfl, rfl⟩), isPlain_iff, ← hup,
          inProperty_iff_between hbuilt (hbuilt.parent?_of_mem_list hdeclarator)
            (hwithin.tail hparent)]
        simp
    | parameter | function | functionExpression | className | importName | catchParameter =>
        exact absurd hkind (by simp [bindingOf, variableBindings])

/-! ## A parameter property with a default -/

/-- Whether the place of a name is plain can be computed. -/
theorem isPlain_of_mem_ancestors (hbuilt : tree.IsBuilt) (hname : name < tree.size)
    (hbare : ¬ IsBare tree name)
    (hfree : ∀ above ∈ tree.ancestors name, tree.kind above ≠ .tsParameterProperty) :
    IsPlain tree name owner where
  not_isBare := hbare
  not_property above habove _ := hfree above ((hbuilt.mem_ancestors_iff hname).mpr habove)

/-- Only nodes have lists of declarators. -/
theorem hasDeclarators_iff (hbuilt : tree.IsBuilt) : HasDeclarators tree ↔
    ∀ list < tree.size, tree.kind list = .variableDeclaration →
      ∀ declarator ∈ (tree.list list "declarations").ids,
        tree.kind declarator = .variableDeclarator := by
  refine ⟨fun h list _ => h list, fun h list hkind declarator hmem => ?_⟩
  have habove : tree.Above declarator list := .single (hbuilt.parent?_of_mem_list hmem)
  exact h list (habove.lt_size hbuilt) hkind declarator hmem

def constructorText : String :=
  "class A \x7b constructor(private a = b, [c = b]) \x7b\x7d \x7d"

/-- The arena of `constructorText`. -/
def constructorArena : List NodeDraft :=
  [ ⟨.identifier, ⟨6, 7⟩, [("name", .value (.text "A"))]⟩
  , ⟨.identifier, ⟨10, 21⟩, [("name", .value (.text "constructor"))]⟩
  , ⟨.identifier, ⟨30, 31⟩, [("name", .value (.text "a"))]⟩
  , ⟨.identifier, ⟨34, 35⟩, [("name", .value (.text "b"))]⟩
  , ⟨.assignmentPattern, ⟨30, 35⟩, [("left", .node 2), ("right", .node 3)]⟩
  , ⟨.tsParameterProperty, ⟨22, 35⟩, [("parameter", .node 4)]⟩
  , ⟨.identifier, ⟨38, 39⟩, [("name", .value (.text "c"))]⟩
  , ⟨.identifier, ⟨42, 43⟩, [("name", .value (.text "b"))]⟩
  , ⟨.assignmentPattern, ⟨38, 43⟩, [("left", .node 6), ("right", .node 7)]⟩
  , ⟨.arrayPattern, ⟨37, 44⟩, [("elements", .list [some 8])]⟩
  , ⟨.blockStatement, ⟨46, 48⟩, [("body", .list [])]⟩
  , ⟨.functionExpression, ⟨21, 48⟩, [("params", .list [some 5, some 9]), ("body", .node 10)]⟩
  , ⟨.methodDefinition, ⟨10, 48⟩,
      [("key", .node 1), ("value", .node 11), ("kind", .value (.text "constructor"))]⟩
  , ⟨.classBody, ⟨8, 50⟩, [("body", .list [some 12])]⟩
  , ⟨.classDeclaration, ⟨0, 50⟩, [("id", .node 0), ("body", .node 13)]⟩
  , ⟨.program, ⟨0, 50⟩, [("body", .list [some 14])]⟩ ]

def constructorTree : Tree :=
  (build? constructorArena 15 constructorText).toOption.getD default

theorem constructorTree_evaluated :
    (build? constructorArena 15 constructorText).isOk = true ∧ constructorTree.size = 16 ∧
      (∀ list < 16, constructorTree.kind list ≠ .variableDeclaration) ∧
      constructorTree.isFunction 11 = true ∧ 9 ∈ (constructorTree.list 11 "params").ids ∧
      6 ∈ constructorTree.patternNames 9 ∧ 2 ∈ constructorTree.parameterNames 11 ∧
      ((Scopes.analyze constructorTree).binding? 6).map (·.kind) = some .parameter ∧
      ((Scopes.analyze constructorTree).binding? 2).map (·.kind) = some .parameter ∧
      (constructorTree.parent? 6).any (constructorTree.is · .objectPattern) = false ∧
      (∀ above ∈ constructorTree.ancestors 6,
        constructorTree.kind above ≠ .tsParameterProperty) ∧
      ofIdentifier? constructorTree 2 = none := by
  decide +kernel

theorem build?_constructorArena :
    build? constructorArena 15 constructorText = .ok constructorTree ∧
      HasDeclarators constructorTree := by
  obtain ⟨hok, hsize, hkinds, -⟩ := constructorTree_evaluated
  have hbuild : build? constructorArena 15 constructorText = .ok constructorTree :=
    eq_ok_of_isOk hok default
  refine ⟨hbuild, (hasDeclarators_iff (isBuilt_of_build? hbuild)).mpr fun list hlist hkind => ?_⟩
  exact absurd hkind (hkinds list (hsize ▸ hlist))

/-- A default inside an array of parameters leaves its name a parameter. -/
theorem ofIdentifier?_constructorTree_element :
    ofIdentifier? constructorTree 6 = some .parameterName := by
  obtain ⟨hbuild, hdeclarators⟩ := build?_constructorArena
  obtain ⟨-, hsize, -, hfunction, hpattern, hname, -, hkind, -, hbare, hfree, -⟩ :=
    constructorTree_evaluated
  have hbuilt := isBuilt_of_build? hbuild
  obtain ⟨binding, hbinding, hparameter⟩ := Option.map_eq_some_iff.mp hkind
  obtain ⟨owner, declaration, hdeclares, hid, -, hsite, -⟩ :=
    ofIdentifier?_of_binding? hbuild hdeclarators hbinding
  have hbinds := (hbuilt.mem_patternNames_iff (by simp [hsize])).mp hname
  obtain ⟨rfl, -⟩ := hbuilt.eq_of_declares_parameter hpattern (hid ▸ hbinds) hdeclares
  refine (hsite hparameter hfunction).mpr (.inr ?_)
  exact isPlain_of_mem_ancestors hbuilt (by simp [hsize]) (by simp [IsBare, hbare]) hfree

/-- A default in a parameter property takes the site of a parameter away. -/
theorem not_forall_ofIdentifier?_eq_site :
    ¬ ∀ (drafts : List NodeDraft) (root : NodeId) (source : String) (tree : Tree),
      build? drafts root source = .ok tree → HasDeclarators tree →
      ∀ (id : NodeId) (binding : Binding),
        (Scopes.analyze tree).binding? id = some binding →
        (binding.kind = .parameter → ∀ function, tree.isFunction function →
          id ∈ tree.parameterNames function → ofIdentifier? tree id = some .parameterName) ∧
        (binding.kind ∈ variableBindings → ofIdentifier? tree id = some .variableName) := by
  intro hall
  obtain ⟨hbuild, hdeclarators⟩ := build?_constructorArena
  obtain ⟨-, -, -, hfunction, -, -, hname, -, hkind, -, -, hsite⟩ := constructorTree_evaluated
  obtain ⟨binding, hbinding, hparameter⟩ := Option.map_eq_some_iff.mp hkind
  have hclaimed := (hall _ _ _ _ hbuild hdeclarators 2 binding hbinding).1 hparameter 11
    hfunction hname
  exact absurd (hsite.symm.trans hclaimed) (by decide)

end ReactiveLint.NameSite
