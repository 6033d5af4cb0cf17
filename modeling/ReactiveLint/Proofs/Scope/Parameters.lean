import ReactiveLint.Proofs.Data.Result
import ReactiveLint.Proofs.Scope.Resolution
import ReactiveLint.Rules.Operators

/-!
# Uses of parameters

A use of a name inside a function refers to the parameter of that name when no scope in
between declares it, unless another declaration takes the name over.  The scope of a
function holds more than its parameters: the name of a function expression, and whatever
the body declares at its top level or as `var`.  The first of all these in the arena wins,
and the nodes of the body stand before the function.
-/

namespace ReactiveLint

namespace Tree

variable {tree : Tree} {id pattern other identifier node function : NodeId} {name : String}
  {declaration : Declaration}

/-! ## The owner of a bound name -/

/-- The fields through which a pattern holds its parts. -/
def patternFields : List String :=
  ["properties", "value", "elements", "left", "argument", "parameter"]

def IsPart (tree : Tree) (part whole : NodeId) : Prop :=
  tree.parent? part = some whole ∧ ∃ field ∈ patternFields, tree.fieldName? part = some field

theorem not_isPart {field : String} (hfield : tree.fieldName? id = some field)
    (hout : field ∉ patternFields) : ¬ tree.IsPart id other := by
  rintro ⟨-, inner, hinner, hname⟩
  obtain rfl : field = inner := Option.some.inj (hfield.symm.trans hname)
  exact hout hinner

namespace IsBuilt

variable (hbuilt : tree.IsBuilt)

include hbuilt

theorem isPart_of_child? {field : String} (hchild : tree.child? id field = some other)
    (hfield : field ∈ patternFields) : tree.IsPart other id :=
  ⟨hbuilt.parent?_of_child? hchild, field, hfield, hbuilt.fieldName?_of_child? hchild⟩

theorem isPart_of_mem_list {field : String} (hmem : other ∈ (tree.list id field).ids)
    (hfield : field ∈ patternFields) : tree.IsPart other id :=
  ⟨hbuilt.parent?_of_mem_list hmem, field, hfield, hbuilt.fieldName?_of_mem_list hmem⟩

/-- From a bound name its pattern is reached through parts of patterns. -/
theorem reflTransGen_isPart (hbinds : tree.Binds pattern identifier) :
    Relation.ReflTransGen tree.IsPart identifier pattern := by
  induction hbinds with
  | identifier => exact .refl
  | value _ hproperty _ hvalue _ ih =>
      exact (ih.tail (hbuilt.isPart_of_child? hvalue (by decide))).tail
        (hbuilt.isPart_of_mem_list hproperty (by decide))
  | rest _ hproperty _ _ ih => exact ih.tail (hbuilt.isPart_of_mem_list hproperty (by decide))
  | element _ helement _ ih => exact ih.tail (hbuilt.isPart_of_mem_list helement (by decide))
  | default _ hleft _ ih => exact ih.tail (hbuilt.isPart_of_child? hleft (by decide))
  | argument _ hargument _ ih => exact ih.tail (hbuilt.isPart_of_child? hargument (by decide))
  | parameterProperty _ hparameter _ ih =>
      exact ih.tail (hbuilt.isPart_of_child? hparameter (by decide))

omit hbuilt in
/-- The way up through parts of patterns has one end. -/
theorem eq_of_not_isPart (hpattern : Relation.ReflTransGen tree.IsPart identifier pattern)
    (hother : Relation.ReflTransGen tree.IsPart identifier other)
    (hpattern_top : ∀ whole, ¬ tree.IsPart pattern whole)
    (hother_top : ∀ whole, ¬ tree.IsPart other whole) : pattern = other := by
  have hunique : Relator.RightUnique tree.IsPart := fun _ _ _ hleft hright =>
    Option.some.inj (hleft.1.symm.trans hright.1)
  rcases hpattern.total_of_right_unique hunique hother with hup | hup
  · rcases hup.cases_head with heq | ⟨whole, hpart, -⟩
    · exact heq
    · exact absurd hpart (hpattern_top whole)
  · rcases hup.cases_head with heq | ⟨whole, hpart, -⟩
    · exact heq.symm
    · exact absurd hpart (hother_top whole)

/-- A parameter is declared by its function only, and as a parameter. -/
theorem eq_of_declares_parameter (hpattern : pattern ∈ (tree.list function "params").ids)
    (hbinds : tree.Binds pattern declaration.identifier)
    (hdeclares : tree.Declares node declaration) :
    node = function ∧ declaration.kind = .parameter := by
  have hfield := hbuilt.fieldName?_of_mem_list hpattern
  -- another owner would hold the pattern in a field of another name
  have howner : ∀ {owner : NodeId} {field : String}, tree.fieldName? owner = some field →
      field ∉ patternFields →
      Relation.ReflTransGen tree.IsPart declaration.identifier owner →
      owner = pattern ∧ field = "params" := by
    intro owner field hname hout hup
    obtain rfl := eq_of_not_isPart hup (hbuilt.reflTransGen_isPart hbinds)
      (fun _ => not_isPart hname hout) (fun _ => not_isPart hfield (by decide))
    exact ⟨rfl, Option.some.inj (hname.symm.trans hfield)⟩
  cases hdeclares with
  | declarator _ _ hpattern' hbinds' _ =>
      obtain ⟨-, hfield⟩ := howner (hbuilt.fieldName?_of_child? hpattern') (by decide)
        (hbuilt.reflTransGen_isPart hbinds')
      exact absurd hfield (by decide)
  | catchParameter _ hpattern' hbinds' =>
      obtain ⟨-, hfield⟩ := howner (hbuilt.fieldName?_of_child? hpattern') (by decide)
        (hbuilt.reflTransGen_isPart hbinds')
      exact absurd hfield (by decide)
  | parameter _ hpattern' hbinds' =>
      obtain ⟨rfl, -⟩ := howner (hbuilt.fieldName?_of_mem_list hpattern') (by decide)
        (hbuilt.reflTransGen_isPart hbinds')
      have hparent := hbuilt.parent?_of_mem_list hpattern
      exact ⟨Option.some.inj ((hbuilt.parent?_of_mem_list hpattern').symm.trans hparent), rfl⟩
  | function _ hname | functionExpression _ hname | className _ hname | importName _ hname =>
      obtain ⟨-, hfield⟩ := howner (hbuilt.fieldName?_of_child? hname) (by decide) .refl
      exact absurd hfield (by decide)

end IsBuilt

/-! ## What takes a name over -/

/-- A declaration in the scope of a function that comes before those of its parameters. -/
def IsOvertaken (tree : Tree) (function : NodeId) (name : String) : Prop :=
  (∃ node < function, ∃ declaration,
    tree.Declares node declaration ∧ tree.IsOf function name declaration) ∨
  ∃ own, tree.kind function = .functionExpression ∧ tree.child? function "id" = some own ∧
    tree.name? own = some name

/-- No two parameters of a function bind one name. -/
def HasDistinctParameters (tree : Tree) (function : NodeId) : Prop :=
  ∀ left ∈ tree.parameterNames function, ∀ right ∈ tree.parameterNames function,
    (tree.name? left).isSome → tree.name? left = tree.name? right → left = right

instance : DecidablePred tree.HasDistinctParameters := fun _ =>
  inferInstanceAs (Decidable (∀ left ∈ _, ∀ right ∈ _, _))

/-- A use of a name inside a function, with no scope in between that declares it. -/
structure IsUseIn (tree : Tree) (function : NodeId) (name : String) (use : NodeId) : Prop where
  kind_eq : tree.kind use = .identifier
  name?_eq : tree.name? use = some name
  isReference : tree.isReference use
  not_isDeclared : ¬ tree.IsDeclared use
  isAbove : tree.Above use function
  not_knows : ∀ scope, tree.Above use scope → tree.Above scope function → ¬ tree.Knows name scope

theorem isFunction_iff : tree.isFunction function ↔ tree.kind function = .functionDeclaration ∨
    tree.kind function = .functionExpression ∨ tree.kind function = .arrowFunctionExpression := by
  rw [isFunction]
  cases tree.kind function <;> simp [Kind.isFunction]

theorem kind_mem_parameterOwners (hfunction : tree.isFunction function) :
    tree.kind function ∈ parameterOwners := by
  rcases isFunction_iff.mp hfunction with hkind | hkind | hkind <;> simp [hkind, parameterOwners]

theorem opensScope_of_isFunction (hfunction : tree.isFunction function) :
    tree.opensScope function := by
  rcases isFunction_iff.mp hfunction with hkind | hkind | hkind <;>
    simp [opensScope, hkind, Kind.isFunction]

namespace IsBuilt

variable (hbuilt : tree.IsBuilt) {parameter use : NodeId}

include hbuilt

theorem mem_parameterNames_iff : identifier ∈ tree.parameterNames function ↔
    ∃ pattern ∈ (tree.list function "params").ids, tree.Binds pattern identifier := by
  simp only [parameterNames, List.mem_flatMap]
  refine exists_congr fun pattern => and_congr_right fun hpattern => ?_
  exact hbuilt.mem_patternNames_iff (hbuilt.lt_of_parent? (hbuilt.parent?_of_mem_list hpattern))

theorem declares_of_mem_parameterNames (hfunction : tree.isFunction function)
    (hparameter : parameter ∈ tree.parameterNames function) :
    tree.Declares function ⟨parameter, function, .parameter⟩ := by
  obtain ⟨pattern, hpattern, hbinds⟩ := hbuilt.mem_parameterNames_iff.mp hparameter
  exact .parameter (kind_mem_parameterOwners hfunction) hpattern hbinds

/-- What a function declares in its own scope is its name or a parameter. -/
theorem declares_in_function (hfunction : tree.isFunction function)
    (hdeclares : tree.Declares function declaration) (hscope : declaration.scope = function) :
    (tree.kind function = .functionExpression ∧
      tree.child? function "id" = some declaration.identifier) ∨
    declaration.identifier ∈ tree.parameterNames function := by
  have hkinds := kind_mem_parameterOwners hfunction
  simp only [parameterOwners, List.mem_cons, List.not_mem_nil, or_false] at hkinds
  cases hdeclares with
  | functionExpression hkind hname => exact .inl ⟨hkind, hname⟩
  | parameter _ hpattern hbinds =>
      exact .inr (hbuilt.mem_parameterNames_iff.mpr ⟨_, hpattern, hbinds⟩)
  | function _ _ hnearest => exact absurd (hscope ▸ hnearest.isAbove) hbuilt.not_above_self
  | declarator hkind | catchParameter hkind => simp [hkind] at hkinds
  | className hkind => rcases hkind with hkind | hkind <;> simp [hkind] at hkinds
  | importName hkind =>
      simp only [importOwners, List.mem_cons, List.not_mem_nil, or_false] at hkind
      rcases hkind with hkind | hkind | hkind <;> simp [hkind] at hkinds

/-- The first declaration of a name in the scope of a function is that of its parameter,
unless another one takes the name over. -/
theorem eq_parameter_iff_of_isFirst (hfunction : tree.isFunction function)
    (hparameter : parameter ∈ tree.parameterNames function)
    (hnamed : tree.name? parameter = some name) (hdistinct : tree.HasDistinctParameters function)
    (hfirst : tree.IsFirst function name identifier) :
    identifier = parameter ↔ ¬ tree.IsOvertaken function name := by
  obtain ⟨node, hnode, earlier, declaration, later, hlist, rfl, hof, hearlier, hbefore⟩ := hfirst
  have hdeclares : tree.Declares node declaration :=
    (hbuilt.mem_declarationsAt_iff hnode).mp (by simp [hlist])
  constructor
  · rintro heq (⟨prior, hprior, other, hother, hof'⟩ | ⟨own, hkind, hown, hname⟩)
    · obtain ⟨pattern, hpattern, hbinds⟩ := hbuilt.mem_parameterNames_iff.mp hparameter
      obtain ⟨rfl, -⟩ := hbuilt.eq_of_declares_parameter hpattern (heq ▸ hbinds) hdeclares
      exact hbefore prior hprior other hother hof'
    · obtain ⟨pattern, hpattern, hbinds⟩ := hbuilt.mem_parameterNames_iff.mp hparameter
      obtain ⟨rfl, hparameter_kind⟩ :=
        hbuilt.eq_of_declares_parameter hpattern (heq ▸ hbinds) hdeclares
      -- the name of the function stands at the head of what it declares
      have hhead : tree.declarationsAt node =
          ⟨own, node, .functionName⟩ :: tree.parameterDeclarations node := by
        simp [declarationsAt, hkind, fieldDeclaration, hown]
      rw [hhead] at hlist
      cases earlier with
      | nil =>
          obtain ⟨rfl, -⟩ := List.cons.inj hlist
          cases hparameter_kind
      | cons first earlier =>
          obtain ⟨rfl, -⟩ := List.cons.inj hlist
          exact hearlier _ List.mem_cons_self ⟨rfl, hname⟩
  · intro hfree
    have hparameter_declares := hbuilt.declares_of_mem_parameterNames hfunction hparameter
    have heq : node = function := by
      rcases Nat.lt_trichotomy node function with hlt | heq | hlt
      · exact absurd (.inl ⟨node, hlt, declaration, hdeclares, hof⟩) hfree
      · exact heq
      · exact absurd ⟨rfl, hnamed⟩ (hbefore function hlt _ hparameter_declares)
    subst heq
    rcases hbuilt.declares_in_function hfunction hdeclares hof.1 with ⟨hkind, hown⟩ | hmem
    · exact absurd (.inr ⟨_, hkind, hown, hof.2⟩) hfree
    · exact hdistinct _ hmem _ hparameter (by simp [hof.2]) (hof.2.trans hnamed.symm)

theorem isOvertaken_iff (hid : function < tree.size) : tree.IsOvertaken function name ↔
    (∃ node < function, ∃ declaration ∈ tree.declarationsAt node,
      tree.IsOf function name declaration) ∨
    tree.kind function = .functionExpression ∧
      ((tree.child? function "id").bind tree.name?) = some name := by
  refine or_congr (exists_congr fun node => and_congr_right fun hnode => ?_) ?_
  · exact exists_congr fun _ =>
      and_congr_left' (hbuilt.mem_declarationsAt_iff (Nat.lt_trans hnode hid)).symm
  · simp [Option.bind_eq_some_iff]

theorem isNearest_of_isUseIn (hfunction : tree.isFunction function)
    (hparameter : parameter ∈ tree.parameterNames function)
    (hnamed : tree.name? parameter = some name) (huse : tree.IsUseIn function name use) :
    tree.IsNearest (tree.Knows name) use function := by
  have hknows : tree.Knows name function := ⟨opensScope_of_isFunction hfunction, function, _,
    hbuilt.declares_of_mem_parameterNames hfunction hparameter, rfl, hnamed⟩
  refine ⟨huse.isAbove, hknows, fun other hother hknows' => ?_⟩
  rcases Within.total hother.to_reflTransGen huse.isAbove.to_reflTransGen with hup | hup
  · rcases Relation.reflTransGen_iff_eq_or_transGen.mp hup with rfl | hup
    · exact .refl
    · exact absurd hknows' (huse.not_knows other hother hup)
  · exact hup

end IsBuilt

end Tree

namespace Scopes

open ReactiveLint.Tree

variable {tree : Tree} {function parameter use : NodeId} {name : String}

/-- A predicate whose parameter has uses is not reported. -/
theorem checkTakeWhile_eq_nil {file : FileContext} {first : NodeId}
    (hfirst : (file.tree.list function "params").first? = some first)
    (hused : file.tree.kind first = .identifier → file.scopes.references first ≠ []) :
    Rules.checkTakeWhile file function = [] := by
  have hkept : Rules.ignoresValue file function = false := by
    simpa [Rules.ignoresValue, hfirst, is] using hused
  rw [Rules.checkTakeWhile]
  split
  next => rfl
  next => simp [hkept]

/-- A use inside a function refers to the parameter of its name exactly when no other
declaration takes the name over, and then a predicate is not reported as one that ignores
the parameter. -/
theorem resolve?_eq_parameter_iff {drafts : List NodeDraft} {root : NodeId} {source : String}
    (hbuild : build? drafts root source = .ok tree) (hfunction : tree.isFunction function)
    (hparameter : parameter ∈ tree.parameterNames function)
    (hnamed : tree.name? parameter = some name) (hdistinct : tree.HasDistinctParameters function)
    (huse : tree.IsUseIn function name use) :
    ((analyze tree).resolve? use = some parameter ↔ ¬ tree.IsOvertaken function name) ∧
    (¬ tree.IsOvertaken function name → ∀ file : FileContext, file.tree = tree →
      file.scopes = analyze tree → ∀ first,
        (tree.list function "params").first? = some first →
        parameter ∈ tree.patternNames first → Rules.checkTakeWhile file function = []) := by
  have hbuilt := isBuilt_of_build? hbuild
  have hnearest := hbuilt.isNearest_of_isUseIn hfunction hparameter hnamed huse
  have hresolution := isResolution_of_isBuilt hbuilt
  obtain ⟨target, hresolve, hfirst⟩ :
      ∃ target, (analyze tree).resolve? use = some target ∧ tree.IsFirst function name target := by
    obtain ⟨above, hparent, -⟩ := Relation.TransGen.head'_iff.mp huse.isAbove
    have hsome := (hresolution.resolves_iff use (hbuilt.lt_of_parent? hparent) huse.kind_eq
      huse.not_isDeclared).mpr
        ⟨huse.isReference, name, function, huse.name?_eq, huse.isAbove, hnearest.fit⟩
    obtain ⟨target, hresolve⟩ := Option.isSome_iff_exists.mp hsome
    obtain ⟨-, name', scope, hname, hscope, hfirst⟩ :=
      hresolution.resolves_to use target huse.not_isDeclared hresolve
    obtain rfl : name = name' := Option.some.inj (huse.name?_eq.symm.trans hname)
    obtain rfl : scope = function := hscope.unique hbuilt hnearest
    exact ⟨target, hresolve, hfirst⟩
  have hiff : (analyze tree).resolve? use = some parameter ↔ ¬ tree.IsOvertaken function name := by
    rw [hresolve, Option.some.injEq]
    exact hbuilt.eq_parameter_iff_of_isFirst hfunction hparameter hnamed hdistinct hfirst
  refine ⟨hiff, ?_⟩
  rintro hfree file rfl hscopes first hparams hpattern
  refine checkTakeWhile_eq_nil hparams fun hkind => ?_
  have hlt : first < file.tree.size :=
    hbuilt.lt_of_parent? (hbuilt.parent?_of_mem_list (List.mem_of_head? hparams))
  -- a parameter that is a plain name binds itself
  obtain rfl : first = parameter := by
    cases (hbuilt.mem_patternNames_iff hlt).mp hpattern <;> simp_all
  have hmem := (hresolution.mem_references_iff first use).mpr
    ⟨huse.not_isDeclared, hiff.mpr hfree⟩
  rw [hscopes]
  exact List.ne_nil_of_mem hmem

/-! ## A predicate with a name of its own -/

/-- Whether a use stands inside a function can be computed. -/
theorem isUseIn_of_mem_ancestors (hbuilt : tree.IsBuilt) (hid : use < tree.size)
    (hkind : tree.kind use = .identifier) (hname : tree.name? use = some name)
    (hreference : tree.isReference use = true)
    (hdeclared : tree.declarations.any (·.identifier == use) = false)
    (habove : function ∈ tree.ancestors use)
    (hfree : ∀ scope ∈ tree.ancestors use, function ∈ tree.ancestors scope →
      ¬ (tree.opensScope scope = true ∧
        (declared? tree tree.declarations scope name).isSome = true)) :
    tree.IsUseIn function name use where
  kind_eq := hkind
  name?_eq := hname
  isReference := hreference
  not_isDeclared := by rw [← any_declarations_iff hbuilt, hdeclared]; exact Bool.false_ne_true
  isAbove := (hbuilt.mem_ancestors_iff hid).mp habove
  not_knows scope hscope hfunction := by
    rw [knows_iff hbuilt]
    exact hfree scope ((hbuilt.mem_ancestors_iff hid).mpr hscope)
      ((hbuilt.mem_ancestors_iff (hscope.lt_size hbuilt)).mpr hfunction)

/-- The arena of `predicateText` for a name of five letters. -/
def predicateArena (own : String) : List NodeDraft :=
  [ ⟨.identifier, ⟨9, 18⟩, [("name", .value (.text "takeWhile"))]⟩
  , ⟨.identifier, ⟨9, 18⟩, [("name", .value (.text "takeWhile"))]⟩
  , ⟨.importSpecifier, ⟨9, 18⟩, [("imported", .node 0), ("local", .node 1)]⟩
  , ⟨.literal, ⟨26, 32⟩, [("value", .value (.text "rxjs"))]⟩
  , ⟨.importDeclaration, ⟨0, 33⟩, [("specifiers", .list [some 2]), ("source", .node 3)]⟩
  , ⟨.identifier, ⟨34, 43⟩, [("name", .value (.text "takeWhile"))]⟩
  , ⟨.identifier, ⟨53, 58⟩, [("name", .value (.text own))]⟩
  , ⟨.identifier, ⟨59, 64⟩, [("name", .value (.text "value"))]⟩
  , ⟨.identifier, ⟨75, 80⟩, [("name", .value (.text "value"))]⟩
  , ⟨.returnStatement, ⟨68, 81⟩, [("argument", .node 8)]⟩
  , ⟨.blockStatement, ⟨66, 83⟩, [("body", .list [some 9])]⟩
  , ⟨.functionExpression, ⟨44, 83⟩,
      [("id", .node 6), ("params", .list [some 7]), ("body", .node 10)]⟩
  , ⟨.callExpression, ⟨34, 84⟩, [("callee", .node 5), ("arguments", .list [some 11])]⟩
  , ⟨.expressionStatement, ⟨34, 85⟩, [("expression", .node 12)]⟩
  , ⟨.program, ⟨0, 85⟩, [("body", .list [some 4, some 13])]⟩ ]

def predicateText (own : String) : String :=
  "import \x7b takeWhile \x7d from 'rxjs';\ntakeWhile(function " ++ own ++
    "(value) \x7b return value; \x7d);"

def predicateTree (own : String) : Tree :=
  (build? (predicateArena own) 14 (predicateText own)).toOption.getD default

theorem predicateTree_evaluated :
    ∀ own ∈ ["check", "value"],
      (build? (predicateArena own) 14 (predicateText own)).isOk = true ∧
        (predicateTree own).isFunction 11 = true ∧ 7 ∈ (predicateTree own).parameterNames 11 ∧
        (predicateTree own).name? 7 = some "value" ∧
        (predicateTree own).HasDistinctParameters 11 ∧ 8 < (predicateTree own).size ∧
        (predicateTree own).kind 8 = .identifier ∧
        (predicateTree own).name? 8 = some "value" ∧
        (predicateTree own).isReference 8 = true ∧
        (predicateTree own).declarations.any (·.identifier == 8) = false ∧
        11 ∈ (predicateTree own).ancestors 8 ∧
        ∀ scope ∈ (predicateTree own).ancestors 8, 11 ∈ (predicateTree own).ancestors scope →
          ¬ ((predicateTree own).opensScope scope = true ∧
            (declared? (predicateTree own) (predicateTree own).declarations scope
              "value").isSome = true) := by
  decide +kernel

theorem isUseIn_predicateTree {own : String} (hown : own ∈ ["check", "value"]) :
    build? (predicateArena own) 14 (predicateText own) = .ok (predicateTree own) ∧
      (predicateTree own).IsUseIn 11 "value" 8 := by
  obtain ⟨hok, -, -, -, -, hid, hkind, hname, hreference, hdeclared, habove, hfree⟩ :=
    predicateTree_evaluated own hown
  have hbuild : build? (predicateArena own) 14 (predicateText own) = .ok (predicateTree own) :=
    eq_ok_of_isOk hok default
  exact ⟨hbuild, isUseIn_of_mem_ancestors (isBuilt_of_build? hbuild) hid hkind hname hreference
    hdeclared habove hfree⟩

/-- In a predicate of another name a use of the value counts. -/
theorem resolve?_predicateTree_check :
    (analyze (predicateTree "check")).resolve? 8 = some 7 ∧
      ∀ path types, Rules.checkTakeWhile
        ⟨path, predicateTree "check", types, analyze (predicateTree "check")⟩ 11 = [] := by
  have hown : "check" ∈ ["check", "value"] := by simp
  obtain ⟨hbuild, huse⟩ := isUseIn_predicateTree hown
  obtain ⟨-, hfunction, hparameter, hnamed, hdistinct, -⟩ := predicateTree_evaluated _ hown
  have hfree : ¬ (predicateTree "check").IsOvertaken 11 "value" := by
    rw [(isBuilt_of_build? hbuild).isOvertaken_iff (by decide)]
    decide
  obtain ⟨hiff, hsilent⟩ :=
    resolve?_eq_parameter_iff hbuild hfunction hparameter hnamed hdistinct huse
  exact ⟨hiff.mpr hfree, fun path types => hsilent hfree _ rfl rfl 7 (by decide) (by decide)⟩

/-- A parameter does not own its uses in a predicate of the same name. -/
theorem not_forall_resolve?_eq_parameter :
    ¬ ∀ (drafts : List NodeDraft) (root : NodeId) (source : String) (tree : Tree),
      build? drafts root source = .ok tree →
      ∀ (function parameter use : NodeId) (name : String), tree.isFunction function →
      parameter ∈ tree.parameterNames function → tree.name? parameter = some name →
      tree.HasDistinctParameters function → tree.IsUseIn function name use →
      (analyze tree).resolve? use = some parameter := by
  intro hall
  have hown : "value" ∈ ["check", "value"] := by simp
  obtain ⟨hbuild, huse⟩ := isUseIn_predicateTree hown
  obtain ⟨-, hfunction, hparameter, hnamed, hdistinct, -⟩ := predicateTree_evaluated _ hown
  have hresolve := hall _ _ _ _ hbuild 11 7 8 "value" hfunction hparameter hnamed hdistinct huse
  exact absurd hresolve (by decide)

end Scopes

end ReactiveLint
