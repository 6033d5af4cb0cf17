import ReactiveLint.Proofs.Rules.Alias
import ReactiveLint.Proofs.Scope.Parameters
import ReactiveLint.Proofs.Syntax.Layout

/-!
# The text that an alias replaces

The rule `just` finds uses by node and replaces them by span.  What else stands in the
span of a use is renamed with it.  In a tree laid out as its text this happens below the
use, and in the other half of a shorthand: there the use has the text of a label, which
never belongs to the import.
-/

namespace ReactiveLint

namespace Tree

variable {tree : Tree} {id : NodeId} {field : String}

/-- The fields that hold declared names and the patterns around them. -/
def declaringFields : List String := ["id", "params", "param", "local"] ++ patternFields

/-- A name of a property or of an export, as opposed to a use of a binding. -/
def IsLabel (tree : Tree) (id : NodeId) : Prop :=
  ∃ whole ∈ tree.parent? id,
    tree.kind whole = .property ∧ tree.fieldName? id = some "key" ∧
        tree.flag whole "computed" = false ∨
      tree.kind whole = .exportSpecifier ∧ tree.fieldName? id = some "exported"

instance : DecidablePred tree.IsLabel := fun _ =>
  inferInstanceAs (Decidable (∃ whole ∈ _, _))

theorem IsLabel.fieldName?_eq (hlabel : tree.IsLabel id) :
    tree.fieldName? id = some "key" ∨ tree.fieldName? id = some "exported" := by
  obtain ⟨whole, -, ⟨-, hfield, -⟩ | ⟨-, hfield⟩⟩ := hlabel
  · exact .inl hfield
  · exact .inr hfield

theorem IsLabel.not_isReference (hlabel : tree.IsLabel id) : tree.isReference id = false := by
  obtain ⟨whole, hparent, ⟨hkind, hfield, hcomputed⟩ | ⟨hkind, hfield⟩⟩ := hlabel
  · simp [isReference, Option.mem_def.mp hparent, isReferenceField, hkind, hfield, hcomputed]
  · simp [isReference, Option.mem_def.mp hparent, isReferenceField, hkind, hfield]

namespace IsBuilt

variable (hbuilt : tree.IsBuilt)

include hbuilt

theorem fieldName?_of_binds {pattern name : NodeId} {outer : String}
    (hbinds : tree.Binds pattern name) (hpattern : tree.fieldName? pattern = some outer)
    (houter : outer ∈ declaringFields) :
    ∃ field ∈ declaringFields, tree.fieldName? name = some field := by
  rcases (hbuilt.reflTransGen_isPart hbinds).cases_head with rfl | ⟨whole, hpart, -⟩
  · exact ⟨outer, houter, hpattern⟩
  · obtain ⟨-, field, hfield, hname⟩ := hpart
    exact ⟨field, List.mem_append_right _ hfield, hname⟩

/-- Declared names stand in a few fields only. -/
theorem fieldName?_of_isDeclared (hdeclared : tree.IsDeclared id) :
    ∃ field ∈ declaringFields, tree.fieldName? id = some field := by
  obtain ⟨-, node, declaration, hdeclares, rfl⟩ := hdeclared
  cases hdeclares with
  | declarator _ _ hpattern hbinds | catchParameter _ hpattern hbinds =>
      exact hbuilt.fieldName?_of_binds hbinds (hbuilt.fieldName?_of_child? hpattern) (by decide)
  | parameter _ hpattern hbinds =>
      exact hbuilt.fieldName?_of_binds hbinds (hbuilt.fieldName?_of_mem_list hpattern) (by decide)
  | function _ hname | functionExpression _ hname | className _ hname | importName _ hname =>
      exact ⟨_, by decide, hbuilt.fieldName?_of_child? hname⟩

theorem not_isDeclared_of_isLabel (hlabel : tree.IsLabel id) : ¬ tree.IsDeclared id := by
  intro hdeclared
  obtain ⟨field, hfield, hname⟩ := hbuilt.fieldName?_of_isDeclared hdeclared
  rcases hlabel.fieldName?_eq with hlabel | hlabel <;>
    obtain rfl := Option.some.inj (hlabel.symm.trans hname) <;> exact absurd hfield (by decide)

end IsBuilt

end Tree

theorem Scopes.resolve?_of_isLabel {tree : Tree} (hbuilt : tree.IsBuilt) {id target : NodeId}
    (hlabel : tree.IsLabel id) : (analyze tree).resolve? id ≠ some target := by
  intro hresolve
  have hdeclared := hbuilt.not_isDeclared_of_isLabel hlabel
  have htarget := ((resolve?_eq_some_iff hbuilt hdeclared).mp hresolve).2
  have hreference := ((target?_eq_some_iff hbuilt).mp htarget).1.2.2
  exact absurd hreference (by simp [hlabel.not_isReference])

namespace Rules

section File

variable (file : FileContext) (specifier : NodeId)

/-- An identifier of what a specifier imports. -/
def IsOfImport (id : NodeId) : Prop :=
  file.tree.child? specifier "imported" = some id ∨
    ∃ localId ∈ file.tree.child? specifier "local",
      id = localId ∨ file.scopes.resolve? id = some localId

/-- The rule replaces no other identifier than those of what a specifier imports. -/
def KeepsToImport : Prop :=
  ∀ report ∈ (checkAlias file [] () specifier).reports, ∀ edit ∈ report.fix.getD [],
    ∀ id < file.tree.size, file.tree.kind id = .identifier →
      edit.span.contains (file.tree.span id) = true → IsOfImport file specifier id

/-- Another identifier than those of what a specifier imports. -/
def IsStranger (id : NodeId) : Prop :=
  file.tree.kind id = .identifier ∧ ¬ IsOfImport file specifier id

instance (id : NodeId) : Decidable (IsOfImport file specifier id) :=
  inferInstanceAs (Decidable (_ ∨ ∃ localId ∈ _, _))

instance : Decidable (KeepsToImport file specifier) :=
  inferInstanceAs (Decidable (∀ report ∈ _, ∀ edit ∈ _, ∀ id < _, _))

instance (id : NodeId) : Decidable (IsStranger file specifier id) :=
  inferInstanceAs (Decidable (_ ∧ _))

end File

section Reach

variable {file : SourceFile} {specifier : NodeId} (hscopes : file.scopes = none)

include hscopes

/-- The rule keeps to an import when no stranger stands in the text of a rename. -/
theorem keepsToImport_iff_renames : KeepsToImport file.context specifier ↔
    ∀ rename ∈ aliasRenames file.context specifier, ∀ id < file.tree.size,
      IsStranger file.context specifier id →
        (file.tree.span rename.node).contains (file.tree.span id) = false := by
  rw [KeepsToImport, reports_checkAlias, reachedRenames_eq hscopes, List.forall_mem_map]
  refine forall₂_congr fun rename _ => ?_
  have hedits : (rename.report file.context.tree).fix.getD [] = [rename.edit file.tree] := rfl
  rw [hedits, List.forall_mem_singleton]
  refine forall₂_congr fun id _ => ?_
  rw [IsStranger, and_imp, not_imp_comm, Bool.not_eq_false]
  rfl

theorem lt_size_of_mem_aliasRenames (hbuilt : file.tree.IsBuilt) {rename : Rename}
    (hrename : rename ∈ aliasRenames file.context specifier) : rename.node < file.tree.size := by
  have hspecifier : specifier < file.tree.size := by
    rw [aliasRenames, aliasUses?] at hrename
    split at hrename
    next himported _ => exact hbuilt.parent?_lt (hbuilt.parent?_of_child? himported)
    next => simp at hrename
  rw [← reachedRenames_eq hscopes] at hrename
  exact lt_size_of_mem_reached hspecifier hrename

theorem not_isOfImport_of_isLabel (hbuilt : file.tree.IsBuilt) {label : NodeId}
    (hlabel : file.tree.IsLabel label) : ¬ IsOfImport file.context specifier label := by
  have hfield : ∀ name, file.tree.fieldName? label = some name → name = "key" ∨ name = "exported" := by
    intro name hname
    rcases hlabel.fieldName?_eq with hlabel | hlabel
    · exact .inl (Option.some.inj (hname.symm.trans hlabel))
    · exact .inr (Option.some.inj (hname.symm.trans hlabel))
  rintro (himported | ⟨localId, hlocal, rfl | hresolve⟩)
  · exact absurd (hfield _ (hbuilt.fieldName?_of_child? himported)) (by decide)
  · exact absurd (hfield _ (hbuilt.fieldName?_of_child? hlocal)) (by decide)
  · rw [SourceFile.context, hscopes] at hresolve
    exact Scopes.resolve?_of_isLabel hbuilt hlabel hresolve

/-- In a tree laid out as its text, the rule keeps to an import exactly when no other
identifier is below a rename, or beside one in a shorthand.  Where a use has the text of a
label it never does. -/
theorem keepsToImport_iff {drafts : List NodeDraft} {root : NodeId} {source : String}
    (hbuild : Tree.build? drafts root source = .ok file.tree) :
    (file.tree.IsLaidOut → (KeepsToImport file.context specifier ↔
      ∀ rename ∈ aliasRenames file.context specifier, ∀ id < file.tree.size,
        IsStranger file.context specifier id →
          ¬ file.tree.Within id rename.node ∧
            ¬ (file.tree.IsBeside id rename.node ∧
              (file.tree.span rename.node).contains (file.tree.span id) = true))) ∧
    ∀ uses, aliasUses? file.context specifier = some uses → ∀ use ∈ uses,
      ∀ label < file.tree.size, file.tree.IsLabel label → file.tree.kind label = .identifier →
        file.tree.span label = file.tree.span use → ¬ KeepsToImport file.context specifier := by
  have hbuilt := Tree.isBuilt_of_build? hbuild
  constructor
  · intro hlaid
    rw [keepsToImport_iff_renames hscopes]
    refine forall₂_congr fun rename hrename => forall₃_congr fun id hid hstranger => ?_
    have hnode := lt_size_of_mem_aliasRenames hscopes hbuilt hrename
    constructor
    · intro hcontains
      refine ⟨fun hwithin => ?_, fun hbeside => ?_⟩
      · exact absurd (hlaid.contains_of_within hbuilt hwithin) (by simp [hcontains])
      · exact absurd hbeside.2 (by simp [hcontains])
    · rintro ⟨hwithin, hbeside⟩
      rw [Bool.eq_false_iff]
      intro hcontains
      rcases hlaid.within_or_isBeside hbuilt hnode hid hstranger.1 hcontains with h | h
      · exact hwithin h
      · exact hbeside ⟨h, hcontains⟩
  · intro uses huses use huse label hlt hlabel hkind hspan hkeeps
    have hrename : ⟨use, "just"⟩ ∈ aliasRenames file.context specifier := by
      rw [aliasRenames, huses]
      exact List.mem_cons_of_mem _ (List.mem_map_of_mem huse)
    have hout := (keepsToImport_iff_renames hscopes).mp hkeeps _ hrename label hlt
      ⟨hkind, not_isOfImport_of_isLabel hscopes hbuilt hlabel⟩
    rw [hspan, Span.contains_self] at hout
    exact Bool.noConfusion hout

end Reach

/-! ## A member named like its value -/

/-- The member `of: of` of an object, or its shorthand. -/
def memberText (isShort : Bool) : String := if isShort then "of" else "of: of"

/-- The arena of `memberSource`. -/
def memberArena (isShort : Bool) : List NodeDraft :=
  let shift := if isShort then 0 else 4
  [ ⟨.identifier, ⟨9, 11⟩, [("name", .value (.text "of"))]⟩
  , ⟨.identifier, ⟨9, 11⟩, [("name", .value (.text "of"))]⟩
  , ⟨.importSpecifier, ⟨9, 11⟩, [("imported", .node 0), ("local", .node 1)]⟩
  , ⟨.literal, ⟨19, 25⟩, [("value", .value (.text "rxjs"))]⟩
  , ⟨.importDeclaration, ⟨0, 26⟩, [("specifiers", .list [some 2]), ("source", .node 3)]⟩
  , ⟨.identifier, ⟨33, 34⟩, [("name", .value (.text "a"))]⟩
  , ⟨.identifier, ⟨39, 41⟩, [("name", .value (.text "of"))]⟩
  , ⟨.identifier, ⟨39 + shift, 41 + shift⟩, [("name", .value (.text "of"))]⟩
  , ⟨.property, ⟨39, 41 + shift⟩,
      [("key", .node 6), ("value", .node 7), ("shorthand", .value (.bool isShort)),
        ("computed", .value (.bool false))]⟩
  , ⟨.objectExpression, ⟨37, 43 + shift⟩, [("properties", .list [some 8])]⟩
  , ⟨.variableDeclarator, ⟨33, 43 + shift⟩, [("id", .node 5), ("init", .node 9)]⟩
  , ⟨.variableDeclaration, ⟨27, 44 + shift⟩,
      [("declarations", .list [some 10]), ("kind", .value (.text "const"))]⟩
  , ⟨.program, ⟨0, 44 + shift⟩, [("body", .list [some 4, some 11])]⟩ ]

def memberSource (isShort : Bool) : String :=
  "import \x7b of \x7d from 'rxjs';\nconst a = \x7b " ++ memberText isShort ++ " \x7d;"

def memberFile (isShort : Bool) : SourceFile where
  path := "a.ts"
  tree := (Tree.build? (memberArena isShort) 12 (memberSource isShort)).toOption.getD default

-- One evaluation, since reading the selector of the rule is most of the work.
set_option maxRecDepth 100000 in
theorem memberFile_evaluated :
    (∀ isShort, (Tree.build? (memberArena isShort) 12 (memberSource isShort)).isOk = true) ∧
    (memberFile false).tree.IsLaidOut ∧
    (∀ rename ∈ aliasRenames (memberFile false).context 2,
      ∀ id < (memberFile false).tree.size, IsStranger (memberFile false).context 2 id →
        ((memberFile false).tree.span rename.node).contains ((memberFile false).tree.span id) =
          false) ∧
    Reacts (defaultLinter ["just"]) (memberFile true) 2 ∧
    (memberFile true).tree.is 2 .importSpecifier ∧ ¬ KeepsToImport (memberFile true).context 2 := by
  decide +kernel

theorem build?_memberArena (isShort : Bool) :
    Tree.build? (memberArena isShort) 12 (memberSource isShort) = .ok (memberFile isShort).tree :=
  eq_ok_of_isOk (memberFile_evaluated.1 isShort) default

/-- A member written out keeps its name. -/
theorem keepsToImport_memberFile_long : KeepsToImport (memberFile false).context 2 := by
  obtain ⟨-, hlaid, hout, -⟩ := memberFile_evaluated
  have hbuild := build?_memberArena false
  have hbuilt := Tree.isBuilt_of_build? hbuild
  refine ((keepsToImport_iff rfl hbuild).1 hlaid).mpr fun rename hrename id hid hstranger => ?_
  have hout := hout rename hrename id hid hstranger
  refine ⟨fun hwithin => ?_, fun hbeside => ?_⟩
  · exact absurd (hlaid.contains_of_within hbuilt hwithin) (by simp [hout])
  · exact absurd hbeside.2 (by simp [hout])

/-- A shorthand member loses its name with the use. -/
theorem not_forall_keepsToImport :
    ¬ ∀ (file : SourceFile) (drafts : List NodeDraft) (root : NodeId) (source : String),
      Tree.build? drafts root source = .ok file.tree → file.scopes = none →
      ∀ specifier, file.tree.kind specifier = .importSpecifier →
        Reacts (defaultLinter ["just"]) file specifier →
          KeepsToImport file.context specifier := by
  intro hall
  obtain ⟨-, -, -, hreacts, hkind, hstray⟩ := memberFile_evaluated
  exact hstray (hall (memberFile true) _ _ _ (build?_memberArena true) rfl 2 (eq_of_beq hkind)
    hreacts)

end Rules

end ReactiveLint
