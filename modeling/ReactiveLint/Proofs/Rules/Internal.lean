import ReactiveLint.Proofs.Directive.Reading
import ReactiveLint.Proofs.Pattern.Words
import ReactiveLint.Proofs.Rules.Checks
import ReactiveLint.Proofs.Rules.Fixing
import ReactiveLint.Proofs.Selector.Attributes
import ReactiveLint.Proofs.Selector.Downward
import ReactiveLint.Proofs.Sketch.Imports

/-!
# Imports from internal locations

The rule against internal locations reports the source of an import by its value and makes the
new source from the text.  On programs of imports both are the literal of the import, so that what
is reported are the internal sources, and what the fixes leave is the program of the settled
imports, in which nothing is reported any more.
-/

namespace ReactiveLint.Rules

open Sketch

variable {tree : Tree} {file : FileContext} {source : NodeId} {rule : Rule} {options : Json}
  {severity : Severity}

/-! ## The check -/

/-- What is reported of the source of an import: its text in the settled import is a fix and a
suggestion. -/
def settlingReport (tree : Tree) (item : Import) (source : NodeId) : Report :=
  let edits := [tree.replaceNode source (String.ofList item.settled.literal.source)]
  ((tree.report "forbidden" source).fixedBy edits).suggesting "suggest" edits

/-- The selector of the rule, as it is read. -/
def internalSelector : Selector :=
  .combine .child (.kind .importDeclaration)
    (.compound [.kind .literal, .field ["source"],
      .equals ["value"] (.pattern "^rxjs/internal"
        (.lead (.anchor .textStart) (.ofWord "rxjs/internal".toList)))])

/-- Whether the value of a node is an internal location. -/
def hasInternalValue (tree : Tree) (source : NodeId) : Bool :=
  (tree.str? source "value").any fun location =>
    "rxjs/internal".toList.isPrefixOf location.toList

theorem isMatch_internalSelector_iff :
    internalSelector.isMatch tree source = true ↔
      tree.is source .literal = true ∧ tree.fieldName? source = some "source" ∧
        hasInternalValue tree source = true ∧
          ∃ declaration, tree.parent? source = some declaration ∧
            tree.is declaration .importDeclaration = true := by
  have hslot : IsSlotName "value" := by decide
  have hprefix : (Pattern.lead (.anchor .textStart) (.ofWord "rxjs/internal".toList)).isMatch =
      fun location => "rxjs/internal".toList.isPrefixOf location.toList := by
    funext location
    rw [Bool.eq_iff_iff, Pattern.isMatch_textStart_ofWord_iff, List.isPrefixOf_iff_prefix]
  simp only [internalSelector, Selector.isMatch_child_iff, Selector.isMatch_kind,
    Selector.isMatch_compound_cons, Selector.isMatch_compound_nil, Selector.isMatch_field_singleton,
    Selector.isMatch_equals_pattern hslot, hprefix, hasInternalValue, Bool.and_eq_true, beq_iff_eq,
    and_true, and_assoc]

def internalTrigger : Trigger :=
  ⟨r"ImportDeclaration > Literal.source[value=/^rxjs\/internal/]", internalSelector, false, _, rfl⟩

def internalRule : Rule := .ofCheck noInternalInfo internalTrigger checkInternal

set_option maxRecDepth 4000 in
theorem ofChecks?_internalRule : Rule.ofChecks? noInternalInfo
    [(r"ImportDeclaration > Literal.source[value=/^rxjs\/internal/]", checkInternal)] =
      .ok internalRule := by
  have htrigger : Trigger.parse r"ImportDeclaration > Literal.source[value=/^rxjs\/internal/]" =
      .ok internalTrigger :=
    Trigger.parse_eq_ok (by decide +kernel) (by decide +kernel) rfl
  exact Rule.ofChecks?_singleton htrigger

/-- Whatever options the rule accepts, it is the same. -/
theorem eq_internalRule_of_make (hmake : noInternal.make options = .ok rule) :
    rule = internalRule :=
  BuiltInRule.eq_of_ofHandlers_make ofChecks?_internalRule hmake

/-- The diagnostic of a report with one edit makes this edit. -/
theorem makes_of_isDiagnosis {report : Report} {info : RuleInfo} {path text : String}
    {diagnostic : Diagnostic} {edit : Edit}
    (hdiagnosis : report.IsDiagnosis info severity path text diagnostic)
    (hedit : report.fix = some [edit]) : diagnostic.Makes edit := by
  have hfix := hdiagnosis.fix
  rw [hedit] at hfix
  generalize hmade : diagnostic.fix = made at hfix
  cases hfix with
  | @some _ fix hmakes =>
      have hedits : fix.edits = [edit] := (Fix.ofEdits?_eq_ok_iff.mp hmakes).2.2
      rw [Diagnostic.Makes, hmade, ← hedits]

theorem isSound_internalRule : internalRule.IsSound :=
  isSound_noInternal .null internalRule (BuiltInRule.ofHandlers_make_null ofChecks?_internalRule)

/-- What is reported of a source, by its text. -/
def internalReport (tree : Tree) (source : NodeId) : Report :=
  let report := tree.report "forbidden" source
  match publicLiteral? (tree.text source) with
  | some text =>
      let edits := [tree.replaceNode source text]
      (report.fixedBy edits).suggesting "suggest" edits
  | none => report

theorem checkInternal_eq : checkInternal file source = [internalReport file.tree source] := by
  rw [checkInternal, internalReport]
  cases publicLiteral? (file.tree.text source) <;> rfl

/-- Whether the rule reports at an event. -/
def isInternalOn (tree : Tree) (event : Event) : Bool :=
  event.phase == .enter && internalSelector.isMatch tree event.node

theorem writes_checkInternal :
    checkInternal.Writes file internalTrigger (isInternalOn file.tree) fun source =>
      [internalReport file.tree source] := by
  rintro ⟨source, phase⟩
  rw [checkInternal_eq]
  cases phase with
  | exit => rfl
  | enter =>
      have hfires : internalTrigger.fires file.tree ⟨source, .enter⟩ =
          internalSelector.isMatch file.tree source := rfl
      rw [hfires]
      rfl

/-! ## Programs of imports -/

/-- The imports from internal locations, with the sources that stand for them. -/
def internalSources (imports : List Import) (tree : Tree) : List (Import × NodeId) :=
  (imports.zip tree.importSources).filter (·.1.isInternal)

theorem map_snd_filter_zip {A B : Type*} {rel : A → B → Prop} {left : A → Bool} {right : B → Bool}
    (hrel : ∀ item item', rel item item' → left item = right item') {items : List A}
    {items' : List B} (hitems : List.Forall₂ rel items items') :
    ((items.zip items').filter (left ·.1)).map Prod.snd = items'.filter right := by
  induction hitems with
  | nil => rfl
  | @cons item item' _ _ hitem _ ih =>
      rw [List.zip_cons_cons, List.filter_cons, List.filter_cons, hrel item item' hitem]
      split
      next => rw [List.map_cons, ih]
      next => exact ih

section Importing

variable {imports : List Import} {built : Built} {item : Import}
  (hbuilt : (importing imports).IsBuiltAs built)

include hbuilt

theorem origin_of_mem_zip (hmem : (item, source) ∈ imports.zip built.tree.importSources) :
    (importing imports).origins[source]? = some (.drawn item.literal) :=
  List.forall₂_zip (forall₂_importSources hbuilt) hmem

/-- A node that stands for a literal is the source of an import. -/
theorem exists_mem_zip_of_literal {part : Sketch}
    (hpart : (importing imports).origins[source]? = some (.drawn part))
    (hkind : part.kind = .literal) :
    ∃ item, (item, source) ∈ imports.zip built.tree.importSources := by
  have hid : source < built.tree.size :=
    hbuilt.size_eq ▸ (List.getElem?_eq_some_iff.mp hpart).1
  have hliteral : built.tree.kind source = .literal :=
    (hbuilt.depicts source _ hpart).kind_eq.trans hkind
  have hmem : source ∈ built.tree.importSources := by
    rw [importSources_eq hbuilt]
    exact List.mem_filter.mpr ⟨List.mem_range.mpr hid, beq_iff_eq.mpr hliteral⟩
  rw [← List.map_snd_zip (forall₂_importSources hbuilt).length_eq.ge, List.mem_map] at hmem
  obtain ⟨⟨item, _⟩, hmem, rfl⟩ := hmem
  exact ⟨item, hmem⟩

theorem hasInternalValue_literal
    (horigin : (importing imports).origins[source]? = some (.drawn item.literal)) :
    hasInternalValue built.tree source = item.isInternal := by
  have hfields := hbuilt.fields_of_noSlots horigin rfl
  have hvalue : built.tree.str? source "value" = some item.location := by
    rw [Tree.str?, Tree.value?, Tree.slot?, hfields]
    rfl
  rw [hasInternalValue, hvalue]
  rfl

theorem isMatch_internalSelector_importing_iff :
    internalSelector.isMatch built.tree source = true ↔
      source ∈ built.tree.importSources.filter (hasInternalValue built.tree) := by
  have hsources := importSources_eq hbuilt
  rw [isMatch_internalSelector_iff, List.mem_filter]
  constructor
  · rintro ⟨hliteral, -, hvalue, declaration, hparent, -⟩
    have hid := List.mem_range.mpr (hbuilt.isBuilt.lt_of_parent? hparent)
    exact ⟨hsources ▸ List.mem_filter.mpr ⟨hid, hliteral⟩, hvalue⟩
  · rintro ⟨hmem, hvalue⟩
    have hsource := (List.mem_filter.mp hmem).2
    rw [Tree.isImportSource, Option.any_eq_true] at hsource
    obtain ⟨declaration, hparent, hsource⟩ := hsource
    obtain ⟨hdeclaration, hchild⟩ := Bool.and_eq_true_iff.mp hsource
    rw [hsources] at hmem
    exact ⟨(List.mem_filter.mp hmem).2,
      hbuilt.isBuilt.fieldName?_of_child? (beq_iff_eq.mp hchild), hvalue, declaration, hparent,
      hdeclaration⟩

/-- The sources with internal values are those of the internal imports. -/
theorem map_snd_internalSources :
    (internalSources imports built.tree).map Prod.snd =
      built.tree.importSources.filter (hasInternalValue built.tree) := by
  have hvalue : ∀ (item : Import) (source : NodeId),
      (importing imports).origins[source]? = some (.drawn item.literal) →
        item.isInternal = hasInternalValue built.tree source :=
    fun _ _ horigin => (hasInternalValue_literal hbuilt horigin).symm
  exact map_snd_filter_zip hvalue (forall₂_importSources hbuilt)

theorem nodup_internalSources : ((internalSources imports built.tree).map Prod.snd).Nodup := by
  rw [map_snd_internalSources hbuilt]
  exact (List.nodup_range.filter _).filter _

/-- The text of an internal source is that of its literal, which leads to the settled one. -/
theorem internalReport_eq (hmem : (item, source) ∈ internalSources imports built.tree) :
    internalReport built.tree source = settlingReport built.tree item source := by
  obtain ⟨hmem, hinternal⟩ := List.mem_filter.mp hmem
  have htext : built.tree.text source = String.ofList item.literal.source :=
    hbuilt.text_eq source (.drawn item.literal) (origin_of_mem_zip hbuilt hmem)
  simp only [internalReport, htext, Import.publicLiteral?_source hinternal, settlingReport]

/-- The nodes on which the rule reports are the internal sources. -/
theorem perm_nodesOn_isInternalOn :
    (Event.nodesOn (isInternalOn built.tree) built.tree.walk).Perm
      ((internalSources imports built.tree).map Prod.snd) := by
  have hnodup : (Event.nodesOn (isInternalOn built.tree) built.tree.walk).Nodup := by
    apply Event.nodup_nodesOn hbuilt.isBuilt.nodup_walk
    intro source phase phase' hleft hright
    rw [isInternalOn, Bool.and_eq_true, beq_iff_eq] at hleft hright
    exact hleft.1.trans hright.1.symm
  rw [List.perm_ext_iff_of_nodup hnodup (nodup_internalSources hbuilt)]
  intro source
  rw [map_snd_internalSources hbuilt, ← isMatch_internalSelector_importing_iff hbuilt,
    Event.mem_nodesOn_iff]
  simp only [hbuilt.isBuilt.mem_walk_iff, isInternalOn, Bool.and_eq_true, beq_iff_eq]
  constructor
  · rintro ⟨phase, -, -, hmatch⟩
    exact hmatch
  · intro hmatch
    obtain ⟨-, -, -, declaration, hparent, -⟩ := isMatch_internalSelector_iff.mp hmatch
    exact ⟨.enter, hbuilt.isBuilt.lt_of_parent? hparent, rfl, hmatch⟩

/-- The texts for the internal sources are those that settle the literals. -/
theorem perm_chosenBy_settledText? :
    ((internalSources imports built.tree).map fun (item, source) =>
      (source, String.ofList item.settled.literal.source)).Perm
        (chosenBy settledText? (importing imports)) := by
  have hsources : (((internalSources imports built.tree).map fun (item, source) =>
      (source, String.ofList item.settled.literal.source)).map Prod.fst).Nodup := by
    rw [List.map_map]
    exact nodup_internalSources hbuilt
  have hchosen := (isChoice_chosenBy hbuilt (givesLeaves_settledText? imports)).nodup
  rw [List.perm_ext_iff_of_nodup (hsources.of_map _) (hchosen.of_map _)]
  rintro ⟨source, text⟩
  rw [List.mem_map, mem_chosenBy_iff]
  constructor
  · rintro ⟨⟨item, _⟩, hmem, heq⟩
    obtain ⟨rfl, rfl⟩ := Prod.mk.inj heq
    obtain ⟨hmem, hinternal⟩ := List.mem_filter.mp hmem
    refine ⟨item.literal, origin_of_mem_zip hbuilt hmem, ?_⟩
    rw [settledText?_literal, if_pos hinternal]
  · rintro ⟨part, hpart, hgive⟩
    have hkind : part.kind = .literal := by
      by_contra hkind
      rw [settledText?_of_kind_ne hkind] at hgive
      cases hgive
    obtain ⟨item, hmem⟩ := exists_mem_zip_of_literal hbuilt hpart hkind
    obtain rfl := Origin.drawn.inj
      (Option.some.inj (hpart.symm.trans (origin_of_mem_zip hbuilt hmem)))
    rw [settledText?_literal, Option.ite_none_right_eq_some, Option.some_inj] at hgive
    obtain ⟨hinternal, rfl⟩ := hgive
    exact ⟨(item, source), List.mem_filter.mpr ⟨hmem, hinternal⟩, rfl⟩

end Importing

section Linting

variable {imports : List Import} {built : Built} (hbuild : (importing imports).build? = .ok built)

include hbuild

/-- The internal sources stand one behind the other. -/
theorem pairwise_internalSources :
    (internalSources imports built.tree).Pairwise fun left right =>
      (built.tree.span left.2).start < (built.tree.span right.2).start := by
  have hbuilt := isBuiltAs_of_build? hbuild
  have hchoice := isChoice_chosenBy hbuilt (givesLeaves_settledText? imports)
  have hids : (built.tree.importSources.filter (hasInternalValue built.tree)).Pairwise (· < ·) :=
    (List.pairwise_lt_range.filter _).filter _
  rw [← map_snd_internalSources hbuilt, List.pairwise_map] at hids
  refine (List.Pairwise.and_mem.mp hids).imp ?_
  rintro left right ⟨hleft, hright, hlt⟩
  have hleft := (perm_chosenBy_settledText? hbuilt).subset (List.mem_map_of_mem hleft)
  have hright := (perm_chosenBy_settledText? hbuilt).subset (List.mem_map_of_mem hright)
  exact Nat.lt_of_lt_of_le (hchoice.start_lt_stop hbuilt hleft)
    (hchoice.stop_le_start hbuild hleft hright hlt)

/-- Without directives the rule reports the internal sources, in order. -/
theorem areDiagnosed_lintWith_empty (path : String) (types : Option TypeTable)
    (scopes : Option Scopes) (severity : Severity) :
    Report.AreDiagnosed (SourceFile.context ⟨path, built.tree, types, scopes⟩) noInternalInfo
      severity
      ((internalSources imports built.tree).map fun (item, source) =>
        settlingReport built.tree item source)
      ((Linter.only ⟨internalRule, severity⟩).lintWith {}
        ⟨path, built.tree, types, scopes⟩).diagnostics := by
  have hbuilt := isBuiltAs_of_build? hbuild
  have htree : (SourceFile.mk path built.tree types scopes).tree.IsBuilt := hbuilt.isBuilt
  obtain ⟨diagnostics, hdiagnosed, hlint⟩ := Linter.exists_areDiagnosed_ofCheck htree
    isSound_internalRule rfl writes_checkInternal severity
  have hreports : ((internalSources imports built.tree).map Prod.snd).map
      (internalReport built.tree) = (internalSources imports built.tree).map fun (item, source) =>
        settlingReport built.tree item source := by
    rw [List.map_map]
    exact List.map_congr_left fun _ hmem => internalReport_eq hbuilt hmem
  have hperm : ((Event.nodesOn (isInternalOn built.tree) built.tree.walk).flatMap fun source =>
      [internalReport built.tree source]).Perm
        ((internalSources imports built.tree).map fun (item, source) =>
          settlingReport built.tree item source) := by
    rw [← List.map_eq_flatMap, ← hreports]
    exact (perm_nodesOn_isInternalOn hbuilt).map _
  rw [internalRule, hlint]
  exact hdiagnosed.inOrder hperm (List.pairwise_map.mpr (pairwise_internalSources hbuild))

/-- The fixes of what is reported are applied and settle the imports. -/
theorem applyFixes_of_areDiagnosed {path : String} {severity : Severity}
    {diagnostics : List Diagnostic}
    (hdiagnosed : List.Forall₂
      (fun report diagnostic => report.IsDiagnosis noInternalInfo severity path
        built.tree.source diagnostic)
      ((internalSources imports built.tree).map fun (item, source) =>
        settlingReport built.tree item source) diagnostics) :
    (applyFixes built.tree.source diagnostics).skipped = 0 ∧
      (applyFixes built.tree.source diagnostics).output =
        String.ofList (importing (imports.map Import.settled)).source := by
  have hedits := (perm_chosenBy_settledText? (isBuiltAs_of_build? hbuild)).map fun choice =>
    built.tree.replaceNode choice.1 choice.2
  rw [List.map_map] at hedits
  have hmakes : List.Forall₂ Diagnostic.Makes
      ((internalSources imports built.tree).map fun (item, source) =>
        built.tree.replaceNode source (String.ofList item.settled.literal.source))
      diagnostics := by
    rw [List.forall₂_map_left_iff] at hdiagnosed ⊢
    exact hdiagnosed.imp fun _ _ hdiagnosis => makes_of_isDiagnosis hdiagnosis rfl
  have hfixed := applyFixes_rewritten hbuild (givesLeaves_settledText? imports) hedits hmakes
  rwa [source_rewritten_importing] at hfixed

end Linting

theorem internalSources_settled (imports : List Import) (tree : Tree) :
    internalSources (imports.map Import.settled) tree = [] := by
  apply List.filter_eq_nil_iff.mpr
  rintro ⟨item, source⟩ hmem
  obtain ⟨hitem, -⟩ := List.of_mem_zip hmem
  obtain ⟨given, -, rfl⟩ := List.mem_map.mp hitem
  rw [given.isInternal_settled]
  exact Bool.false_ne_true

/-- What a rule does to a program of imports: it reports the sources of the internal ones, and
these alone, its fixes are all applied and make the program of the settled imports, and there it
reports nothing. -/
structure Settles (rule : Rule) (severity : Severity) (imports : List Import)
    (built fixed : Built) : Prop where
  /-- The sources of the tree are the literals of the imports, one for each. -/
  sources : List.Forall₂ (fun item source =>
    built.tree.text source = String.ofList item.literal.source) imports built.tree.importSources
  reported : ∀ path types scopes, List.Forall₂ (fun (item, source) diagnostic =>
      (settlingReport built.tree item source).IsDiagnosis noInternalInfo severity path
        built.tree.source diagnostic)
    (internalSources imports built.tree)
    ((Linter.only ⟨rule, severity⟩).lintFile ⟨path, built.tree, types, scopes⟩).diagnostics
  skipped : ∀ path types scopes, (applyFixes built.tree.source
    ((Linter.only ⟨rule, severity⟩).lintFile
      ⟨path, built.tree, types, scopes⟩).diagnostics).skipped = 0
  output : ∀ path types scopes, (applyFixes built.tree.source
    ((Linter.only ⟨rule, severity⟩).lintFile
      ⟨path, built.tree, types, scopes⟩).diagnostics).output = fixed.tree.source
  silent : ∀ path types scopes,
    ((Linter.only ⟨rule, severity⟩).lintFile ⟨path, fixed.tree, types, scopes⟩).diagnostics = []

/-- Without directives in a program of imports, with any specifiers from any locations in quotes of
either kind, the rule against internal locations settles it in one pass. -/
theorem noInternal_settles (imports : List Import)
    (hplain : (Directives.parse (String.ofList (importing imports).source)).isEmpty = true)
    (hmake : noInternal.make options = .ok rule) (severity : Severity) :
    ∃ built fixed, (importing imports).build? = .ok built ∧
      (importing (imports.map Import.settled)).build? = .ok fixed ∧
        Settles rule severity imports built fixed := by
  obtain rfl := eq_internalRule_of_make hmake
  obtain ⟨built, hbuild⟩ := exists_build? (importing imports)
  obtain ⟨fixed, hfixed⟩ := exists_build? (importing (imports.map Import.settled))
  have hbuilt := isBuiltAs_of_build? hbuild
  have hreported (path : String) (types : Option TypeTable) (scopes : Option Scopes) :
      Report.AreDiagnosed (SourceFile.context ⟨path, built.tree, types, scopes⟩) noInternalInfo
        severity ((internalSources imports built.tree).map fun (item, source) =>
          settlingReport built.tree item source)
        ((Linter.only ⟨internalRule, severity⟩).lintFile
          ⟨path, built.tree, types, scopes⟩).diagnostics := by
    rw [Linter.lintFile, hbuilt.source_eq, Directives.parse_eq_of_isEmpty hplain]
    exact areDiagnosed_lintWith_empty hbuild path types scopes severity
  have happlied (path : String) (types : Option TypeTable) (scopes : Option Scopes) :=
    applyFixes_of_areDiagnosed hbuild (hreported path types scopes)
  refine ⟨built, fixed, hbuild, hfixed, ?_, fun path types scopes => ?_, fun path types scopes => ?_,
    fun path types scopes => ?_, fun path types scopes => ?_⟩
  · exact (forall₂_importSources hbuilt).imp fun item source horigin => hbuilt.text_eq _ _ horigin
  · exact List.forall₂_map_left_iff.mp (hreported path types scopes)
  · exact (happlied path types scopes).1
  · rw [(isBuiltAs_of_build? hfixed).source_eq]
    exact (happlied path types scopes).2
  · have hnothing := areDiagnosed_lintWith_empty hfixed path types scopes severity
    rw [internalSources_settled] at hnothing
    rw [Linter.lintFile, Linter.diagnostics_lintWith_eq_filter,
      List.forall₂_nil_left_iff.mp hnothing, List.filter_nil]

/-- An import from an internal location and one from a public location, in different quotes. -/
def mixedImports : List Import :=
  [ ⟨[.named "ajax", .renamed "AjaxError" "E"], "rxjs/internal/ajax/index", .single⟩
  , ⟨[.whole "rx"], "rxjs", .double⟩ ]

theorem noInternal_settles_mixedImports :
    ∃ built fixed, (importing mixedImports).build? = .ok built ∧
      Settles internalRule .error mixedImports built fixed ∧
      built.tree.source =
        "import \x7b ajax, AjaxError as E \x7d from 'rxjs/internal/ajax/index';\n" ++
          "import * as rx from \"rxjs\";" ∧
      fixed.tree.source =
        "import \x7b ajax, AjaxError as E \x7d from 'rxjs/ajax';\nimport * as rx from \"rxjs\";" := by
  have hmake : noInternal.make .null = .ok internalRule :=
    BuiltInRule.ofHandlers_make_null ofChecks?_internalRule
  obtain ⟨built, fixed, hbuild, hfixed, hsettles⟩ :=
    noInternal_settles mixedImports (by decide +kernel) hmake .error
  refine ⟨built, fixed, hbuild, hsettles, ?_, ?_⟩
  · rw [(isBuiltAs_of_build? hbuild).source_eq]
    decide +kernel
  · rw [(isBuiltAs_of_build? hfixed).source_eq]
    decide +kernel

end ReactiveLint.Rules
