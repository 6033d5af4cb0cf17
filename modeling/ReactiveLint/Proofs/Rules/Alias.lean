import Mathlib.Data.List.TakeWhile
import ReactiveLint.Proofs.Data.Result
import ReactiveLint.Proofs.Engine.Invocations
import ReactiveLint.Proofs.Engine.Suppression
import ReactiveLint.Proofs.Rules.BuiltIn

/-!
# The alias of `of`

The rule `just` renames an import and its uses piece by piece, with a diagnostic and a
fix for each place.  Directives and the fixes of other rules decide on each piece for
itself, so the alias is made as a whole exactly when they decide on all alike.
-/

namespace ReactiveLint.Rules

/-- A node and the text that is to take its place. -/
structure Rename where
  node : NodeId
  text : String
deriving DecidableEq

namespace Rename

def edit (tree : Tree) (rename : Rename) : Edit := tree.replaceNode rename.node rename.text

def report (tree : Tree) (rename : Rename) : Report := renameTo tree rename.text rename.node

/-- The fix of a rename as a pass is offered it. -/
def offer (tree : Tree) (rename : Rename) : OfferedFix :=
  ⟨justInfo.name, ⟨[rename.edit tree]⟩⟩

def diagnostic (file : FileContext) (severity : Severity) (rename : Rename) : Diagnostic :=
  let location := Location.of file.path file.tree.source (file.tree.span rename.node)
  { ruleId := justInfo.name
    messageId := "forbidden"
    severity, location
    message := "Use just alias."
    sourceLine := Text.lineText? file.tree.source location.line
    fix := some ⟨[rename.edit file.tree]⟩ }

/-- The renames of a specifier and of uses of its local name. -/
def ofAlias (specifier : NodeId) (uses : List NodeId) : List Rename :=
  ⟨specifier, "of as just"⟩ :: uses.map (⟨·, "just"⟩)

end Rename

/-- The uses of the local name of a specifier without an alias. -/
def aliasUses? (file : FileContext) (specifier : NodeId) : Option (List NodeId) :=
  match file.tree.child? specifier "imported", file.tree.child? specifier "local" with
  | some imported, some localId =>
      if file.tree.span localId = file.tree.span imported then
        some (file.scopes.references localId)
      else none
  | _, _ => none

/-- All renames that the alias of a specifier takes. -/
def aliasRenames (file : FileContext) (specifier : NodeId) : List Rename :=
  (aliasUses? file specifier).elim [] (Rename.ofAlias specifier)

/-- The renames up to the first use that the tree does not have, where the rule ends. -/
def reachedRenames (file : FileContext) (specifier : NodeId) : List Rename :=
  (aliasUses? file specifier).elim [] fun uses =>
    Rename.ofAlias specifier (uses.takeWhile file.tree.contains)

variable {file : FileContext} {rules : List ConfiguredRule} {specifier : NodeId}
  {rename : Rename} {severity : Severity}

/-! ## What the rule reports -/

theorem reports_checkAlias (earlier : List Diagnostic) (state : Unit) :
    (checkAlias file earlier state specifier).reports =
      (reachedRenames file specifier).map (·.report file.tree) := by
  rw [checkAlias, reachedRenames, aliasUses?]
  cases file.tree.child? specifier "imported" with
  | none => rfl
  | some imported =>
      cases file.tree.child? specifier "local" with
      | none => rfl
      | some localId =>
          simp only
          split
          · simp [Rename.ofAlias, Rename.report, Function.comp_def]
          · rfl

theorem lt_size_of_mem_reached (hspecifier : specifier < file.tree.size)
    (hreached : rename ∈ reachedRenames file specifier) : rename.node < file.tree.size := by
  rw [reachedRenames] at hreached
  cases huses : aliasUses? file specifier with
  | none => simp [huses] at hreached
  | some uses =>
      rw [huses] at hreached
      rcases List.mem_cons.mp hreached with rfl | hreached
      · exact hspecifier
      · obtain ⟨use, huse, rfl⟩ := List.mem_map.mp hreached
        have hcontains : file.tree.contains use = true := List.mem_takeWhile_imp huse
        exact of_decide_eq_true hcontains

theorem diagnose_report (htree : file.tree.IsBuilt) (hnode : rename.node < file.tree.size) :
    (rename.report file.tree).diagnose justInfo severity file.path file.tree.source =
      .ok (rename.diagnostic file severity) := by
  have hfix : Fix.ofEdits? [rename.edit file.tree] (Text.byteLength file.tree.source.toList) =
      .ok ⟨[rename.edit file.tree]⟩ := by
    refine Fix.InOrder.ofEdits? ⟨?_, List.pairwise_singleton _ _⟩ (by simp)
    simpa [Rename.edit, Tree.replaceNode] using htree.span_fitsIn hnode
  have hbuild : Report.buildFix? justInfo file.tree.source (rename.report file.tree).fix =
      .ok (some ⟨[rename.edit file.tree]⟩) := by
    change Report.buildFix? justInfo file.tree.source (some [rename.edit file.tree]) = _
    simp only [Report.buildFix?, Report.buildFix, hfix]
    rfl
  have hrender : Report.render justInfo (rename.report file.tree).messageId
      (rename.report file.tree).data = .ok "Use just alias." := by
    change Report.render justInfo "forbidden" [] = _
    decide
  rw [Report.diagnose, hrender, hbuild]
  rfl

/-- On a built tree every report of a rename becomes a diagnostic. -/
theorem diagnoseAll_reports (htree : file.tree.IsBuilt) {renames : List Rename}
    (hrenames : ∀ rename ∈ renames, rename.node < file.tree.size) :
    (Progress.diagnoseAll file justInfo severity (renames.map (·.report file.tree))).1 =
      renames.map (·.diagnostic file severity) := by
  induction renames with
  | nil => rfl
  | cons rename renames ih =>
      obtain ⟨hrename, hrenames⟩ := List.forall_mem_cons.mp hrenames
      rw [List.map_cons, Progress.diagnoseAll, diagnose_report htree hrename, List.map_cons,
        ← ih hrenames]

/-- A built-in rule of this name has one listener, which reports as above. -/
theorem exists_trigger {rule : Rule} (hbuiltIn : rule.IsBuiltIn)
    (hname : rule.name = justInfo.name) :
    ∃ trigger, rule = ⟨justInfo, Unit, (), [⟨trigger, checkAlias⟩]⟩ := by
  obtain ⟨entry, options, hfind, hmake⟩ := hbuiltIn.exists_entry
  rw [hname] at hfind
  obtain rfl : just = entry := Option.some.inj (Eq.trans rfl hfind)
  simp only [just, BuiltInRule.ofHandlers] at hmake
  split at hmake
  · exact Rule.exists_trigger_of_handler (Options.makeRule_eq_ok hmake)
  · cases hmake

theorem reportsBy_just {rule : Rule} (hbuiltIn : rule.IsBuiltIn)
    (hname : rule.name = justInfo.name) :
    rule.ReportsBy file fun _ node =>
      (reachedRenames file node).map (·.report file.tree) := by
  obtain ⟨trigger, rfl⟩ := exists_trigger hbuiltIn hname
  intro index listener hlistener earlier state node
  obtain rfl : ⟨trigger, checkAlias⟩ = listener := by
    cases index with
    | zero => exact Option.some.inj hlistener
    | succ index => cases hlistener
  exact reports_checkAlias earlier state

/-! ## What a run reports under its name -/

section Run

variable (htree : file.tree.IsBuilt) (hbuiltIn : ∀ configured ∈ rules, configured.rule.IsBuiltIn)

include htree

theorem node_lt_size {invocation : Invocation}
    (hinvocation : invocation ∈ (PlainRun.ofRules file rules).invocations) :
    invocation.event.node < file.tree.size := by
  have hoffered := (PlainRun.accounts_ofRules file rules).sublist.subset hinvocation
  exact htree.mem_walk_iff.mp (event_mem_walk hoffered)

include hbuiltIn

/-- The diagnostics under this name are those of the renames that reactions reach. -/
theorem mem_diagnostics_iff {index : Nat} {rule : RuleRun}
    (hrule : (PlainRun.ofRules file rules).rules[index]? = some rule)
    (hname : rule.info.name = justInfo.name) {diagnostic : Diagnostic} :
    diagnostic ∈ rule.progress.diagnostics ↔
      ∃ invocation ∈ (PlainRun.ofRules file rules).invocations, invocation.rule = index ∧
        ∃ reached ∈ reachedRenames file invocation.event.node,
          reached.diagnostic file rule.configured.severity = diagnostic := by
  have hgiven := RuleRun.getElem?_configured (PlainRun.configured_ofRules file rules) hrule
  have hjust := hbuiltIn rule.configured (List.mem_of_getElem? hgiven)
  have hinfo : rule.info = justInfo := by
    obtain ⟨trigger, htrigger⟩ := exists_trigger hjust hname
    rw [RuleRun.info, htrigger]
  have hreports : ∀ configured, rules[index]? = some configured →
      configured.rule.ReportsBy file fun _ node =>
        (reachedRenames file node).map (·.report file.tree) := by
    intro configured hconfigured
    obtain rfl := Option.some.inj (hgiven.symm.trans hconfigured)
    exact reportsBy_just hjust hname
  rw [PlainRun.diagnostics_eq hreports rule hrule, PlainRun.reported, hinfo]
  simp only [List.mem_flatMap, List.mem_filter, beq_iff_eq]
  refine exists_congr fun invocation => ?_
  rw [and_assoc]
  refine and_congr_right fun hinvocation => and_congr_right fun _ => ?_
  rw [diagnoseAll_reports htree fun rename hreached =>
    lt_size_of_mem_reached (node_lt_size htree hinvocation) hreached, List.mem_map]

end Run

/-! ## The fixes of an alias in a pass -/

/-- A reaction of the rule has reached a rename of the same place. -/
def Rename.IsReached (rename : Rename) (file : FileContext) (rules : List ConfiguredRule) : Prop :=
  ∃ invocation ∈ (FileRun.ofRules file rules).invocations,
    (∃ configured, rules[invocation.rule]? = some configured ∧
      configured.rule.name = justInfo.name) ∧
    ∃ reached ∈ reachedRenames file invocation.event.node,
      reached.edit file.tree = rename.edit file.tree

section Lint

variable (linter : Linter) (file : SourceFile)

/-- The rules that run on a file under the directives of its text. -/
def activeOn : List ConfiguredRule := linter.activeRules (.parse file.tree.source) file

/-- The pass over the fixes of what linting a file reports. -/
def lintPass : FixPass := fixPass file.tree.source (linter.lintFile file).diagnostics

/-- A directive hides the diagnostic of a rename. -/
def Rename.IsHidden (rename : Rename) : Prop :=
  (Directives.parse file.tree.source).isDisabled justInfo.name
    (Text.position file.tree.source (file.tree.span rename.node).start).line = true

/-- Another applied fix stands in the way of a rename. -/
def Rename.IsBlocked (rename : Rename) : Prop :=
  ∃ taken ∈ (lintPass linter file).applied, taken ≠ rename.offer file.tree ∧
    taken.fix.range.before (file.tree.span rename.node) = true ∧
      taken.fix.range.Blocks (file.tree.span rename.node)

def Rename.IsApplied (rename : Rename) : Prop :=
  rename.node < file.tree.size ∧ rename.offer file.tree ∈ (lintPass linter file).applied

/-- Nothing keeps a rename from being applied. -/
structure Rename.IsFree (rename : Rename) : Prop where
  lt_size : rename.node < file.tree.size
  isReached : rename.IsReached file.context (activeOn linter file)
  not_isHidden : ¬ rename.IsHidden file
  not_isBlocked : ¬ rename.IsBlocked linter file

/-- The alias of a specifier is made at all of its places or at none. -/
def IsWhole (specifier : NodeId) : Prop :=
  (∀ rename ∈ aliasRenames file.context specifier, rename.IsApplied linter file) ∨
    ∀ rename ∈ aliasRenames file.context specifier, ¬ rename.IsApplied linter file

/-- The rule has reacted to a specifier of a file. -/
def Reacts (specifier : NodeId) : Prop :=
  ∃ invocation ∈ (FileRun.ofRules file.context (activeOn linter file)).invocations,
    invocation.event.node = specifier ∧
      ∃ configured, (activeOn linter file)[invocation.rule]? = some configured ∧
        configured.rule.name = justInfo.name

instance (rename : Rename) : Decidable (rename.IsHidden file) :=
  inferInstanceAs (Decidable (_ = true))

instance (rename : Rename) : Decidable (rename.IsBlocked linter file) :=
  inferInstanceAs (Decidable (∃ taken ∈ _, _))

instance (rename : Rename) : Decidable (rename.IsApplied linter file) :=
  inferInstanceAs (Decidable (_ ∧ _))

instance (specifier : NodeId) : Decidable (IsWhole linter file specifier) :=
  inferInstanceAs (Decidable (_ ∨ _))

instance (specifier : NodeId) : Decidable (Reacts linter file specifier) :=
  decidable_of_iff
    (∃ invocation ∈ (FileRun.ofRules file.context (activeOn linter file)).invocations,
      invocation.event.node = specifier ∧
        (activeOn linter file)[invocation.rule]?.map (·.rule.name) = some justInfo.name)
    (by simp only [Reacts, Option.map_eq_some_iff])

end Lint

section Lint

variable {linter : Linter} {file : SourceFile} (htree : file.tree.IsBuilt)
  (hbuiltIn : ∀ configured ∈ linter.rules, configured.rule.IsBuiltIn)

include htree hbuiltIn

omit htree hbuiltIn in
theorem hides_diagnostic_iff {reached rename : Rename}
    (hedit : reached.edit file.tree = rename.edit file.tree) (severity : Severity) :
    (Directives.parse file.tree.source).hides (reached.diagnostic file.context severity) = true ↔
      rename.IsHidden file := by
  have hspan : file.tree.span reached.node = file.tree.span rename.node :=
    congrArg Edit.span hedit
  rw [Rename.IsHidden, ← hspan]
  rfl

/-- A rename is offered to the pass when a reaction has reached it and no directive hides
it. -/
theorem mem_offeredFixes_lintFile_iff (rename : Rename) :
    rename.offer file.tree ∈ offeredFixes (linter.lintFile file).diagnostics ↔
      rename.IsReached file.context (activeOn linter file) ∧ ¬ rename.IsHidden file := by
  have hactive : ∀ configured ∈ activeOn linter file, configured.rule.IsBuiltIn :=
    fun configured hmem => hbuiltIn configured (Linter.isActive_of_mem hmem)
  have hconfigured := PlainRun.configured_ofRules file.context (activeOn linter file)
  rw [mem_offeredFixes_iff, Rename.IsReached, FileRun.invocations_ofRules]
  constructor
  · rintro ⟨diagnostic, hmem, hoffer⟩
    obtain ⟨fix, hfix, heq⟩ := Diagnostic.offer?_eq_some_iff.mp hoffer
    obtain ⟨hname, rfl⟩ := OfferedFix.mk.inj heq
    obtain ⟨-, hshown⟩ := Linter.mem_lintWith_iff.mp hmem
    obtain ⟨rule, hrule, hdiagnostic, report, -, hreport⟩ := Linter.exists_report hmem
    have hinfo : rule.info.name = justInfo.name :=
      (Report.diagnose_eq_ok_iff.mp hreport).ruleId_eq.symm.trans hname.symm
    obtain ⟨index, hindex⟩ : ∃ index,
        (PlainRun.ofRules file.context (activeOn linter file)).rules[index]? = some rule :=
      List.mem_iff_getElem?.mp hrule
    obtain ⟨invocation, hinvocation, rfl, reached, hreached, rfl⟩ :=
      (mem_diagnostics_iff htree hactive hindex hinfo).mp hdiagnostic
    have hedit : reached.edit file.tree = rename.edit file.tree := by
      simpa [Rename.diagnostic, SourceFile.context] using hfix
    have hgiven := RuleRun.getElem?_configured hconfigured hindex
    refine ⟨⟨invocation, hinvocation, ⟨_, hgiven, hinfo⟩, reached, hreached, hedit⟩, ?_⟩
    rw [← hides_diagnostic_iff hedit rule.configured.severity, hshown]
    exact Bool.false_ne_true
  · rintro ⟨⟨invocation, hinvocation, ⟨configured, hgiven, hname⟩, reached, hreached, hedit⟩,
      hshown⟩
    obtain ⟨rule, hrule, rfl⟩ := RuleRun.exists_getElem? hconfigured hgiven
    have hdiagnostic : reached.diagnostic file.context rule.configured.severity ∈
        rule.progress.diagnostics :=
      (mem_diagnostics_iff htree hactive hrule hname).mpr
        ⟨invocation, hinvocation, rfl, reached, hreached, rfl⟩
    refine ⟨_, Linter.mem_lintWith_iff.mpr
      ⟨⟨rule, List.mem_of_getElem? hrule, hdiagnostic⟩, ?_⟩, ?_⟩
    · rw [Bool.eq_false_iff, Ne, hides_diagnostic_iff hedit]
      exact hshown
    · exact congrArg (fun edit => some (⟨justInfo.name, ⟨[edit]⟩⟩ : OfferedFix)) hedit

theorem isApplied_iff_isFree (rename : Rename) :
    rename.IsApplied linter file ↔ rename.IsFree linter file := by
  have haccepted : FixesAccepted file.tree.source (linter.lintFile file).diagnostics :=
    Linter.fixesAccepted_lintWith
  have hoffered := mem_offeredFixes_lintFile_iff htree hbuiltIn rename
  constructor
  · rintro ⟨hsize, happlied⟩
    have hmem := haccepted.sound.mem_offers happlied
    obtain ⟨hreached, hhidden⟩ := hoffered.mp hmem
    exact ⟨hsize, hreached, hhidden,
      (haccepted.sound.mem_applied_iff haccepted.offered hmem).mp happlied⟩
  · rintro ⟨hsize, hreached, hhidden, hblocked⟩
    have hmem := hoffered.mpr ⟨hreached, hhidden⟩
    exact ⟨hsize, (haccepted.sound.mem_applied_iff haccepted.offered hmem).mpr hblocked⟩

end Lint

/-! ## When an alias is made as a whole -/

/-- The uses that scope analysis finds are nodes of the tree. -/
theorem references_analyze_lt {tree : Tree} {declaration use : NodeId}
    (huse : use ∈ (Scopes.analyze tree).references declaration) : use < tree.size := by
  rw [Scopes.references] at huse
  cases hlookup : (Scopes.analyze tree).uses.lookup declaration with
  | none => simp [hlookup] at huse
  | some uses =>
      obtain ⟨before, after, hentries, -⟩ := List.lookup_eq_some_iff.mp hlookup
      have hentry : (declaration, uses) ∈ (Scopes.analyze tree).uses := by simp [hentries]
      obtain ⟨_, -, hpair⟩ := List.mem_map.mp hentry
      obtain ⟨rfl, rfl⟩ := Prod.mk.inj hpair
      rw [hlookup, Option.getD_some, Scopes.usesOf, (StableSort.perm_sort _ _).mem_iff] at huse
      obtain ⟨resolved, hresolved, rfl⟩ := List.mem_map.mp huse
      obtain ⟨id, hid, hpair⟩ := List.mem_filterMap.mp (List.mem_filter.mp hresolved).1
      split at hpair
      · obtain ⟨_, -, rfl⟩ := Option.map_eq_some_iff.mp hpair
        exact List.mem_range.mp hid
      · cases hpair

theorem lt_size_of_mem_aliasUses {file : SourceFile} (hscopes : file.scopes = none)
    {specifier use : NodeId} {uses : List NodeId}
    (huses : aliasUses? file.context specifier = some uses) (huse : use ∈ uses) :
    use < file.tree.size := by
  rw [aliasUses?] at huses
  split at huses
  · split at huses
    · obtain rfl := Option.some.inj huses
      rw [SourceFile.context, hscopes] at huse
      exact references_analyze_lt huse
    · cases huses
  · cases huses

theorem reachedRenames_eq {file : SourceFile} (hscopes : file.scopes = none) (specifier : NodeId) :
    reachedRenames file.context specifier = aliasRenames file.context specifier := by
  rw [reachedRenames, aliasRenames]
  cases huses : aliasUses? file.context specifier with
  | none => rfl
  | some uses =>
      have hknown : ∀ use ∈ uses, file.tree.contains use = true := fun use huse =>
        decide_eq_true (lt_size_of_mem_aliasUses hscopes huses huse)
      rw [Option.elim_some, Option.elim_some]
      exact congrArg _ (List.takeWhile_eq_self_iff.mpr hknown)

theorem isReached_of_reacts {linter : Linter} {file : SourceFile} {specifier : NodeId}
    (hscopes : file.scopes = none) (hreacts : Reacts linter file specifier) {rename : Rename}
    (hrename : rename ∈ aliasRenames file.context specifier) :
    rename.IsReached file.context (activeOn linter file) := by
  obtain ⟨invocation, hinvocation, rfl, hrule⟩ := hreacts
  exact ⟨invocation, hinvocation, hrule, rename, reachedRenames_eq hscopes _ ▸ hrename, rfl⟩

/-- The alias of a specifier is made as a whole exactly when all of its renames are free or
none is.  Where the scopes are those of the tree and the rule has reacted to the specifier,
that is when directives and other applied fixes stand in the way of all of its renames or
of none. -/
theorem isWhole_iff (file : SourceFile) {drafts : List NodeDraft} {root : NodeId}
    {source : String} (hbuild : Tree.build? drafts root source = .ok file.tree) (linter : Linter)
    (hbuiltIn : ∀ configured ∈ linter.rules, configured.rule.IsBuiltIn) (specifier : NodeId) :
    (IsWhole linter file specifier ↔
      (∀ rename ∈ aliasRenames file.context specifier, rename.IsFree linter file) ∨
        ∀ rename ∈ aliasRenames file.context specifier, ¬ rename.IsFree linter file) ∧
    (file.scopes = none → Reacts linter file specifier →
      (IsWhole linter file specifier ↔
        (∀ rename ∈ aliasRenames file.context specifier,
          ¬ rename.IsHidden file ∧ ¬ rename.IsBlocked linter file) ∨
        ∀ rename ∈ aliasRenames file.context specifier,
          rename.IsHidden file ∨ rename.IsBlocked linter file)) := by
  have htree := Tree.isBuilt_of_build? hbuild
  have hwhole : IsWhole linter file specifier ↔
      (∀ rename ∈ aliasRenames file.context specifier, rename.IsFree linter file) ∨
        ∀ rename ∈ aliasRenames file.context specifier, ¬ rename.IsFree linter file := by
    simp only [IsWhole, isApplied_iff_isFree htree hbuiltIn]
  refine ⟨hwhole, fun hscopes hreacts => hwhole.trans ?_⟩
  have hfree : ∀ rename ∈ aliasRenames file.context specifier,
      (rename.IsFree linter file ↔
        ¬ rename.IsHidden file ∧ ¬ rename.IsBlocked linter file) := by
    intro rename hrename
    have hreached := isReached_of_reacts hscopes hreacts hrename
    refine ⟨fun hfree => ⟨hfree.not_isHidden, hfree.not_isBlocked⟩, fun ⟨hhidden, hblocked⟩ =>
      ⟨?_, hreached, hhidden, hblocked⟩⟩
    obtain ⟨invocation, hinvocation, rfl, -⟩ := hreacts
    rw [FileRun.invocations_ofRules] at hinvocation
    rw [← reachedRenames_eq hscopes] at hrename
    exact lt_size_of_mem_reached (node_lt_size htree hinvocation) hrename
  refine or_congr (forall₂_congr hfree) (forall₂_congr fun rename hrename => ?_)
  rw [hfree rename hrename, not_and_or, not_not, not_not]

/-! ## An alias in part -/

/-- The arena of `overlapText`. -/
def overlapArena : List NodeDraft :=
  [ ⟨.identifier, ⟨9, 11⟩, [("name", .value (.text "of"))]⟩
  , ⟨.identifier, ⟨9, 11⟩, [("name", .value (.text "of"))]⟩
  , ⟨.importSpecifier, ⟨9, 11⟩, [("imported", .node 0), ("local", .node 1)]⟩
  , ⟨.literal, ⟨19, 25⟩, [("value", .value (.text "rxjs"))]⟩
  , ⟨.importDeclaration, ⟨0, 26⟩, [("specifiers", .list [some 2]), ("source", .node 3)]⟩
  , ⟨.identifier, ⟨27, 28⟩, [("name", .value (.text "x"))]⟩
  , ⟨.identifier, ⟨29, 33⟩, [("name", .value (.text "pipe"))]⟩
  , ⟨.memberExpression, ⟨27, 33⟩, [("object", .node 5), ("property", .node 6)]⟩
  , ⟨.identifier, ⟨34, 37⟩, [("name", .value (.text "tap"))]⟩
  , ⟨.identifier, ⟨38, 39⟩, [("name", .value (.text "f"))]⟩
  , ⟨.identifier, ⟨41, 43⟩, [("name", .value (.text "of"))]⟩
  , ⟨.callExpression, ⟨34, 44⟩, [("callee", .node 8), ("arguments", .list [some 9, some 10])]⟩
  , ⟨.callExpression, ⟨27, 45⟩, [("callee", .node 7), ("arguments", .list [some 11])]⟩
  , ⟨.expressionStatement, ⟨27, 46⟩, [("expression", .node 12)]⟩
  , ⟨.program, ⟨0, 46⟩, [("body", .list [some 4, some 13])]⟩ ]

def overlapText : String := "import \x7b of \x7d from 'rxjs';\nx.pipe(tap(f, of));"

def overlapFile : SourceFile where
  path := "a.ts"
  tree := (Tree.build? overlapArena 14 overlapText).toOption.getD default
  types := some {}

/-- A rule of the rule set with its default options. -/
def defaultRule (name : String) : Rule :=
  (RuleSet.make name .null).toOption.getD ⟨default, Unit, (), []⟩

def defaultLinter (names : List String) : Linter where
  rules := names.map fun name => ⟨defaultRule name, .warning⟩

/-- A rule that takes a use of the alias into its own fix stands beside `just`. -/
def overlapNames : List String := ["just", "prefer-observer"]

-- One evaluation, since reading the selectors of the rules is most of the work.
set_option maxRecDepth 100000 in
theorem overlap_evaluated :
    (Tree.build? overlapArena 14 overlapText).isOk = true ∧
    (∀ name ∈ overlapNames, (RuleSet.make name .null).isOk = true) ∧
    aliasRenames overlapFile.context 2 = [⟨2, "of as just"⟩, ⟨10, "just"⟩] ∧
    (∀ names ∈ [["just"], overlapNames], Reacts (defaultLinter names) overlapFile 2) ∧
    (∀ rename ∈ aliasRenames overlapFile.context 2,
      ¬ rename.IsHidden overlapFile ∧ ¬ rename.IsBlocked (defaultLinter ["just"]) overlapFile) ∧
    (lintPass (defaultLinter overlapNames) overlapFile).applied =
      [ ⟨"just", ⟨[⟨⟨9, 11⟩, "of as just"⟩]⟩⟩
      , ⟨"prefer-observer", ⟨[⟨⟨38, 39⟩, "\x7b next: f, error: of \x7d"⟩, ⟨⟨39, 43⟩, ""⟩]⟩⟩ ] ∧
    ¬ IsWhole (defaultLinter overlapNames) overlapFile 2 := by
  decide +kernel

theorem build?_overlapArena : Tree.build? overlapArena 14 overlapText = .ok overlapFile.tree :=
  eq_ok_of_isOk overlap_evaluated.1 default

theorem isBuiltIn_defaultRule {name : String} (hname : name ∈ overlapNames) :
    (defaultRule name).IsBuiltIn :=
  ⟨name, .null, eq_ok_of_isOk (overlap_evaluated.2.1 name hname) _⟩

theorem isBuiltIn_of_mem_defaultLinter {names : List String} (hnames : names ⊆ overlapNames) :
    ∀ configured ∈ (defaultLinter names).rules, configured.rule.IsBuiltIn := by
  intro configured hconfigured
  obtain ⟨name, hname, rfl⟩ := List.mem_map.mp hconfigured
  exact isBuiltIn_defaultRule (hnames hname)

theorem isWhole_overlapFile_alone : IsWhole (defaultLinter ["just"]) overlapFile 2 := by
  obtain ⟨-, -, -, hreacts, hfree, -⟩ := overlap_evaluated
  have hnames : ["just"] ⊆ overlapNames := by simp [overlapNames]
  have hbuiltIn := isBuiltIn_of_mem_defaultLinter hnames
  have hwhole := (isWhole_iff overlapFile build?_overlapArena _ hbuiltIn 2).2 rfl
    (hreacts ["just"] (by simp))
  exact hwhole.mpr (.inl hfree)

/-- An alias can be made in part: beside `prefer-observer` the import is renamed, while a
use stays as it was inside an observer. -/
theorem not_forall_isWhole :
    ¬ ∀ (file : SourceFile) (drafts : List NodeDraft) (root : NodeId) (source : String),
      Tree.build? drafts root source = .ok file.tree → file.scopes = none →
      ∀ linter : Linter, (∀ configured ∈ linter.rules, configured.rule.IsBuiltIn) →
      ∀ specifier, Reacts linter file specifier → IsWhole linter file specifier := by
  intro hall
  obtain ⟨-, -, -, hreacts, -, -, hpart⟩ := overlap_evaluated
  have hbuiltIn := isBuiltIn_of_mem_defaultLinter (List.Subset.refl overlapNames)
  exact hpart (hall overlapFile overlapArena 14 overlapText build?_overlapArena rfl _ hbuiltIn 2
    (hreacts overlapNames (by simp)))

end ReactiveLint.Rules
