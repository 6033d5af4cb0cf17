import ReactiveLint.Proofs.Rules.Faults
import ReactiveLint.Proofs.Text.Positions

/-!
# Diagnostics of the rule set

What the rules of the rule set report lies in the source and keeps to what they say of
themselves, so a diagnostic is in one piece: its place, its line, its message and its edits
fit the text of the file and the description of its rule.
-/

namespace ReactiveLint

open Rules

variable {rule : Rule} {file : FileContext} {report : Report} {info : RuleInfo}
  {severity : Severity} {path source : String} {diagnostic : Diagnostic}

/-! ## Reports -/

/-- A report of a built-in rule befits it, also where the report ends in a fault. -/
theorem Rule.IsBuiltIn.befits (hbuiltIn : rule.IsBuiltIn) (htree : file.tree.IsBuilt)
    (hreport : rule.MayReport file report) : report.Befits rule.info file.tree := by
  obtain ⟨listener, hlistener, earlier, state, node, hreport⟩ := hreport
  rcases hbuiltIn.cases with hjust | ⟨options, hmake⟩ | ⟨-, -, hsound⟩
  · obtain ⟨trigger, rfl⟩ := Rules.exists_trigger hbuiltIn hjust
    obtain rfl := List.mem_singleton.mp hlistener
    exact (isSound_checkAlias htree earlier state node report hreport).toBefits
  · obtain ⟨allowNext, listeners, rfl, hchecks⟩ := exists_listeners_preferObserver hmake
    obtain ⟨check, hcheck, hreact⟩ := hchecks listener hlistener
    rw [← hreact] at hreport
    rcases checkHandlers_of_mem hcheck file node with hnone | ⟨reported, hchecked⟩
    · simp [Check.handler, hnone] at hreport
    · have hmem : report ∈ checkHandlers allowNext file node reported := hchecked ▸ hreport
      exact befits_checkHandlers htree report hmem
  · exact ((hsound listener hlistener file htree earlier state node).2 report hreport).toBefits

/-! ## Diagnostics -/

/-- A fix with edits that lie in a text, in order and apart. -/
structure Fix.IsProper (fix : Fix) (source : String) : Prop where
  ne_nil : fix.edits ≠ []
  inOrder : InOrder (Text.byteLength source.toList) fix.edits

/-- A diagnostic that fits the description of a rule. -/
structure Diagnostic.IsOf (diagnostic : Diagnostic) (info : RuleInfo) : Prop where
  message : info.message? diagnostic.messageId ≠ none
  fixable : diagnostic.fix ≠ none → info.fixable = true
  hasSuggestions : diagnostic.suggestions ≠ [] → info.hasSuggestions = true

/-- A diagnostic that fits a text and the description that its rule has in the rule set. -/
structure Diagnostic.IsProper (diagnostic : Diagnostic) (path source : String) : Prop where
  span_fitsIn : diagnostic.location.span.FitsIn (Text.byteLength source.toList)
  location_eq : diagnostic.location = .of path source diagnostic.location.span
  line_mem : 1 ≤ diagnostic.location.line ∧ diagnostic.location.line ≤ Text.lineCount source
  forward : (⟨diagnostic.location.line, diagnostic.location.column⟩ : Text.Position).NotAfter
    ⟨diagnostic.location.endLine, diagnostic.location.endColumn⟩
  sourceLine : ∃ line, (Text.lines source.toList)[diagnostic.location.line - 1]? = some line ∧
    diagnostic.sourceLine = some (String.ofList (Text.dropCarriageReturn line))
  rule : ∃ info, RuleSet.info? diagnostic.ruleId = some info ∧ diagnostic.IsOf info
  fix : ∀ fix, diagnostic.fix = some fix → fix.IsProper source
  suggestion : ∀ suggestion ∈ diagnostic.suggestions, suggestion.fix.IsProper source

theorem Report.Makes.isProper {edits : List Edit} {fix : Fix} (hmakes : Makes source edits fix) :
    fix.IsProper source := by
  exact ⟨Fix.edits_ne_nil_of_ofEdits? hmakes, (Fix.ofEdits?_eq_ok_iff.mp hmakes).2.1⟩

namespace Report.IsDiagnosis

variable (hdiagnosis : report.IsDiagnosis info severity path source diagnostic)

include hdiagnosis

theorem isOf {tree : Tree} (hbefits : report.Befits info tree) : diagnostic.IsOf info where
  message := by
    rw [hdiagnosis.messageId_eq]
    exact (exists_reads_iff _ _).mp ⟨_, hdiagnosis.message⟩
  fixable hfix := by
    obtain ⟨fix, hfix⟩ := Option.ne_none_iff_exists'.mp hfix
    obtain ⟨edits, hedits, -⟩ := hdiagnosis.exists_makes hfix
    exact hbefits.fixable (by rw [hedits]; exact Option.some_ne_none _)
  hasSuggestions hsuggestions := by
    refine hbefits.hasSuggestions fun hnone => hsuggestions ?_
    have hall := hdiagnosis.suggestions
    rw [hnone] at hall
    exact List.forall₂_nil_left_iff.mp hall

theorem isProper_suggestion {suggestion : Suggestion}
    (hmem : suggestion ∈ diagnostic.suggestions) : suggestion.fix.IsProper source := by
  have hpartners := exists_forall₂_iff.mp ⟨_, hdiagnosis.suggestions.flip⟩
  obtain ⟨given, hsuggests⟩ := hpartners suggestion hmem
  exact hsuggests.fix.isProper

end Report.IsDiagnosis

theorem Report.IsDiagnosis.isProper {tree : Tree}
    (hdiagnosis : report.IsDiagnosis info severity path tree.source diagnostic)
    (hbefits : report.Befits info tree) (hinfo : RuleSet.info? info.name = some info) :
    diagnostic.IsProper path tree.source := by
  have hspan : diagnostic.location.span = report.span := by rw [hdiagnosis.location_eq]; rfl
  have hlocation : diagnostic.location = .of path tree.source diagnostic.location.span := by
    rw [hspan]
    exact hdiagnosis.location_eq
  have hfits := hbefits.span_fitsIn
  rw [← hspan] at hfits
  have hline : diagnostic.location.line =
      (Text.position tree.source diagnostic.location.span.start).line := by
    rw [hlocation]
    rfl
  have hpos := Text.one_le_line tree.source diagnostic.location.span.start
  have hle := Text.line_le_lineCount tree.source diagnostic.location.span.start
  rw [← hline] at hpos hle
  obtain ⟨line, hfound, htext⟩ := Text.exists_lineText? hpos hle
  refine ⟨hfits, hlocation, ⟨hpos, hle⟩, ?_, ⟨line, hfound, ?_⟩, ⟨info, ?_, ?_⟩, ?_, ?_⟩
  · rw [hlocation]
    exact Text.position_mono tree.source hfits.1
  · rw [hdiagnosis.sourceLine_eq, ← hdiagnosis.location_eq]
    exact htext
  · rw [hdiagnosis.ruleId_eq]
    exact hinfo
  · exact hdiagnosis.isOf hbefits
  · intro fix hfix
    obtain ⟨edits, -, hmakes⟩ := hdiagnosis.exists_makes hfix
    exact hmakes.isProper
  · exact fun suggestion hmem => hdiagnosis.isProper_suggestion hmem

theorem Rule.IsBuiltIn.info?_eq (hbuiltIn : rule.IsBuiltIn) :
    RuleSet.info? rule.info.name = some rule.info := by
  obtain ⟨entry, options, hfind, hmake⟩ := hbuiltIn.exists_entry
  rw [RuleSet.info?, ← Rule.name, hfind, entry.info_eq hmake]
  rfl

/-- Whatever the options of the rules, the types and the scopes are, all diagnostics of a file
fit its text and their rules, and they stand in the order of where they start. -/
theorem lintFile_isProper (file : SourceFile) {drafts : List NodeDraft} {root : NodeId}
    {source : String} (hbuild : Tree.build? drafts root source = .ok file.tree) (linter : Linter)
    (hbuiltIn : ∀ configured ∈ linter.rules, configured.rule.IsBuiltIn) :
    (∀ diagnostic ∈ (linter.lintFile file).diagnostics, diagnostic.IsProper file.path source) ∧
      (linter.lintFile file).diagnostics.Pairwise fun left right =>
        left.location.span.start ≤ right.location.span.start := by
  have htree := Tree.isBuilt_of_build? hbuild
  have hsource := (Tree.build?_eq_ok hbuild).2.2
  refine ⟨fun diagnostic hmem => ?_, Diagnostic.pairwise_inOrder _⟩
  obtain ⟨rule, hrule, -, report, hreport, hdiagnose⟩ := Linter.exists_report hmem
  have hactive : rule.configured ∈ activeOn linter file := by
    rw [← PlainRun.configured_ofRules file.context (activeOn linter file)]
    exact List.mem_map_of_mem hrule
  have hof := hbuiltIn rule.configured (Linter.isActive_of_mem hactive)
  rw [← hsource]
  exact (Report.diagnose_eq_ok_iff.mp hdiagnose).isProper (hof.befits htree hreport) hof.info?_eq

/-- The diagnostics of `overlapFile`, of two rules that propose fixes. -/
theorem isProper_overlapFile :
    ((defaultLinter overlapNames).lintFile overlapFile).diagnostics.map (·.location.line) =
        [1, 2, 2] ∧
      (∀ diagnostic ∈ ((defaultLinter overlapNames).lintFile overlapFile).diagnostics,
        diagnostic.IsProper "a.ts" overlapText) ∧
      ((defaultLinter overlapNames).lintFile overlapFile).diagnostics.Pairwise fun left right =>
        left.location.span.start ≤ right.location.span.start :=
  ⟨by decide +kernel, lintFile_isProper overlapFile build?_overlapArena _
    (isBuiltIn_of_mem_defaultLinter (List.Subset.refl overlapNames))⟩

end ReactiveLint
