import ReactiveLint.Proofs.Rules.BuiltIn
import ReactiveLint.Proofs.Rules.Checks
import ReactiveLint.Proofs.Selector.Attributes
import ReactiveLint.Proofs.Selector.RoundTrip

/-!
# The selector of the rules about names

The rules about names listen for identifiers in some slots only.  Names are declared in no other
slot, so the rules report what they would report if they listened for all identifiers.
-/

namespace ReactiveLint

variable {file : FileContext} {info : RuleInfo} {severity : Severity} {trigger : Trigger}
  {check : Check}

/-! ## What a rule of one check leaves -/

/-- What a check writes at an event under a trigger. -/
def Check.reportsAt (check : Check) (trigger : Trigger) (file : FileContext) (event : Event) :
    List Report :=
  if trigger.fires file.tree event then check file event.node else []

/-- The diagnostics of a rule and its fault. -/
def Progress.outcome {State : Type} (progress : Progress State) :
    List Diagnostic × Option RuleFault :=
  (progress.diagnostics, progress.fault)

/-- Diagnoses reports on top of what a rule has left, unless it has a fault. -/
def Report.diagnoseAfter (file : FileContext) (info : RuleInfo) (severity : Severity)
    (outcome : List Diagnostic × Option RuleFault) (reports : List Report) :
    List Diagnostic × Option RuleFault :=
  if outcome.2.isSome then outcome
  else
    let (made, fault) := Progress.diagnoseAll file info severity reports
    (outcome.1 ++ made, fault)

theorem Report.diagnoseAfter_nil (outcome : List Diagnostic × Option RuleFault) :
    diagnoseAfter file info severity outcome [] = outcome := by
  obtain ⟨made, _ | fault⟩ := outcome
  · exact Prod.ext (List.append_nil made) rfl
  · rfl

theorem RuleRun.exists_attend_ofCheck (progress : Progress Unit) (event : Event) :
    ∃ next : Progress Unit,
      RuleRun.attend file ⟨⟨.ofCheck info trigger check, severity⟩, progress⟩ event =
        ⟨⟨.ofCheck info trigger check, severity⟩, next⟩ ∧
      next.outcome = Report.diagnoseAfter file info severity progress.outcome
        (check.reportsAt trigger file event) := by
  have hattend : RuleRun.attend file ⟨⟨.ofCheck info trigger check, severity⟩, progress⟩ event =
      if progress.fault.isNone && trigger.fires file.tree event then
        ⟨⟨.ofCheck info trigger check, severity⟩,
          progress.react file info severity event.node ⟨trigger, check.handler⟩⟩
      else ⟨⟨.ofCheck info trigger check, severity⟩, progress⟩ := rfl
  rw [hattend, Check.reportsAt]
  cases hfires : trigger.fires file.tree event with
  | false =>
      rw [Bool.and_false]
      exact ⟨progress, rfl, (Report.diagnoseAfter_nil _).symm⟩
  | true =>
      cases hfault : progress.fault with
      | some fault =>
          refine ⟨progress, rfl, ?_⟩
          rw [Report.diagnoseAfter, Progress.outcome, hfault]
          rfl
      | none =>
          refine ⟨_, rfl, ?_⟩
          rw [Report.diagnoseAfter, Progress.outcome, hfault]
          exact Prod.ext rfl (Option.or_none)

/-- A rule of one check leaves what its check writes at the events of the walk. -/
theorem RuleRun.outcome_alone_ofCheck :
    ∃ progress : Progress Unit,
      RuleRun.alone file ⟨.ofCheck info trigger check, severity⟩ =
        ⟨⟨.ofCheck info trigger check, severity⟩, progress⟩ ∧
      progress.outcome = (file.tree.walk.map (check.reportsAt trigger file)).foldl
        (Report.diagnoseAfter file info severity) ([], none) := by
  rw [RuleRun.alone]
  induction file.tree.walk using List.reverseRecOn with
  | nil => exact ⟨_, rfl, rfl⟩
  | append_singleton events event ih =>
      obtain ⟨progress, hprogress, houtcome⟩ := ih
      rw [List.foldl_append, hprogress, List.map_append, List.foldl_append, ← houtcome]
      exact exists_attend_ofCheck progress event

theorem ConfiguredRule.diagnosticsIn_ofCheck :
    (⟨.ofCheck info trigger check, severity⟩ : ConfiguredRule).diagnosticsIn file =
      ((file.tree.walk.map (check.reportsAt trigger file)).foldl
        (Report.diagnoseAfter file info severity) ([], none)).1 := by
  obtain ⟨progress, halone, houtcome⟩ :=
    @RuleRun.outcome_alone_ofCheck file info severity trigger check
  rw [diagnosticsIn, halone, ← houtcome]
  rfl

theorem ConfiguredRule.faultyIn?_ofCheck :
    (⟨.ofCheck info trigger check, severity⟩ : ConfiguredRule).faultyIn? file =
      ((file.tree.walk.map (check.reportsAt trigger file)).foldl
        (Report.diagnoseAfter file info severity) ([], none)).2.map fun fault =>
          ⟨info.name, fault⟩ := by
  obtain ⟨progress, halone, houtcome⟩ :=
    @RuleRun.outcome_alone_ofCheck file info severity trigger check
  rw [faultyIn?, halone, ← houtcome]
  rfl

/-! ## A rule in the place of another -/

/-- Reports on a file that say the same of it. -/
structure FileReport.SaysAs (left right : FileReport) : Prop where
  diagnostics_eq : left.diagnostics = right.diagnostics
  suppressed_eq : left.suppressed = right.suppressed
  perm_errors : left.errors.Perm right.errors

namespace Linter

variable {file : SourceFile} {left right : ConfiguredRule}

theorem flatMap_activeRules_congr {B : Type*} (gives : ConfiguredRule → List B)
    (hinfo : left.rule.info = right.rule.info) (hgives : gives left = gives right)
    (before after : List ConfiguredRule) (directives : Directives) (file : SourceFile) :
    (activeRules ⟨before ++ left :: after⟩ directives file).flatMap gives =
      (activeRules ⟨before ++ right :: after⟩ directives file).flatMap gives := by
  simp only [activeRules, List.filter_append, List.filter_cons, SourceFile.suits, Rule.name, hinfo,
    List.flatMap_append]
  split <;> simp only [List.flatMap_cons, hgives]

/-- What a linter says depends on a rule through its description and what it does alone. -/
theorem lintFile_saysAs (hinfo : left.rule.info = right.rule.info)
    (hdiagnostics : left.diagnosticsIn file.context = right.diagnosticsIn file.context)
    (hfaulty : left.faultyIn? file.context = right.faultyIn? file.context)
    (before after : List ConfiguredRule) :
    (lintFile ⟨before ++ left :: after⟩ file).SaysAs (lintFile ⟨before ++ right :: after⟩ file) := by
  have hmade := flatMap_activeRules_congr (·.diagnosticsIn file.context) hinfo hdiagnostics before
    after (.parse file.tree.source) file
  have hmissing : missingTypes ⟨before ++ left :: after⟩ file =
      missingTypes ⟨before ++ right :: after⟩ file := by
    simp only [missingTypes, List.filter_append, List.filter_cons, SourceFile.suits, hinfo,
      List.map_append]
    split <;> simp only [List.map_cons, Rule.name, hinfo]
  refine ⟨?_, ?_, ?_⟩
  · simp only [lintFile, lintWith, FileRun.flatMap_diagnostics, hmade]
  · simp only [lintFile, lintWith, FileRun.flatMap_diagnostics, hmade]
  · have hfaults := flatMap_activeRules_congr
      (fun rule => (rule.faultyIn? file.context).toList.map (·.error file.path))
      hinfo (by simp only [hfaulty]) before after (.parse file.tree.source) file
    refine (perm_errors_lintWith ..).trans ?_
    rw [hmissing, hfaults]
    exact (perm_errors_lintWith ..).symm

end Linter

/-- A rule that listens by another trigger. -/
def Rule.listeningBy (rule : Rule) (trigger : Trigger) : Rule :=
  { rule with listeners := rule.listeners.map fun listener => { listener with trigger } }

namespace Rules

/-- The slots in which the rules about names listen for identifiers. -/
def nameSlots : List String :=
  ["id", "params", "key", "value", "elements", "left", "argument", "parameter"]

def nameSelector : Selector :=
  .compound [.kind .identifier, .any (nameSlots.map fun slot => .field [slot])]

def nameTrigger : Trigger := ⟨NameSite.selector, nameSelector, false, _, rfl⟩

theorem isPath_nameSlot : ∀ slot ∈ nameSlots, Selector.IsPath Selector.isFieldChar [slot] := by
  have hall : ∀ slot ∈ nameSlots, slot.toList ≠ [] ∧
      slot.toList.all Selector.isFieldChar = true ∧ [slot] = Selector.splitPath slot.toList := by
    decide +kernel
  intro slot hslot
  obtain ⟨hne, hfield, hpath⟩ := hall slot hslot
  exact ⟨slot.toList, hne, List.all_eq_true.mp hfield, hpath⟩

theorem isForm_nameSelector : Selector.IsForm .complex nameSelector := by
  have hword : ∀ c ∈ "dentifier".toList, Selector.isKindChar c = true :=
    Text.forall_mem_of_all (by decide +kernel)
  have hkind : Selector.IsForm .part (.kind .identifier) :=
    .kind ⟨by decide, 'I', "dentifier".toList, by decide, by decide +kernel, hword⟩
  have hslots : Selector.IsForm .part (.any (nameSlots.map fun slot => .field [slot])) :=
    .any (by decide) (List.forall_mem_map.mpr fun slot hslot =>
      .base (.single (.field (isPath_nameSlot slot hslot))))
  refine .base (.compound (by simp [hkind, hslots]) ?_)
  exact .cons_cons (by decide +kernel) (.singleton _)

theorem isPlain_nameSelector : nameSelector.IsPlain := by
  simp [Selector.IsPlain, nameSelector, nameSlots, Selector.literals, Selector.listLiterals]

theorem display_nameSelector : nameSelector.display = NameSite.selector := by
  decide +kernel

/-- The selector of the rules is read as it is above. -/
theorem parse_nameSelector : Trigger.parse NameSite.selector = .ok nameTrigger := by
  have hparse := Selector.parse_display_of_isForm isForm_nameSelector isPlain_nameSelector
  rw [display_nameSelector] at hparse
  exact Trigger.parse_eq_ok (by decide +kernel) (by decide +kernel) hparse

theorem isMatch_nameSelector_iff {tree : Tree} {id : NodeId} :
    nameSelector.isMatch tree id = true ↔
      tree.kind id = .identifier ∧ ∃ slot ∈ nameSlots, tree.fieldName? id = some slot := by
  simp [nameSelector, nameSlots, Selector.isMatch, Selector.holds, Selector.allHold,
    Selector.someHolds, Tree.sitsIn]

/-- A name is declared in one of the slots. -/
theorem slot_mem_of_ofIdentifier? {tree : Tree} {id : NodeId} {site : NameSite}
    (hsite : NameSite.ofIdentifier? tree id = some site) :
    ∃ slot ∈ nameSlots, tree.fieldName? id = some slot := by
  rw [NameSite.ofIdentifier?] at hsite
  obtain ⟨parent, -, hsite⟩ := Option.bind_eq_some_iff.mp hsite
  obtain ⟨slot, hslot, hsite⟩ := Option.bind_eq_some_iff.mp hsite
  refine ⟨slot, ?_, hslot⟩
  split at hsite
  case h_14 => cases hsite
  all_goals decide

/-! ## The rules about names -/

/-- A check that writes nothing where no name is declared. -/
def IsAtSites (check : Check) : Prop :=
  ∀ file id, NameSite.ofIdentifier? file.tree id = none → check file id = []

theorem isAtSites_checkFinnish (settings : FinnishSettings) : IsAtSites (checkFinnish settings) := by
  intro file id hsite
  rw [checkFinnish, hsite]
  rfl

theorem isAtSites_checkNoFinnish : IsAtSites checkNoFinnish := by
  intro file id hsite
  simp [checkNoFinnish, hsite]

theorem isAtSites_checkSuffix (settings : SuffixSettings) : IsAtSites (checkSuffix settings) := by
  intro file id hsite
  rw [checkSuffix, hsite]
  rfl

/-- The rules about names. -/
def nameRules : List BuiltInRule := [finnish, noFinnish, suffixSubjects]

/-- A rule about names has one check, which writes at declared names only. -/
theorem exists_check_of_make {builtIn : BuiltInRule} {options : Json} {rule : Rule}
    (hbuiltIn : builtIn ∈ nameRules) (hmake : builtIn.make options = .ok rule) :
    ∃ check, IsAtSites check ∧ rule = .ofCheck builtIn.info nameTrigger check := by
  have hofChecks? {info : RuleInfo} {check : Check} :
      Rule.ofChecks? info [(NameSite.selector, check)] = .ok (.ofCheck info nameTrigger check) :=
    Rule.ofChecks?_singleton parse_nameSelector
  simp only [nameRules, List.mem_cons, List.not_mem_nil, or_false] at hbuiltIn
  rcases hbuiltIn with rfl | rfl | rfl
  · obtain ⟨settings, -, hrule⟩ := BuiltInRule.exists_settings_of_make hmake
    exact ⟨_, isAtSites_checkFinnish settings, Except.ok.inj (hrule.symm.trans hofChecks?)⟩
  · exact ⟨_, isAtSites_checkNoFinnish, BuiltInRule.eq_of_ofHandlers_make hofChecks? hmake⟩
  · obtain ⟨settings, -, hrule⟩ := BuiltInRule.exists_settings_of_make hmake
    exact ⟨_, isAtSites_checkSuffix settings, Except.ok.inj (hrule.symm.trans hofChecks?)⟩

/-- The trigger for all identifiers. -/
def identifierTrigger : Trigger := .ofKind "Identifier" .identifier

/-- At an identifier that the selector leaves out, no name is declared. -/
theorem reportsAt_nameTrigger {check : Check} (hsites : IsAtSites check) (event : Event) :
    check.reportsAt nameTrigger file event = check.reportsAt identifierTrigger file event := by
  have hkind : identifierTrigger.selector.isMatch file.tree event.node = true ↔
      file.tree.kind event.node = .identifier := by
    simp [identifierTrigger, Trigger.ofKind, Selector.isMatch_kind, Tree.is]
  rw [Check.reportsAt, Check.reportsAt]
  cases hname : nameTrigger.fires file.tree event with
  | true =>
      rw [Trigger.fires, Bool.and_eq_true] at hname
      have hidentifier := hkind.mpr (isMatch_nameSelector_iff.mp hname.2).1
      have hfires : identifierTrigger.fires file.tree event = true :=
        Bool.and_eq_true_iff.mpr ⟨hname.1, hidentifier⟩
      rw [hfires]
  | false =>
      rw [if_neg Bool.false_ne_true]
      split
      next hfires =>
        rw [Trigger.fires, Bool.and_eq_true] at hfires
        refine (hsites file event.node (Option.eq_none_iff_forall_ne_some.mpr ?_)).symm
        intro site hsite
        have hmatch := isMatch_nameSelector_iff.mpr
          ⟨hkind.mp hfires.2, slot_mem_of_ofIdentifier? hsite⟩
        have hfired : nameTrigger.fires file.tree event = true :=
          Bool.and_eq_true_iff.mpr ⟨hfires.1, hmatch⟩
        rw [hname] at hfired
        cases hfired
      next => rfl

/-- The selector of the rules about names matches every identifier that declares a name, so that
a linter says the same when one of them listens for all identifiers. -/
theorem nameSelector_losesNothing :
    Trigger.parse NameSite.selector = .ok nameTrigger ∧
    (∀ (tree : Tree) (id : NodeId) (site : NameSite), tree.kind id = .identifier →
      NameSite.ofIdentifier? tree id = some site →
        nameTrigger.selector.isMatch tree id = true) ∧
    ∀ builtIn ∈ nameRules, ∀ (options : Json) (rule : Rule), builtIn.make options = .ok rule →
      rule.triggers = [nameTrigger] ∧
      ∀ (severity : Severity) (before after : List ConfiguredRule) (file : SourceFile),
        (Linter.lintFile ⟨before ++ ⟨rule, severity⟩ :: after⟩ file).SaysAs
          (Linter.lintFile
            ⟨before ++ ⟨rule.listeningBy identifierTrigger, severity⟩ :: after⟩ file) := by
  refine ⟨parse_nameSelector, fun tree id site hkind hsite => ?_, ?_⟩
  · exact isMatch_nameSelector_iff.mpr ⟨hkind, slot_mem_of_ofIdentifier? hsite⟩
  · intro builtIn hbuiltIn options rule hmake
    obtain ⟨check, hsites, rfl⟩ := exists_check_of_make hbuiltIn hmake
    refine ⟨rfl, fun severity before after file => ?_⟩
    have hevents : file.context.tree.walk.map (check.reportsAt nameTrigger file.context) =
        file.context.tree.walk.map (check.reportsAt identifierTrigger file.context) :=
      List.map_congr_left fun event _ => reportsAt_nameTrigger hsites event
    have hlistening : (Rule.ofCheck builtIn.info nameTrigger check).listeningBy identifierTrigger =
        .ofCheck builtIn.info identifierTrigger check := rfl
    rw [hlistening]
    refine Linter.lintFile_saysAs ?_ ?_ ?_ before after
    · rfl
    · rw [ConfiguredRule.diagnosticsIn_ofCheck, ConfiguredRule.diagnosticsIn_ofCheck, hevents]
    · rw [ConfiguredRule.faultyIn?_ofCheck, ConfiguredRule.faultyIn?_ofCheck, hevents]

theorem make_noFinnish :
    noFinnish.make .null = .ok (.ofCheck noFinnishInfo nameTrigger checkNoFinnish) :=
  BuiltInRule.ofHandlers_make_null (Rule.ofChecks?_singleton parse_nameSelector)

def dollarArena : List NodeDraft :=
  [ ⟨.identifier, ⟨4, 6⟩, [("name", .value (.text "a$"))]⟩
  , ⟨.variableDeclarator, ⟨4, 6⟩, [("id", .node 0)]⟩
  , ⟨.variableDeclaration, ⟨0, 7⟩, [("declarations", .list [some 1])]⟩
  , ⟨.program, ⟨0, 7⟩, [("body", .list [some 2])]⟩ ]

/-- Declares an observable with a dollar sign. -/
def dollarFile : SourceFile where
  path := "a.ts"
  tree := (Tree.build? dollarArena 3 "let a$;").toOption.getD default
  types := some ⟨[(0, .named "Observable")]⟩

theorem dollar_evaluated :
    dollarFile.tree.kind 0 = .identifier ∧
    NameSite.ofIdentifier? dollarFile.tree 0 = some .variableName ∧
    (Linter.lintFile ⟨[⟨.ofCheck noFinnishInfo nameTrigger checkNoFinnish, .warning⟩]⟩
      dollarFile).diagnostics.map (·.ruleId) = ["no-finnish"] := by
  decide +kernel

/-- The name is reported by both triggers. -/
theorem nameSelector_losesNothing_dollarFile :
    nameTrigger.selector.isMatch dollarFile.tree 0 = true ∧
      ∃ rule, noFinnish.make .null = .ok rule ∧
        (Linter.lintFile ⟨[⟨rule, .warning⟩]⟩ dollarFile).diagnostics.map (·.ruleId) =
          ["no-finnish"] ∧
        (Linter.lintFile ⟨[⟨rule, .warning⟩]⟩ dollarFile).SaysAs
          (Linter.lintFile ⟨[⟨rule.listeningBy identifierTrigger, .warning⟩]⟩ dollarFile) := by
  obtain ⟨hkind, hsite, hreported⟩ := dollar_evaluated
  obtain ⟨-, hmatches, hspeaks⟩ := nameSelector_losesNothing
  have hmember : noFinnish ∈ nameRules := by simp [nameRules]
  exact ⟨hmatches _ 0 _ hkind hsite, _, make_noFinnish, hreported,
    (hspeaks noFinnish hmember .null _ make_noFinnish).2 .warning [] [] dollarFile⟩

end Rules

end ReactiveLint
