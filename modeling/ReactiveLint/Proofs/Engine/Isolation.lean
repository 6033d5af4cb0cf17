import ReactiveLint.Proofs.Engine.History
import ReactiveLint.Proofs.Engine.Independence
import ReactiveLint.Proofs.Engine.Invocations

/-!
# A fault stays with its rule

A rule that ends in a fault keeps what it has reported before, is never called again in
that file, and is named once among the errors.  The report on the file is otherwise that
of the other rules.
-/

namespace ReactiveLint

variable {directives : Directives} {file : SourceFile} {before after : List ConfiguredRule}
  {configured : ConfiguredRule} {index : Nat} {earlier : List Invocation} {last : Invocation}
  {made : List Diagnostic} {fault : RuleFault}

theorem Diagnostic.inOrder_inOrder_append (first second : List Diagnostic) :
    inOrder (inOrder first ++ second) = inOrder (first ++ second) := by
  rw [inOrder, inOrder, inOrder, StableSort.sort_append, StableSort.sort_append,
    StableSort.foldr_insert_sort notAfter_trans notAfter_total]

theorem Diagnostic.inOrder_append_inOrder (first second : List Diagnostic) :
    inOrder (first ++ inOrder second) = inOrder (first ++ second) := by
  have hidem : inOrder (inOrder second) = inOrder second :=
    StableSort.sort_of_pairwise (StableSort.pairwise_sort notAfter_trans notAfter_total second)
  rw [inOrder, StableSort.sort_append]
  change first.foldr _ (inOrder (inOrder second)) = inOrder (first ++ second)
  rw [hidem, inOrder, inOrder, StableSort.sort_append]

/-- The invocations of one rule, in order. -/
def FileRun.invocationsOf (run : FileRun) (index : Nat) : List Invocation :=
  run.invocations.filter (·.rule == index)

theorem FileRun.invocationsOf_ofRules (file : FileContext) (rules : List ConfiguredRule)
    (index : Nat) :
    (ofRules file rules).invocationsOf index =
      (PlainRun.ofRules file rules).invocationsOf index := by
  rw [invocationsOf, invocations_ofRules, PlainRun.invocationsOf]

namespace Linter

/-! ## One rule among others -/

section Insert

variable (directives file before configured after)

theorem diagnostics_insert :
    ((⟨before ++ configured :: after⟩ : Linter).lintWith directives file).diagnostics =
      Diagnostic.inOrder (((⟨before⟩ : Linter).lintWith directives file).diagnostics ++
        (((only configured).lintWith directives file).diagnostics ++
          ((⟨after⟩ : Linter).lintWith directives file).diagnostics)) := by
  simp only [diagnostics_eq_inOrder_flatMap ⟨before ++ configured :: after⟩,
    diagnostics_eq_inOrder_flatMap ⟨before⟩, diagnostics_eq_inOrder_flatMap ⟨after⟩,
    List.flatMap_append, List.flatMap_cons]
  rw [Diagnostic.inOrder_inOrder_append, ← List.append_assoc, ← List.append_assoc,
    Diagnostic.inOrder_append_inOrder]

theorem suppressed_insert :
    ((⟨before ++ configured :: after⟩ : Linter).lintWith directives file).suppressed =
      ((only configured).lintWith directives file).suppressed +
        ((⟨before ++ after⟩ : Linter).lintWith directives file).suppressed := by
  simp only [suppressed_eq_sum ⟨before ++ configured :: after⟩,
    suppressed_eq_sum ⟨before ++ after⟩, List.map_append, List.map_cons, List.sum_append,
    List.sum_cons]
  omega

theorem perm_errors_insert :
    ((⟨before ++ configured :: after⟩ : Linter).lintWith directives file).errors.Perm
      (((only configured).lintWith directives file).errors ++
        ((⟨before ++ after⟩ : Linter).lintWith directives file).errors) := by
  have hall := perm_errors_flatMap ⟨before ++ configured :: after⟩ directives file
  have hothers := perm_errors_flatMap ⟨before ++ after⟩ directives file
  rw [List.flatMap_append] at hothers
  rw [List.flatMap_append, List.flatMap_cons] at hall
  exact hall.trans ((List.perm_append_comm_assoc ..).trans (hothers.symm.append_left _))

end Insert

section Active

variable (hactive : (only configured).activeRules directives file = [configured])

include hactive

theorem missingTypes_of_active : (only configured).missingTypes file = [] := by
  have hruns := (List.filter_eq_self.mp hactive) configured (List.mem_singleton_self configured)
  rw [Bool.and_eq_true] at hruns
  simp [missingTypes, only, hruns.1]

theorem getElem?_activeRules_insert (before after : List ConfiguredRule) :
    ((⟨before ++ configured :: after⟩ : Linter).activeRules directives file)[
      ((⟨before⟩ : Linter).activeRules directives file).length]? = some configured := by
  have hall : (⟨before ++ configured :: after⟩ : Linter).activeRules directives file =
      (⟨before⟩ : Linter).activeRules directives file ++
        ((only configured).activeRules directives file ++
          (⟨after⟩ : Linter).activeRules directives file) := by
    simp only [activeRules, only, ← List.filter_append, List.singleton_append]
  rw [hall, hactive]
  simp

/-- What a linter of one rule reports is what the rule does by itself. -/
theorem diagnostics_only :
    ((only configured).lintWith directives file).diagnostics =
      Diagnostic.inOrder
        ((configured.diagnosticsIn file.context).filter (!directives.hides ·)) := by
  rw [diagnostics_lintWith, hactive, List.flatMap_singleton]

theorem suppressed_only :
    ((only configured).lintWith directives file).suppressed =
      (configured.diagnosticsIn file.context).countP directives.hides := by
  rw [suppressed_lintWith, hactive]
  rfl

theorem perm_errors_only :
    ((only configured).lintWith directives file).errors.Perm
      ((configured.faultyIn? file.context).toList.map (·.error file.path)) := by
  have herrors := (only configured).perm_errors_lintWith directives file
  rwa [missingTypes_of_active hactive, hactive, List.flatMap_singleton, List.nil_append]
    at herrors

end Active

/-! ## A rule with a fault -/

/-- The run in which a linter takes its rules through a file. -/
def runOn (linter : Linter) (file : SourceFile) : FileRun :=
  .ofRules file.context (linter.activeRules (.parse file.tree.source) file)

/-- What a rule between others that has ended in a fault leaves in the report on a file.
`kept` are the diagnostics that it had made by then. -/
structure Isolates (before : List ConfiguredRule) (configured : ConfiguredRule)
    (after : List ConfiguredRule) (file : SourceFile) (index : Nat)
    (invocations : List Invocation) (kept : List Diagnostic) (fault : RuleFault) : Prop where
  /-- It has been called in these invocations and no more. -/
  invocationsOf_eq :
    (runOn ⟨before ++ configured :: after⟩ file).invocationsOf index = invocations
  /-- One error names it, and those of the other rules are as without it. -/
  perm_errors : ((⟨before ++ configured :: after⟩ : Linter).lintFile file).errors.Perm
    (.ruleFailed configured.rule.name file.path fault.message ::
      ((⟨before ++ after⟩ : Linter).lintFile file).errors)
  /-- What it had made is reported, unless a directive hides it, between what the rules
  before and behind it report. -/
  diagnostics_eq : ((⟨before ++ configured :: after⟩ : Linter).lintFile file).diagnostics =
    Diagnostic.inOrder (((⟨before⟩ : Linter).lintFile file).diagnostics ++
      (kept.filter (!(Directives.parse file.tree.source).hides ·) ++
        ((⟨after⟩ : Linter).lintFile file).diagnostics))
  suppressed_eq : ((⟨before ++ configured :: after⟩ : Linter).lintFile file).suppressed =
    kept.countP (Directives.parse file.tree.source).hides +
      ((⟨before ++ after⟩ : Linter).lintFile file).suppressed

/-- The report on a file follows from what a rule does by itself. -/
theorem isolates_of_alone
    (hactive : (only configured).activeRules (.parse file.tree.source) file = [configured])
    {invocations : List Invocation} {kept : List Diagnostic}
    (hinvocations :
      (runOn ⟨before ++ configured :: after⟩ file).invocationsOf index = invocations)
    (hkept : configured.diagnosticsIn file.context = kept)
    (hfaulty : configured.faultyIn? file.context = some ⟨configured.rule.name, fault⟩) :
    Isolates before configured after file index invocations kept fault where
  invocationsOf_eq := hinvocations
  perm_errors := by
    have hown := perm_errors_only hactive
    rw [hfaulty] at hown
    exact (perm_errors_insert _ file before after configured).trans (hown.append_right _)
  diagnostics_eq := by
    rw [lintFile, diagnostics_insert, diagnostics_only hactive, hkept]
    -- sorting a part before the whole is sorted changes nothing
    rw [← Diagnostic.inOrder_append_inOrder, Diagnostic.inOrder_inOrder_append,
      Diagnostic.inOrder_append_inOrder]
    rfl
  suppressed_eq := by
    rw [lintFile, suppressed_insert, suppressed_only hactive, hkept]
    rfl

/-- A rule between others ends in a fault: it has reacted to `earlier`, and in `last` its
handler makes some diagnostics and then ends in a fault. -/
structure Fails (before : List ConfiguredRule) (configured : ConfiguredRule)
    (after : List ConfiguredRule) (file : SourceFile) (index : Nat) (earlier : List Invocation)
    (last : Invocation) (made : List Diagnostic) (fault : RuleFault) : Prop where
  active : (only configured).activeRules (.parse file.tree.source) file = [configured]
  index_eq : ((⟨before⟩ : Linter).activeRules (.parse file.tree.source) file).length = index
  invoked : earlier ++ [last] <+:
    (runOn ⟨before ++ configured :: after⟩ file).invocationsOf index
  faults : (RuleRun.replay file.context configured earlier).Faults file.context last made fault

/-- A rule that reports the first identifier it enters, and at the second one, behind a
report with a message, loses its messages. -/
def wearyRule : Rule where
  info := { (default : RuleInfo) with name := "weary", messages := [("seen", "Seen")] }
  State := Bool
  start := false
  listeners :=
    [ ⟨⟨"Identifier", .kind .identifier, false, _, rfl⟩,
        fun file _ tired id =>
          { state := true
            reports := file.tree.report "seen" id ::
              if tired then [file.tree.report "lost" id, file.tree.report "seen" id] else [] }⟩ ]

/-- `f(, x)` -/
def callFile : SourceFile where
  path := "f.ts"
  tree := (Tree.build? Tree.callArena 2 "f(, x)").toOption.getD default

/-- What `wearyRule` reports of an identifier. -/
def sighting (span : Span) : Diagnostic where
  ruleId := "weary"
  messageId := "seen"
  severity := .error
  message := "Seen"
  location := .of "f.ts" "f(, x)" span
  sourceLine := some "f(, x)"

end Linter

end ReactiveLint
