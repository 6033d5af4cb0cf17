import ReactiveLint.Proofs.Data.Result
import ReactiveLint.Rule.Report

/-!
# Which reports become diagnostics

A report is accepted when the rule has its message and those of its suggestions, and when
all its edits make fixes.  An accepted report becomes a diagnostic with nothing left out;
any other ends in a fault.
-/

namespace ReactiveLint

namespace Report

variable {report : Report} {info : RuleInfo} {severity : Severity} {path source : String}
  {diagnostic : Diagnostic}

/-- Edits from which a fix of a text is made. -/
def Makes (source : String) (edits : List Edit) (fix : Fix) : Prop :=
  Fix.ofEdits? edits (Text.byteLength source.toList) = .ok fix

/-- A message that a rule has under an id, filled with data. -/
def Reads (info : RuleInfo) (messageId : String) (data : List (String × String))
    (message : String) : Prop :=
  ∃ template, info.message? messageId = some template ∧ message = fillTemplate template data

/-- What a suggestion becomes. -/
structure Suggests (info : RuleInfo) (source : String) (data : List (String × String))
    (given : String × List Edit) (suggestion : Suggestion) : Prop where
  messageId_eq : suggestion.messageId = given.1
  message : Reads info given.1 data suggestion.message
  fix : Makes source given.2 suggestion.fix

/-- A diagnostic that has everything of a report. -/
structure IsDiagnosis (report : Report) (info : RuleInfo) (severity : Severity)
    (path source : String) (diagnostic : Diagnostic) : Prop where
  ruleId_eq : diagnostic.ruleId = info.name
  messageId_eq : diagnostic.messageId = report.messageId
  severity_eq : diagnostic.severity = severity
  message : Reads info report.messageId report.data diagnostic.message
  data_eq : diagnostic.data = Diagnostic.orderedData report.data
  location_eq : diagnostic.location = .of path source report.span
  sourceLine_eq : diagnostic.sourceLine =
    Text.lineText? source (Location.of path source report.span).line
  fix : Option.Rel (Makes source) report.fix diagnostic.fix
  suggestions : List.Forall₂ (Suggests info source report.data) report.suggestions
    diagnostic.suggestions

/-- A report with nothing to refuse in it. -/
structure IsAccepted (report : Report) (info : RuleInfo) (source : String) : Prop where
  message : info.message? report.messageId ≠ none
  fix : ∀ edits, report.fix = some edits → ∃ fix, Makes source edits fix
  suggestion : ∀ given ∈ report.suggestions,
    info.message? given.1 ≠ none ∧ ∃ fix, Makes source given.2 fix

theorem render_eq_ok_iff {messageId message : String} {data : List (String × String)} :
    render info messageId data = .ok message ↔ Reads info messageId data message := by
  rw [render, Reads]
  cases info.message? messageId with
  | none => simp
  | some template => simp [eq_comm]

theorem buildFix_eq_ok_iff {edits : List Edit} {fix : Fix} :
    buildFix info source edits = .ok fix ↔ Makes source edits fix := by
  rw [buildFix, Makes]
  cases Fix.ofEdits? edits (Text.byteLength source.toList) with
  | ok made => simp
  | error e => simp

theorem buildFix?_eq_ok_iff {edits : Option (List Edit)} {fix : Option Fix} :
    buildFix? info source edits = .ok fix ↔ Option.Rel (Makes source) edits fix := by
  cases edits with
  | none =>
      constructor
      · intro hbuild
        obtain rfl : none = fix := Except.ok.inj hbuild
        exact .none
      · intro hrel
        cases hrel
        rfl
  | some edits =>
      rw [buildFix?, bind_eq_ok_iff]
      constructor
      · rintro ⟨made, hmade, hfix⟩
        obtain rfl : some made = fix := Except.ok.inj hfix
        exact .some (buildFix_eq_ok_iff.mp hmade)
      · intro hrel
        cases hrel with
        | some hmakes => exact ⟨_, buildFix_eq_ok_iff.mpr hmakes, rfl⟩

theorem buildSuggestion_eq_ok_iff {data : List (String × String)} {given : String × List Edit}
    {suggestion : Suggestion} :
    buildSuggestion info source data given.1 given.2 = .ok suggestion ↔
      Suggests info source data given suggestion := by
  simp only [buildSuggestion, bind_eq_ok_iff, buildFix_eq_ok_iff, render_eq_ok_iff]
  constructor
  · rintro ⟨fix, hfix, message, hmessage, hsuggestion⟩
    obtain rfl := Except.ok.inj hsuggestion
    exact ⟨rfl, hmessage, hfix⟩
  · obtain ⟨messageId, message, fix⟩ := suggestion
    rintro ⟨rfl, hmessage, hfix⟩
    exact ⟨fix, hfix, message, hmessage, rfl⟩

/-- What a report becomes has everything of it. -/
theorem diagnose_eq_ok_iff :
    report.diagnose info severity path source = .ok diagnostic ↔
      report.IsDiagnosis info severity path source diagnostic := by
  simp only [diagnose, bind_eq_ok_iff, render_eq_ok_iff, buildFix?_eq_ok_iff,
    mapM_eq_ok_iff, buildSuggestion_eq_ok_iff]
  constructor
  · rintro ⟨message, hmessage, fix, hfix, suggestions, hsuggestions, hdiagnostic⟩
    obtain rfl := Except.ok.inj hdiagnostic
    exact ⟨rfl, rfl, rfl, hmessage, rfl, rfl, rfl, hfix, hsuggestions⟩
  · intro hdiagnosis
    refine ⟨diagnostic.message, hdiagnosis.message, diagnostic.fix, hdiagnosis.fix,
      diagnostic.suggestions, hdiagnosis.suggestions, congrArg Except.ok ?_⟩
    obtain ⟨ruleId, messageId, severity, message, data, location, sourceLine, fix, suggestions⟩ :=
      diagnostic
    obtain ⟨rfl, rfl, rfl, -, rfl, rfl, rfl, -, -⟩ := hdiagnosis
    rfl

theorem IsDiagnosis.exists_makes
    (hdiagnosis : report.IsDiagnosis info severity path source diagnostic) {fix : Fix}
    (hfix : diagnostic.fix = some fix) :
    ∃ edits, report.fix = some edits ∧ Makes source edits fix := by
  have hrel := hdiagnosis.fix
  rw [hfix] at hrel
  generalize report.fix = given at hrel
  cases hrel with
  | some hmakes => exact ⟨_, rfl, hmakes⟩

theorem exists_reads_iff (messageId : String) (data : List (String × String)) :
    (∃ message, Reads info messageId data message) ↔ info.message? messageId ≠ none := by
  rw [Option.ne_none_iff_exists']
  constructor
  · rintro ⟨_, template, htemplate, -⟩
    exact ⟨template, htemplate⟩
  · rintro ⟨template, htemplate⟩
    exact ⟨_, template, htemplate, rfl⟩

theorem exists_diagnose_iff (severity : Severity) (path : String) :
    (∃ diagnostic, report.diagnose info severity path source = .ok diagnostic) ↔
      report.IsAccepted info source := by
  simp only [diagnose_eq_ok_iff]
  constructor
  · rintro ⟨diagnostic, hdiagnosis⟩
    refine ⟨(exists_reads_iff _ _).mp ⟨_, hdiagnosis.message⟩, ?_, ?_⟩
    · intro edits hedits
      have hfix := hdiagnosis.fix
      rw [hedits] at hfix
      generalize diagnostic.fix = made at hfix
      cases hfix with
      | some hmakes => exact ⟨_, hmakes⟩
    · have hpartners := exists_forall₂_iff.mp ⟨_, hdiagnosis.suggestions⟩
      intro given hgiven
      obtain ⟨suggestion, hsuggests⟩ := hpartners given hgiven
      exact ⟨(exists_reads_iff _ _).mp ⟨_, hsuggests.message⟩, _, hsuggests.fix⟩
  · intro haccepted
    obtain ⟨message, hmessage⟩ := (exists_reads_iff _ report.data).mpr haccepted.message
    have hfix : ∃ fix, Option.Rel (Makes source) report.fix fix := by
      cases hedits : report.fix with
      | none => exact ⟨none, .none⟩
      | some edits =>
          obtain ⟨fix, hmakes⟩ := haccepted.fix edits hedits
          exact ⟨some fix, .some hmakes⟩
    obtain ⟨fix, hfix⟩ := hfix
    have hsuggests : ∀ given ∈ report.suggestions,
        ∃ suggestion, Suggests info source report.data given suggestion := by
      intro given hgiven
      obtain ⟨hknown, fix, hmakes⟩ := haccepted.suggestion given hgiven
      obtain ⟨text, htext⟩ := (exists_reads_iff _ report.data).mpr hknown
      exact ⟨⟨given.1, text, fix⟩, rfl, htext, hmakes⟩
    obtain ⟨suggestions, hsuggestions⟩ := exists_forall₂_iff.mpr hsuggests
    let location := Location.of path source report.span
    exact ⟨⟨info.name, report.messageId, severity, message, Diagnostic.orderedData report.data,
        location, Text.lineText? source location.line, fix, suggestions⟩,
      rfl, rfl, rfl, hmessage, rfl, rfl, rfl, hfix, hsuggestions⟩

/-- Whatever is not accepted ends in a fault. -/
theorem exists_diagnose_error_iff (severity : Severity) (path : String) :
    (∃ fault, report.diagnose info severity path source = .error fault) ↔
      ¬ report.IsAccepted info source := by
  rw [← exists_diagnose_iff severity path]
  cases report.diagnose info severity path source <;> simp

/-- A report with a message ends in the fault of its edits. -/
theorem diagnose_eq_error {edits : List Edit} {error : FixError}
    (hmessage : info.message? report.messageId ≠ none) (hfix : report.fix = some edits)
    (hedits : Fix.ofEdits? edits (Text.byteLength source.toList) = .error error) :
    report.diagnose info severity path source = .error (.invalidFix info.name error) := by
  obtain ⟨template, htemplate⟩ := Option.ne_none_iff_exists'.mp hmessage
  simp only [diagnose, render, htemplate, hfix, buildFix?, buildFix, hedits]
  rfl

/-- What can be wrong with a report: a message that the rule does not have, or edits that
make no fix. -/
def IsRefused (report : Report) (info : RuleInfo) (source : String) : Prop :=
  info.message? report.messageId = none ∨
    (∃ edits, report.fix = some edits ∧ ∀ fix, ¬ Makes source edits fix) ∨
    ∃ given ∈ report.suggestions,
      info.message? given.1 = none ∨ ∀ fix, ¬ Makes source given.2 fix

theorem isRefused_iff : report.IsRefused info source ↔ ¬ report.IsAccepted info source := by
  constructor
  · rintro (hmessage | ⟨edits, hedits, hnone⟩ | ⟨given, hgiven, hmessage | hnone⟩) haccepted
    · exact haccepted.message hmessage
    · obtain ⟨fix, hmakes⟩ := haccepted.fix edits hedits
      exact hnone fix hmakes
    · exact (haccepted.suggestion given hgiven).1 hmessage
    · obtain ⟨fix, hmakes⟩ := (haccepted.suggestion given hgiven).2
      exact hnone fix hmakes
  · intro hrefused
    by_contra hnothing
    simp only [IsRefused] at hnothing
    push Not at hnothing
    obtain ⟨hmessage, hfix, hsuggestion⟩ := hnothing
    exact hrefused ⟨hmessage, hfix, hsuggestion⟩

end Report

end ReactiveLint
