import Mathlib.Algebra.Ring.Nat
import ReactiveLint.Proofs.Data.Result
import ReactiveLint.Report.Json

/-!
# Reading diagnostics back

What was written as JSON is read as it was, whatever edits its fixes hold: reading asks
for the fields of a record and for offsets that fit a word.
-/

namespace ReactiveLint

namespace Json

theorem asWord?_int {value : Nat} (hvalue : value < 2 ^ 64) : asWord? (.int value) = some value := by
  have hnat : asNat? (.int value) = some value := rfl
  simpa [asWord?, hnat] using hvalue

end Json

/-- A span whose offsets fit a word of 64 bits. -/
def Span.FitsWord (span : Span) : Prop := span.start < 2 ^ 64 ∧ span.stop < 2 ^ 64

theorem Span.ofJson?_toJson {span : Span} (hword : span.FitsWord) :
    ofJson? span.toJson = some span := by
  simp [toJson, ofJson?, Json.recordFields?, Json.uniqueMember?, Json.required?,
    Json.asWord?_int hword.1, Json.asWord?_int hword.2]

theorem Edit.ofJson?_toJson {edit : Edit} (hword : edit.span.FitsWord) :
    ofJson? edit.toJson = some edit := by
  simp [toJson, ofJson?, Json.recordFields?, Json.uniqueMember?, Json.required?, Json.asString?,
    Span.ofJson?_toJson hword]

/-- A fix whose offsets fit words of 64 bits. -/
def Fix.FitsWord (fix : Fix) : Prop := ∀ edit ∈ fix.edits, edit.span.FitsWord

theorem Fix.ofJson?_toJson {fix : Fix} (hword : fix.FitsWord) : ofJson? fix.toJson = some fix := by
  have hedits : (fix.edits.map Edit.toJson).mapM Edit.ofJson? = some fix.edits :=
    mapM_map_some fun edit hedit => Edit.ofJson?_toJson (hword edit hedit)
  simp [toJson, ofJson?, Json.recordFields?, Json.uniqueMember?, Json.required?, Json.listOf?,
    hedits]

/-- A location whose numbers fit words of 64 bits. -/
structure Location.FitsWord (location : Location) : Prop where
  line : location.line < 2 ^ 64
  column : location.column < 2 ^ 64
  endLine : location.endLine < 2 ^ 64
  endColumn : location.endColumn < 2 ^ 64
  span : location.span.FitsWord

theorem Location.ofJson?_toJson {location : Location} (hword : location.FitsWord) :
    ofJson? location.toJson = some location := by
  simp [toJson, ofJson?, Json.recordFields?, Json.uniqueMember?, Json.required?, Json.asString?,
    Json.asWord?_int hword.line, Json.asWord?_int hword.column, Json.asWord?_int hword.endLine,
    Json.asWord?_int hword.endColumn, Span.ofJson?_toJson hword.span]

theorem Suggestion.ofJson?_toJson {suggestion : Suggestion} (hword : suggestion.fix.FitsWord) :
    ofJson? suggestion.toJson = some suggestion := by
  simp [toJson, ofJson?, Json.recordFields?, Json.uniqueMember?, Json.required?, Json.asString?,
    Fix.ofJson?_toJson hword]

theorem Severity.ofName?_name (severity : Severity) : ofName? severity.name = some severity := by
  cases severity <;> rfl

namespace Diagnostic

variable {diagnostic : Diagnostic}

/-- A diagnostic whose numbers fit words of 64 bits. -/
structure FitsWord (diagnostic : Diagnostic) : Prop where
  location : diagnostic.location.FitsWord
  fix : ∀ fix, diagnostic.fix = some fix → fix.FitsWord
  suggestions : ∀ suggestion ∈ diagnostic.suggestions, suggestion.fix.FitsWord

theorem optional?_fix (hword : ∀ fix, diagnostic.fix = some fix → fix.FitsWord) :
    Json.optional? Fix.ofJson? (some ((diagnostic.fix.map Fix.toJson).getD .null)) =
      some diagnostic.fix := by
  cases hfix : diagnostic.fix with
  | none => rfl
  | some fix =>
      have hreads : Fix.ofJson? (.object [("edits", .list (fix.edits.map Edit.toJson))]) = some fix :=
        Fix.ofJson?_toJson (hword fix hfix)
      simp [Fix.toJson, Json.optional?, hreads]

theorem optional?_sourceLine (line : Option String) :
    Json.optional? Json.asString? (some ((line.map Json.str).getD .null)) = some line := by
  cases line <;> rfl

theorem mapOf?_data (data : List (String × String)) :
    Json.mapOf? Json.asString? (.object (data.map fun (key, value) => (key, .str value))) =
      some data :=
  mapM_map_some fun _ _ => rfl

/-- A diagnostic is read as it was written, its data in the order of their keys. -/
theorem ofJson?_toJson (hword : diagnostic.FitsWord) :
    ofJson? diagnostic.toJson =
      some { diagnostic with data := orderedData diagnostic.data } := by
  have hsuggestions : (diagnostic.suggestions.map Suggestion.toJson).mapM Suggestion.ofJson? =
      some diagnostic.suggestions :=
    mapM_map_some fun suggestion hmem =>
      Suggestion.ofJson?_toJson (hword.suggestions suggestion hmem)
  simp [toJson, ofJson?, Json.recordFields?, Json.uniqueMember?, Json.required?, Json.asString?,
    Json.fieldOr?, Json.listOf?, mapOf?_data, Severity.ofName?_name, optional?_sourceLine,
    optional?_fix hword.fix, Location.ofJson?_toJson hword.location, hsuggestions]

end Diagnostic

end ReactiveLint
