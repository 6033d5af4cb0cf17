import ReactiveLint.Data.Record
import ReactiveLint.Report.Diagnostic

/-!
# Diagnostics in JSON

Diagnostics are handed to other programs, and taken back from them, as JSON records.
Reading checks the form of a record and nothing else: the edits of a fix are taken in
the order in which they come.
-/

namespace ReactiveLint

namespace Span

def toJson (span : Span) : Json := .object [("start", .int span.start), ("end", .int span.stop)]

def ofJson? (json : Json) : Option Span := do
  match ← Json.recordFields? ["start", "end"] false json with
  | [start, stop] =>
      return ⟨← Json.required? Json.asWord? start, ← Json.required? Json.asWord? stop⟩
  | _ => none

end Span

namespace Edit

def toJson (edit : Edit) : Json :=
  .object [("span", edit.span.toJson), ("replacement", .str edit.replacement)]

def ofJson? (json : Json) : Option Edit := do
  match ← Json.recordFields? ["span", "replacement"] false json with
  | [span, replacement] =>
      return {
        span := ← Json.required? Span.ofJson? span
        replacement := ← Json.required? Json.asString? replacement }
  | _ => none

end Edit

namespace Fix

def toJson (fix : Fix) : Json := .object [("edits", .list (fix.edits.map Edit.toJson))]

def ofJson? (json : Json) : Option Fix := do
  match ← Json.recordFields? ["edits"] false json with
  | [edits] => return { edits := ← Json.required? (Json.listOf? Edit.ofJson?) edits }
  | _ => none

end Fix

namespace Location

def toJson (location : Location) : Json :=
  .object
    [ ("file", .str location.file), ("line", .int location.line)
    , ("column", .int location.column), ("end_line", .int location.endLine)
    , ("end_column", .int location.endColumn), ("span", location.span.toJson) ]

def ofJson? (json : Json) : Option Location := do
  match ← Json.recordFields?
      ["file", "line", "column", "end_line", "end_column", "span"] false json with
  | [file, line, column, endLine, endColumn, span] =>
      return {
        file := ← Json.required? Json.asString? file
        line := ← Json.required? Json.asWord? line
        column := ← Json.required? Json.asWord? column
        endLine := ← Json.required? Json.asWord? endLine
        endColumn := ← Json.required? Json.asWord? endColumn
        span := ← Json.required? Span.ofJson? span }
  | _ => none

end Location

namespace Suggestion

def toJson (suggestion : Suggestion) : Json :=
  .object
    [ ("message_id", .str suggestion.messageId), ("message", .str suggestion.message)
    , ("fix", suggestion.fix.toJson) ]

def ofJson? (json : Json) : Option Suggestion := do
  match ← Json.recordFields? ["message_id", "message", "fix"] false json with
  | [messageId, message, fix] =>
      return {
        messageId := ← Json.required? Json.asString? messageId
        message := ← Json.required? Json.asString? message
        fix := ← Json.required? Fix.ofJson? fix }
  | _ => none

end Suggestion

namespace Diagnostic

def toJson (diagnostic : Diagnostic) : Json :=
  .object
    [ ("rule_id", .str diagnostic.ruleId), ("message_id", .str diagnostic.messageId)
    , ("severity", .str diagnostic.severity.name), ("message", .str diagnostic.message)
    , ("data", .object (diagnostic.data.map fun (key, value) => (key, .str value)))
    , ("location", diagnostic.location.toJson)
    , ("source_line", (diagnostic.sourceLine.map Json.str).getD .null)
    , ("fix", (diagnostic.fix.map Fix.toJson).getD .null)
    , ("suggestions", .list (diagnostic.suggestions.map Suggestion.toJson)) ]

def ofJson? (json : Json) : Option Diagnostic := do
  match ← Json.recordFields?
      ["rule_id", "message_id", "severity", "message", "data", "location", "source_line",
        "fix", "suggestions"] false json with
  | [ruleId, messageId, severity, message, data, location, sourceLine, fix, suggestions] =>
      let severity ← Json.required? Json.asString? severity
      let data ← Json.fieldOr? (Json.mapOf? Json.asString?) [] data
      return {
        ruleId := ← Json.required? Json.asString? ruleId
        messageId := ← Json.required? Json.asString? messageId
        severity := ← Severity.ofName? severity
        message := ← Json.required? Json.asString? message
        data := orderedData data
        location := ← Json.required? Location.ofJson? location
        sourceLine := ← Json.optional? Json.asString? sourceLine
        fix := ← Json.optional? Fix.ofJson? fix
        suggestions := ← Json.fieldOr? (Json.listOf? Suggestion.ofJson?) [] suggestions }
  | _ => none

end Diagnostic

end ReactiveLint
