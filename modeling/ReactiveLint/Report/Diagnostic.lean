import ReactiveLint.Fix.Basic
import ReactiveLint.Report.Severity
import ReactiveLint.Text.Lines

/-!
# Diagnostics

What a rule reports about one place of a file: a message with the data it was
made from, the place in bytes and in lines, and fixes.
-/

namespace ReactiveLint

structure Location where
  file : String
  line : Nat
  column : Nat
  endLine : Nat
  endColumn : Nat
  span : Span
deriving DecidableEq, Repr, Inhabited

/-- The location of a span in the text of a file. -/
def Location.of (file source : String) (span : Span) : Location :=
  let first := Text.position source span.start
  let last := Text.position source span.stop
  { file, line := first.line, column := first.column, endLine := last.line,
    endColumn := last.column, span }

/-- A fix that is applied only when a user asks for it. -/
structure Suggestion where
  messageId : String
  message : String
  fix : Fix
deriving DecidableEq, Repr, Inhabited

structure Diagnostic where
  ruleId : String
  messageId : String
  severity : Severity
  message : String
  /-- In the order of the keys. -/
  data : List (String × String) := []
  location : Location
  sourceLine : Option String := none
  fix : Option Fix := none
  suggestions : List Suggestion := []
deriving DecidableEq, Repr, Inhabited

namespace Diagnostic

/-- Puts an entry into a list that is ordered by key, in the place of an older
entry of that key. -/
def putEntry (key value : String) : List (String × String) → List (String × String)
  | [] => [(key, value)]
  | (other, old) :: rest =>
      if key < other then (key, value) :: (other, old) :: rest
      else if key = other then (key, value) :: rest
      else (other, old) :: putEntry key value rest

/-- Data ordered by key; of several values the last counts. -/
def orderedData (data : List (String × String)) : List (String × String) :=
  data.foldl (fun ordered (key, value) => putEntry key value ordered) []

def hasFix (diagnostic : Diagnostic) : Bool := diagnostic.fix.isSome

def isError (diagnostic : Diagnostic) : Bool := diagnostic.severity == .error

def isWarning (diagnostic : Diagnostic) : Bool := diagnostic.severity == .warning

end Diagnostic

end ReactiveLint
