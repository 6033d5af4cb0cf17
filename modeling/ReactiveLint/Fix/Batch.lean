import ReactiveLint.Files.Store
import ReactiveLint.Fix.Apply
import ReactiveLint.Fix.Diff

/-!
# Fixing many files

A batch collects diagnostics with fixes, by file, and applies them to a store of
files or shows the differences that they would make.
-/

namespace ReactiveLint

inductive FixMode
  | apply
  | diff
deriving DecidableEq, Repr, Inhabited

def FixMode.name : FixMode → String
  | apply => "Apply"
  | diff => "Diff"

/-- The diagnostics of one file in the order of collection. -/
structure PendingFile where
  path : String
  diagnostics : List Diagnostic
deriving Repr

structure FixBatch where
  mode : FixMode := .apply
  pending : List PendingFile := []

/-- What a run did. -/
structure FixSummary where
  modified : Nat := 0
  applied : Nat := 0
  skipped : Nat := 0
  errors : List String := []
  /-- The differences by file, in the order of paths. -/
  diffs : List (String × String) := []
deriving DecidableEq, Repr

namespace FixBatch

/-- Adds a diagnostic to its file. -/
def addTo (diagnostic : Diagnostic) : List PendingFile → List PendingFile
  | [] => [⟨diagnostic.location.file, [diagnostic]⟩]
  | file :: files =>
      if Path.same file.path diagnostic.location.file then
        { file with diagnostics := file.diagnostics ++ [diagnostic] } :: files
      else
        file :: addTo diagnostic files

/-- Collects the diagnostics that have a fix. -/
def collect (batch : FixBatch) (diagnostics : List Diagnostic) : FixBatch :=
  { batch with
    pending := (diagnostics.filter (·.hasFix)).foldl
      (fun pending diagnostic => addTo diagnostic pending) batch.pending }

def pendingCount (batch : FixBatch) : Nat :=
  batch.pending.foldr (fun file count => file.diagnostics.length + count) 0

/-- Fixes one file of a store. -/
def runFile (mode : FixMode) (state : FileStore × FixSummary) (file : PendingFile) :
    FileStore × FixSummary :=
  let (store, summary) := state
  match store.read file.path with
  | .error e =>
      (store, { summary with
        errors := summary.errors ++ [s!"Failed to read {file.path}: {e.message}"] })
  | .ok source =>
      let fixed := applyFixes source file.diagnostics
      let summary := { summary with
        applied := summary.applied + fixed.applied.length
        skipped := summary.skipped + fixed.skipped }
      if !fixed.isChanged then (store, summary)
      else
        match mode with
        | .apply =>
            (store.write file.path fixed.output,
              { summary with modified := summary.modified + 1 })
        | .diff =>
            (store, { summary with
              diffs := summary.diffs ++
                [(file.path, unifiedDiff file.path source fixed.output)] })

/-- The pending files in the order of their paths. -/
def orderedFiles (batch : FixBatch) : List PendingFile :=
  StableSort.sort (fun left right => !Path.before right.path left.path) batch.pending

/-- Fixes every pending file of a store. -/
def run (batch : FixBatch) (store : FileStore) : FileStore × FixSummary :=
  batch.orderedFiles.foldl (runFile batch.mode) (store, {})

end FixBatch

/-- All differences of a run in one text. -/
def FixSummary.diffText (summary : FixSummary) : String :=
  String.join (summary.diffs.map fun (file, diff) =>
    s!"diff --rxlint a/{file} b/{file}\n" ++ diff ++ "\n")

end ReactiveLint
