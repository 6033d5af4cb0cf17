import ReactiveLint.Report.Diagnostic

/-!
# Applying the fixes of one text

The fixes of several diagnostics are applied in one pass, in the order of their
ranges.  A fix that meets the range of the one applied before it is skipped, and
so is a fix that leaves the text.
-/

namespace ReactiveLint

/-- A fix and the rule that offers it. -/
structure OfferedFix where
  ruleId : String
  fix : Fix
deriving DecidableEq, Repr

/-- What a pass has done so far: the output up to the cursor, and the end of the
last applied range. -/
structure FixPass where
  output : List Char := []
  cursor : Nat := 0
  lastEnd : Option Nat := none
  applied : List OfferedFix := []
  skipped : List OfferedFix := []

namespace FixPass

/-- A fix must not start before the end of the one before it, nor insert right
there. -/
def conflicts (lastEnd : Option Nat) (range : Span) : Bool :=
  match lastEnd with
  | some stop => decide (range.start < stop) || (range.start == stop && range.isEmpty)
  | none => false

def step (source : List Char) (size : Nat) (pass : FixPass) (offered : OfferedFix) : FixPass :=
  let range := offered.fix.range
  if conflicts pass.lastEnd range || decide (size < range.stop) then
    { pass with skipped := pass.skipped ++ [offered] }
  else
    { pass with
      output := pass.output ++ Fix.edited source pass.cursor offered.fix.edits
      cursor := Fix.cursorAfter pass.cursor offered.fix.edits
      lastEnd := some range.stop
      applied := pass.applied ++ [offered] }

def run (source : List Char) (offers : List OfferedFix) : FixPass :=
  offers.foldl (step source (Text.byteLength source)) {}

end FixPass

structure FixOutput where
  output : String
  /-- The rules of the applied fixes, in the order of application. -/
  applied : List String
  skipped : Nat
deriving DecidableEq, Repr

def FixOutput.isChanged (output : FixOutput) : Bool := !output.applied.isEmpty

def Diagnostic.offer? (diagnostic : Diagnostic) : Option OfferedFix :=
  diagnostic.fix.map fun fix => ⟨diagnostic.ruleId, fix⟩

/-- The fixes of diagnostics in the order of their ranges. -/
def offeredFixes (diagnostics : List Diagnostic) : List OfferedFix :=
  StableSort.sort (fun left right => left.fix.range.before right.fix.range)
    (diagnostics.filterMap (·.offer?))

/-- The pass over the fixes of diagnostics. -/
def fixPass (source : String) (diagnostics : List Diagnostic) : FixPass :=
  FixPass.run source.toList (offeredFixes diagnostics)

def applyFixes (source : String) (diagnostics : List Diagnostic) : FixOutput :=
  let pass := fixPass source diagnostics
  { output := String.ofList (pass.output ++ Fix.onward source.toList pass.cursor)
    applied := pass.applied.map (·.ruleId)
    skipped := pass.skipped.length }

end ReactiveLint
