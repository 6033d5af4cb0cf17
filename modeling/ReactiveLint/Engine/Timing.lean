import ReactiveLint.Number.Fixed
import ReactiveLint.Order.StableSort

/-!
# Timings of rules

How long a rule has taken, with the number of selectors it has tested and the number
of its reactions.  Timings of the same rule add up; a list of timings has one entry a
rule.
-/

/-!
## Columns

Texts are filled up with spaces to a width, which counts characters.  Wider texts stay
as they are.
-/

namespace ReactiveLint.Text

/-- The spaces that a text lacks to a width. -/
def fill (width : Nat) (text : String) : String :=
  String.ofList (List.replicate (width - text.length) ' ')

def alignLeft (width : Nat) (text : String) : String := text ++ fill width text

def alignRight (width : Nat) (text : String) : String := fill width text ++ text

end ReactiveLint.Text

/-! ## Timings -/

namespace ReactiveLint

structure RuleTiming where
  rule : String
  /-- Nanoseconds. -/
  total : Nat := 0
  evaluationCount : Nat := 0
  matchCount : Nat := 0
deriving DecidableEq, Repr, Inhabited

namespace RuleTiming

def add (timing other : RuleTiming) : RuleTiming :=
  { timing with
    total := timing.total + other.total
    evaluationCount := timing.evaluationCount + other.evaluationCount
    matchCount := timing.matchCount + other.matchCount }

/-- The count of evaluations is kept in a word of 32 bits when times are divided. -/
def divisor (timing : RuleTiming) : Nat := timing.evaluationCount % Nat.pow 2 32

/-- The time of one evaluation in whole nanoseconds.  There is none when a count
other than zero leaves nothing to divide by. -/
def average? (timing : RuleTiming) : Option Nat :=
  if timing.evaluationCount = 0 then some 0
  else if timing.divisor = 0 then none
  else some (timing.total / timing.divisor)

/-- A count of nanoseconds in seconds: the whole ones and the fraction are rounded
each for itself before they are added. -/
def seconds (nanoseconds : Nat) : Number :=
  (Number.ofNat (nanoseconds / Nat.pow 10 9)).add
    ((Number.ofNat (nanoseconds % Nat.pow 10 9)).div (Number.ofNat (Nat.pow 10 9)))

def milliseconds (nanoseconds : Nat) : Number := (seconds nanoseconds).mul (Number.ofNat 1000)

def microseconds (nanoseconds : Nat) : Number :=
  (seconds nanoseconds).mul (Number.ofNat 1000000)

def header : String :=
  Text.alignLeft 40 "Rule ID" ++ " " ++ Text.alignRight 12 "Total" ++ " " ++
    Text.alignRight 12 "Avg" ++ " " ++ Text.alignRight 10 "Evals" ++ " " ++
    Text.alignRight 12 "Matches"

def row? (timing : RuleTiming) : Option String := do
  let average ← timing.average?
  return Text.alignLeft 40 timing.rule ++ " " ++
    Text.alignRight 10 ((milliseconds timing.total).toFixed 2) ++ "ms " ++
    Text.alignRight 10 ((microseconds average).toFixed 2) ++ "µs " ++
    Text.alignRight 10 (toString timing.evaluationCount) ++ " " ++
    Text.alignRight 12 (toString timing.matchCount)

end RuleTiming

/-- Timings with at most one entry a rule. -/
abbrev Timings := List RuleTiming

namespace Timings

/-- Puts a timing in the place of an older one of the same rule. -/
def put (timing : RuleTiming) : Timings → Timings
  | [] => [timing]
  | other :: rest =>
      if other.rule = timing.rule then timing :: rest else other :: put timing rest

/-- Adds a timing to that of the same rule. -/
def add (timing : RuleTiming) : Timings → Timings
  | [] => [timing]
  | other :: rest =>
      if other.rule = timing.rule then other.add timing :: rest else other :: add timing rest

/-- The timings of several runs; of two of the same rule the last counts. -/
def ofList (timings : List RuleTiming) : Timings :=
  timings.foldl (fun kept timing => put timing kept) []

def merge (timings other : Timings) : Timings :=
  other.foldl (fun merged timing => add timing merged) timings

/-- The longest first. -/
def sorted (timings : Timings) : List RuleTiming :=
  StableSort.sort (fun left right => decide (right.total ≤ left.total)) timings

/-- A table of the timings, the longest first. -/
def table? (timings : Timings) : Option String :=
  if timings.isEmpty then some "No timing data available"
  else do
    let rows ← (sorted timings).mapM (·.row?)
    let rule := String.ofList (List.replicate 90 '-')
    let lines := ["Rule Timing Statistics:", RuleTiming.header, rule] ++ rows
    return String.join (lines.map (· ++ "\n"))

end Timings

end ReactiveLint
