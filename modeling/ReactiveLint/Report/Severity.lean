import ReactiveLint.Text.Case

/-!
# Severities
-/

namespace ReactiveLint

inductive Severity
  | info
  | warning
  | error
deriving DecidableEq, Repr, Inhabited

namespace Severity

def name : Severity → String
  | info => "info"
  | warning => "warning"
  | error => "error"

def rank : Severity → Nat
  | info => 0
  | warning => 1
  | error => 2

/-- Reads the name of a severity as it is written. -/
def ofName? : String → Option Severity
  | "info" => some info
  | "warning" => some warning
  | "error" => some error
  | _ => none

/-- Several words name a severity, in any case of their letters. -/
def ofWord? (word : String) : Option Severity :=
  match Text.Case.lower word with
  | "info" | "hint" | "note" => some info
  | "warning" | "warn" => some warning
  | "error" | "err" => some error
  | _ => none

end Severity

end ReactiveLint
