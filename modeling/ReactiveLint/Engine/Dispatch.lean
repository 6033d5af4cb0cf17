import ReactiveLint.Engine.Walk
import ReactiveLint.Rule.Basic

/-!
# Finding listeners

The listeners of all rules stand in one list, by rule and within a rule in its
order.  An index holds, for a kind of nodes and a phase, the listeners that may
react there; an entry is made when it is asked for, and later answers come from it.
-/

namespace ReactiveLint

/-- A listener of a rule, both counted from zero. -/
structure ListenerId where
  rule : Nat
  listener : Nat
deriving DecidableEq, Repr

structure Registration where
  id : ListenerId
  trigger : Trigger

/-- Whether a trigger is for nodes of a kind in a phase. -/
def Trigger.listens (trigger : Trigger) (kind : Kind) (phase : Phase) : Bool :=
  trigger.onExit == (phase == .exit) && trigger.kinds.all (·.contains kind)

namespace Registration

/-- The listeners of rules, in order. -/
def ofRules (rules : List Rule) : List Registration :=
  rules.zipIdx.flatMap fun (rule, index) =>
    rule.triggers.zipIdx.map fun (trigger, listener) => ⟨⟨index, listener⟩, trigger⟩

/-- The listeners for nodes of a kind in a phase, in order. -/
def search (registrations : List Registration) (kind : Kind) (phase : Phase) :
    List ListenerId :=
  (registrations.filter (·.trigger.listens kind phase)).map (·.id)

end Registration

/-- The listeners of a run with the part of the index that has been asked for. -/
structure Dispatch where
  registrations : List Registration
  entries : List ((Kind × Phase) × List ListenerId) := []
  entries_eq : ∀ entry ∈ entries,
    entry.2 = Registration.search registrations entry.1.1 entry.1.2 := by simp

namespace Dispatch

def ofRules (rules : List Rule) : Dispatch :=
  { registrations := Registration.ofRules rules }

/-- Files the listeners of a kind and a phase. -/
def file (dispatch : Dispatch) (kind : Kind) (phase : Phase) : Dispatch :=
  { dispatch with
    entries :=
      ((kind, phase), Registration.search dispatch.registrations kind phase) ::
        dispatch.entries
    entries_eq := by
      intro entry hentry
      rcases List.mem_cons.mp hentry with rfl | hentry
      · rfl
      · exact dispatch.entries_eq entry hentry }

/-- The listeners for nodes of a kind in a phase, and the index after the question. -/
def candidates (dispatch : Dispatch) (kind : Kind) (phase : Phase) :
    List ListenerId × Dispatch :=
  match dispatch.entries.lookup (kind, phase) with
  | some found => (found, dispatch)
  | none =>
      (Registration.search dispatch.registrations kind phase, dispatch.file kind phase)

end Dispatch

end ReactiveLint
