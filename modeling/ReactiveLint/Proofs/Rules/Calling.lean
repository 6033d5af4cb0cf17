import ReactiveLint.Proofs.Selector.Attributes
import ReactiveLint.Proofs.Selector.Downward
import ReactiveLint.Rules.Subscribing

/-!
# What a call calls

The rules about calls of methods look at the name of the method and at the type of its receiver.
-/

namespace ReactiveLint.Rules

variable {file : FileContext} {call : NodeId}

/-- What a node says, as a call, about what it calls. -/
structure Calling where
  kind : Kind
  /-- The name of the callee. -/
  name : Option Scalar
  /-- The name of the method that is called. -/
  method : Option Scalar
  onObservable : Bool
  onSubscription : Bool

def calling (file : FileContext) (call : NodeId) : Calling :=
  let callee := file.tree.child? call "callee"
  let receiver := file.tree.receiver? call
  { kind := file.tree.kind call
    name := callee.bind (file.tree.value? · "name")
    method := (callee.bind (file.tree.child? · "property")).bind (file.tree.value? · "name")
    onObservable := receiver.any (couldBe "Observable" file)
    onSubscription := receiver.any (couldBe "Subscription" file) }

@[simp]
theorem kind_calling : (calling file call).kind = file.tree.kind call := rfl

namespace Calling

def callsPipe (calling : Calling) : Bool :=
  calling.kind == .callExpression && calling.method.any fun name => name.toText == "pipe"

/-- A call of `pipe` on an observable. -/
def isPipe (calling : Calling) : Bool := calling.callsPipe && calling.onObservable

end Calling

/-- The selector for calls of `pipe`, as it is read. -/
def pipeSelector : Selector :=
  .compound [.kind .callExpression, .equals ["callee", "property", "name"] (.literal "pipe")]

theorem isMatch_pipeSelector :
    pipeSelector.isMatch file.tree call = (calling file call).callsPipe := by
  rw [pipeSelector, Selector.isMatch_pair, Selector.isMatch_equals_cons (by decide) (by decide)]
  simp only [Selector.isMatch_equals_cons (show IsSlotName "property" by decide)
    (show IsSlotName "name" by decide), Selector.isMatch_equals_literal
    (show IsSlotName "name" by decide), Calling.callsPipe, calling, Selector.isMatch_kind, Tree.is,
    Option.any_bind]
  rfl

end ReactiveLint.Rules
