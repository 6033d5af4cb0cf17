import ReactiveLint.Proofs.Data.Result
import ReactiveLint.Proofs.Syntax.Built
import ReactiveLint.Selector.Match
import ReactiveLint.Selector.Parser

/-!
# Equality and inequality

Both tests are asked of the text form of an attribute, so for texts and numbers one of them
is the negation of the other.  A pattern is different: inequality reads the text form as
well, but equality reads the texts and kinds of a tree as they are, and leaves out what would
have to be written as a text first.
-/

namespace ReactiveLint

/-- An attribute that has a text only once it is written as one: a scalar other than a text,
or a length. -/
def Attribute.IsConverted : Attribute → Prop
  | value (.text _) => False
  | value _ => True
  | length _ => True
  | node _ => False
  | list _ => False
  | kind _ => False

namespace Selector

/-- The selector `[path=value]`. -/
def equals (path : List String) (value : TestValue) : Selector := attr ⟨path, some (.eq, value)⟩

/-- The selector `[path!=value]`. -/
def differs (path : List String) (value : TestValue) : Selector := attr ⟨path, some (.ne, value)⟩

variable {tree : Tree} {id : NodeId} {path : List String} {value : TestValue} {source : String}
  {pattern : Pattern} {reached : Option Attribute}

/-- A path reaches an attribute whose text form a pattern matches. -/
def Meets (pattern : Pattern) (reached : Option Attribute) : Prop :=
  ∃ found text, reached = some found ∧ found.text? = some text ∧ pattern.isMatch text = true

/-- The value is a pattern that matches the text form of what the path reaches, and that text
form is a converted one. -/
def Evades (tree : Tree) (id : NodeId) (path : List String) (value : TestValue) : Prop :=
  ∃ source pattern, value = .pattern source pattern ∧ Meets pattern (tree.path? id path) ∧
    ∀ found, tree.path? id path = some found → found.IsConverted

/-! ## Patterns -/

theorem likePattern_eq_true_iff : AttributeTest.likePattern pattern reached = true ↔
    Meets pattern reached ∧ ∀ found, reached = some found → ¬ found.IsConverted := by
  obtain _ | _ | _ | (_ | _ | _ | _) | _ | _ := reached <;>
    simp [AttributeTest.likePattern, Meets, Attribute.IsConverted, Attribute.text?, Scalar.toText]

/-- Equality with a pattern is a match of a text form that is not converted. -/
theorem isMatch_equals_pattern_iff :
    (equals path (.pattern source pattern)).isMatch tree id = true ↔
      Meets pattern (tree.path? id path) ∧
        ∀ found, tree.path? id path = some found → ¬ found.IsConverted := by
  rw [equals, isMatch, holds, AttributeTest.holds]
  exact likePattern_eq_true_iff

/-- Inequality with a pattern is the negation of a match of the text form. -/
theorem isMatch_differs_pattern_iff :
    (differs path (.pattern source pattern)).isMatch tree id = true ↔
      ¬ Meets pattern (tree.path? id path) := by
  rw [differs, isMatch, holds, AttributeTest.holds, AttributeTest.reachedText?, Meets]
  cases tree.path? id path with
  | none => simp
  | some found => cases htext : found.text? <;> simp [htext]

/-! ## The two tests together -/

/-- Against a text or a number the two tests are negations of one another. -/
theorem isMatch_differs_eq_not (hvalue : ∀ source pattern, value ≠ .pattern source pattern) :
    (differs path value).isMatch tree id = !(equals path value).isMatch tree id := by
  cases value with
  | literal text => simp only [differs, equals, isMatch, holds, AttributeTest.holds, bne]
  | number value => simp only [differs, equals, isMatch, holds, AttributeTest.holds, bne]
  | pattern source pattern => exact absurd rfl (hvalue source pattern)

theorem Evades.isMatch_eq_false (hevades : Evades tree id path value) :
    (equals path value).isMatch tree id = false ∧ (differs path value).isMatch tree id = false := by
  obtain ⟨source, pattern, rfl, hmeets, hconverted⟩ := hevades
  have ⟨found, _, hfound, _⟩ := hmeets
  constructor
  · rw [Bool.eq_false_iff, ne_eq, isMatch_equals_pattern_iff]
    exact fun hequals => hequals.2 found hfound (hconverted found hfound)
  · rw [Bool.eq_false_iff, ne_eq, isMatch_differs_pattern_iff, not_not]
    exact hmeets

/-- Every node passes exactly one of the two tests, whatever the path reaches and whatever the
value is, unless the value evades: then the node passes neither. -/
theorem isMatch_differs_eq_not_iff (tree : Tree) (id : NodeId) (path : List String)
    (value : TestValue) :
    ((differs path value).isMatch tree id = !(equals path value).isMatch tree id ↔
        ¬ Evades tree id path value) ∧
      (Evades tree id path value → (equals path value).isMatch tree id = false ∧
        (differs path value).isMatch tree id = false) := by
  refine ⟨⟨fun hnegated hevades => ?_, fun hevades => ?_⟩, Evades.isMatch_eq_false⟩
  · obtain ⟨hequals, hdiffers⟩ := hevades.isMatch_eq_false
    rw [hequals, hdiffers] at hnegated
    cases hnegated
  · by_cases hvalue : ∃ source pattern, value = .pattern source pattern
    · obtain ⟨source, pattern, rfl⟩ := hvalue
      rw [Bool.eq_iff_iff, Bool.not_eq_true', Bool.eq_false_iff, ne_eq, isMatch_equals_pattern_iff,
        isMatch_differs_pattern_iff, not_iff_not]
      refine ⟨fun hmeets => ⟨hmeets, fun found hfound hconverted => hevades ?_⟩, And.left⟩
      -- a path reaches one attribute only
      refine ⟨source, pattern, rfl, hmeets, fun other hother => ?_⟩
      rwa [← Option.some.inj (hfound.symm.trans hother)]
    · push Not at hvalue
      exact isMatch_differs_eq_not hvalue

/-- The arena of the number `42`. -/
def answerArena : List NodeDraft :=
  [⟨.literal, ⟨0, 2⟩, [("value", .value (.number (.ofNat 42)))]⟩]

/-- A number has the text `42` for inequality, and none for equality. -/
theorem not_forall_isMatch_differs_eq_not :
    ¬ ∀ (drafts : List NodeDraft) (root : NodeId) (source : String) (tree : Tree),
      Tree.build? drafts root source = .ok tree → ∀ id < tree.size, ∀ path value,
        (differs path value).isMatch tree id = !(equals path value).isMatch tree id := by
  intro hall
  let answerTree := (Tree.build? answerArena 0 "42").toOption.getD default
  let value : TestValue := .pattern "4" (.one (.range '4' '4'))
  have hevaluated : (Tree.build? answerArena 0 "42").isOk = true ∧ 0 < answerTree.size ∧
      (equals ["value"] value).isMatch answerTree 0 = false ∧
      (differs ["value"] value).isMatch answerTree 0 = false := by
    decide +kernel
  obtain ⟨hok, hsize, hequals, hdiffers⟩ := hevaluated
  have hnegated := hall answerArena 0 "42" answerTree (eq_ok_of_isOk hok default) 0 hsize
    ["value"] value
  rw [hequals, hdiffers] at hnegated
  cases hnegated

example : parse "[value!=/4/]" = .ok (differs ["value"] (.pattern "4" (.one (.range '4' '4')))) :=
  rfl

end Selector

end ReactiveLint
