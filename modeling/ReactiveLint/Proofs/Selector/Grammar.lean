import Mathlib.Data.List.Chain
import ReactiveLint.Proofs.Data.Result
import ReactiveLint.Proofs.Number.Text
import ReactiveLint.Selector.Parser
import ReactiveLint.Selector.Printer

/-!
# The selectors that can be read

What a reader returns has one of three forms: a part of a compound, a compound, or a
complex selector.  Neighbouring parts of a compound are such that the text of the first
would not go on into the second.
-/

namespace ReactiveLint

namespace Selector

/-- The source of a pattern as it stands between slashes: a backslash and the character
behind it belong together, and a slash has lost its backslash. -/
inductive IsPatternText : List Char → Prop
  | nil : IsPatternText []
  | plain {c : Char} {cs : List Char} (hplain : c ≠ '\\') (hrest : IsPatternText cs) :
      IsPatternText (c :: cs)
  | escaped {c : Char} {cs : List Char} (hslash : c ≠ '/') (hrest : IsPatternText cs) :
      IsPatternText ('\\' :: c :: cs)

theorem IsPatternText.append {left right : List Char} (hleft : IsPatternText left)
    (hright : IsPatternText right) : IsPatternText (left ++ right) := by
  induction hleft with
  | nil => exact hright
  | plain hplain _ ih => exact .plain hplain ih
  | escaped hslash _ ih => exact .escaped hslash ih

theorem isPatternText_of_no_backslash {cs : List Char} (hplain : '\\' ∉ cs) : IsPatternText cs := by
  induction cs with
  | nil => exact .nil
  | cons c cs ih =>
      rw [List.mem_cons, not_or] at hplain
      exact .plain (Ne.symm hplain.1) (ih hplain.2)

/-- The values that an attribute can be compared with. -/
def IsValue (comparison : Comparison) : TestValue → Prop
  | .literal _ => True
  | .number value => value.IsReadable
  | .pattern source pattern =>
      (comparison = .eq ∨ comparison = .ne) ∧ Pattern.parse? source = some pattern ∧
        IsPatternText source.toList

/-- A path as a run of characters. -/
def IsPath (accepts : Char → Bool) (path : List String) : Prop :=
  ∃ cs, cs ≠ [] ∧ (∀ c ∈ cs, accepts c = true) ∧ path = splitPath cs

structure IsTest (test : AttributeTest) : Prop where
  path : IsPath isAttributeChar test.path
  value : ∀ comparison value, test.test = some (comparison, value) → IsValue comparison value

/-- A kind whose name is a word. -/
def IsKindWord (kind : Kind) : Prop :=
  Kind.ofName? kind.name = some kind ∧ ∃ c cs, kind.name.toList = c :: cs ∧
    isKindStart c = true ∧ ∀ next ∈ cs, isKindChar next = true

/-- The characters that the reader of a part takes as more of it. -/
def takes : Selector → Char → Bool
  | .kind _ => isKindChar
  | field _ => isFieldChar
  | scope => isPseudoChar
  | _ => fun _ => false

/-- The first character of the text of a part. -/
def opener : Selector → Char
  | wildcard => '*'
  | .kind wanted => wanted.name.toList.headD '_'
  | field _ => '.'
  | attr _ => '['
  | _ => ':'

/-- The text after a part is not read as more of it. -/
def Stops (part : Selector) (rest : List Char) : Prop := ∀ c ∈ rest.head?, part.takes c = false

inductive Form
  | part
  | compound
  | complex

/-- The selectors of each form. -/
inductive IsForm : Form → Selector → Prop
  | wildcard : IsForm .part .wildcard
  | scope : IsForm .part .scope
  | kind {wanted : Kind} (hword : IsKindWord wanted) : IsForm .part (.kind wanted)
  | field {path : List String} (hpath : IsPath isFieldChar path) : IsForm .part (.field path)
  | attr {test : AttributeTest} (htest : IsTest test) : IsForm .part (.attr test)
  | not {options : List Selector} (hne : options ≠ [])
      (hoptions : ∀ option ∈ options, IsForm .complex option) : IsForm .part (.not options)
  | any {options : List Selector} (hne : options ≠ [])
      (hoptions : ∀ option ∈ options, IsForm .complex option) : IsForm .part (.any options)
  | has {options : List Selector} (hne : options ≠ [])
      (hoptions : ∀ option ∈ options, IsForm .complex option) : IsForm .part (.has options)
  | nthChild {position : Nat} (hlt : position < 2 ^ 64) : IsForm .part (.nthChild position)
  | nthLastChild {position : Nat} (hlt : position < 2 ^ 64) :
      IsForm .part (.nthLastChild position)
  | single {part : Selector} (hpart : IsForm .part part) : IsForm .compound part
  | compound {first second : Selector} {parts : List Selector}
      (hparts : ∀ part ∈ first :: second :: parts, IsForm .part part)
      (happart : (first :: second :: parts).IsChain fun left right =>
        left.takes right.opener = false) :
      IsForm .compound (.compound (first :: second :: parts))
  | base {selector : Selector} (hcompound : IsForm .compound selector) :
      IsForm .complex selector
  | combine {combinator : Combinator} {left right : Selector} (hleft : IsForm .complex left)
      (hright : IsForm .compound right) : IsForm .complex (.combine combinator left right)

/-! ## Values and attribute tests -/

variable {cs rest : List Char}

/-- A character that no case for a backslash has taken. -/
theorem ne_backslash {c : Char} (hsingle : ∀ next after, c = '\\' → cs = next :: after → False)
    (hlast : c = '\\' → cs = [] → False) : c ≠ '\\' := by
  intro hc
  cases cs with
  | nil => exact hlast hc rfl
  | cons next after => exact hsingle next after hc rfl

theorem readPatternBody_plain {c : Char} (hplain : c ≠ '\\') (read cs : List Char) :
    readPatternBody read (c :: cs) =
      if c = '/' then .ok (String.ofList read.reverse, cs) else readPatternBody (c :: read) cs := by
  rw [readPatternBody] <;> simp [hplain]

theorem readPatternBody_escaped {c : Char} (hslash : c ≠ '/') (read cs : List Char) :
    readPatternBody read ('\\' :: c :: cs) = readPatternBody (c :: '\\' :: read) cs := by
  rw [readPatternBody]
  exact hslash

theorem isPatternText_of_readPatternBody {read : List Char} {body : String}
    (hread : readPatternBody read cs = .ok (body, rest)) :
    ∃ more, body.toList = read.reverse ++ more ∧ IsPatternText more := by
  induction read, cs using readPatternBody.induct with
  | case1 | case4 => simp [readPatternBody] at hread
  | case2 read cs ih =>
      rw [readPatternBody] at hread
      obtain ⟨more, hbody, hmore⟩ := ih hread
      exact ⟨'/' :: more, by simp [hbody], .plain (by decide) hmore⟩
  | case3 read c cs hslash ih =>
      rw [readPatternBody_escaped hslash] at hread
      obtain ⟨more, hbody, hmore⟩ := ih hread
      exact ⟨'\\' :: c :: more, by simp [hbody], .escaped hslash hmore⟩
  | case5 read cs =>
      rw [readPatternBody_plain (by decide), if_pos rfl] at hread
      cases hread
      exact ⟨[], by simp, .nil⟩
  | case6 read c cs _ hsingle hlast hslash ih =>
      have hplain := ne_backslash hsingle hlast
      rw [readPatternBody_plain hplain, if_neg hslash] at hread
      obtain ⟨more, hbody, hmore⟩ := ih hread
      exact ⟨c :: more, by simp [hbody], .plain hplain hmore⟩

theorem no_backslash_of_inlineFlags {pattern : String} {flags kept : List Char}
    (hflags : inlineFlags pattern flags = .ok kept) : '\\' ∉ kept := by
  induction flags generalizing kept with
  | nil =>
      cases hflags
      simp
  | cons flag flags ih =>
      rw [inlineFlags] at hflags
      split at hflags
      next hinline =>
        cases hrest : inlineFlags pattern flags with
        | error stop => simp [hrest] at hflags
        | ok more =>
            rw [hrest] at hflags
            cases hflags
            rw [List.mem_cons, not_or]
            refine ⟨?_, ih hrest⟩
            rintro rfl
            exact absurd hinline (by decide)
      next =>
        split at hflags
        next => exact ih hflags
        next => cases hflags

theorem isValue_of_readPattern {comparison : Comparison} {value : TestValue}
    (hcomparison : comparison = .eq ∨ comparison = .ne)
    (hread : readPattern cs = .ok (value, rest)) : IsValue comparison value := by
  rw [readPattern] at hread
  split at hread
  next => cases hread
  next body after hbody =>
    split at hread
    next => cases hread
    next flags hflags =>
      obtain ⟨more, hmore, htext⟩ := isPatternText_of_readPatternBody hbody
      have hsource : IsPatternText
          (if flags.isEmpty then body else "(?" ++ String.ofList flags ++ ")" ++ body).toList := by
        split
        · rwa [hmore]
        · simp only [String.toList_append, hmore, String.toList_ofList]
          refine IsPatternText.append (isPatternText_of_no_backslash ?_) htext
          have hkept := no_backslash_of_inlineFlags hflags
          simp [hkept]
      simp only at hread
      split at hread
      next pattern hpattern =>
        cases hread
        exact ⟨hcomparison, hpattern, hsource⟩
      next => cases hread

theorem isValue_of_quoted {comparison : Comparison} {value : TestValue} {quote : Char}
    (hread : (readQuoted quote [] cs).map (fun (text, cs) => (TestValue.literal text, cs)) =
      .ok (value, rest)) : IsValue comparison value := by
  obtain ⟨found, -, heq⟩ := map_eq_ok_iff.mp hread
  cases heq
  trivial

theorem isValue_of_readTestValue {comparison : Comparison} {value : TestValue}
    (hread : readTestValue comparison cs = .ok (value, rest)) : IsValue comparison value := by
  rw [readTestValue.eq_def] at hread
  split at hread
  · cases hread
  · exact isValue_of_quoted hread
  · exact isValue_of_quoted hread
  · split at hread
    next hcomparison => exact isValue_of_readPattern hcomparison hread
    next => cases hread
  · simp only at hread
    split at hread
    next => cases hread
    next =>
      cases hread
      split
      next hnumber => exact Number.isReadable_of_ofText? hnumber
      next => trivial

/-- A path read as the longest run of its characters. -/
theorem isPath_takeWhile {accepts : Char → Bool} (hne : (cs.takeWhile accepts).isEmpty = false) :
    IsPath accepts (splitPath (cs.takeWhile accepts)) :=
  ⟨cs.takeWhile accepts, by simpa using hne, fun _ hc => List.mem_takeWhile_imp hc, rfl⟩

theorem isTest_of_readAttribute {test : AttributeTest}
    (hread : readAttribute cs = .ok (test, rest)) : IsTest test := by
  simp only [readAttribute] at hread
  split at hread
  next => cases hread
  next hname =>
    have hpath := isPath_takeWhile (Bool.eq_false_iff.mpr hname)
    split at hread
    next =>
      cases hread
      exact ⟨hpath, by simp⟩
    next =>
      split at hread
      next => cases hread
      next comparison after _ =>
        split at hread
        next => cases hread
        next value after' hvalue =>
          obtain ⟨rest, -, heq⟩ := map_eq_ok_iff.mp hread
          cases heq
          refine ⟨hpath, fun comparison value heq => ?_⟩
          cases heq
          exact isValue_of_readTestValue hvalue

theorem lt_of_readPosition {position : Nat} (hread : readPosition cs = .ok (position, rest)) :
    position < 2 ^ 64 := by
  simp only [readPosition] at hread
  split at hread
  next => cases hread
  next after _ =>
    split at hread
    next => cases hread
    next hsmall =>
      rw [Bool.or_eq_true, not_or, decide_eq_true_eq, not_le] at hsmall
      obtain ⟨rest, -, heq⟩ := map_eq_ok_iff.mp hread
      cases heq
      exact hsmall.2

end Selector

end ReactiveLint
