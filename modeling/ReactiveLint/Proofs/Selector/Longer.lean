import ReactiveLint.Proofs.Selector.Written

/-!
# Readings of longer texts

A reader that stops before the end of a text reads the same of every longer text.  At the end of
a text this holds for what a compound cannot go on with.  More fuel makes no difference either.
-/

namespace ReactiveLint

namespace Selector

open Text

variable {cs rest : List Char}

/-! ## Attribute tests and positions -/

theorem expect_eq_ok_iff {expected : Char} :
    expect expected cs = .ok rest ↔ cs = expected :: rest := by
  cases cs with
  | nil => simp [expect]
  | cons c cs =>
      rw [expect]
      split <;> simp_all

theorem readQuoted_append {quote : Char} {read : List Char} {text : String}
    (hread : readQuoted quote read cs = .ok (text, rest)) (more : List Char) :
    readQuoted quote read (cs ++ more) = .ok (text, rest ++ more) := by
  induction read, cs using readQuoted.induct quote with
  | case1 | case3 => simp [readQuoted] at hread
  | case2 read c cs ih =>
      rw [readQuoted_escaped] at hread
      rw [List.cons_append, List.cons_append, readQuoted_escaped, ih hread]
  | case4 read cs hsingle hlast =>
      have hplain := ne_backslash hsingle hlast
      rw [readQuoted_plain hplain, if_pos rfl] at hread
      cases hread
      rw [List.cons_append, readQuoted_plain hplain, if_pos rfl]
  | case5 read c cs hsingle hlast hquote ih =>
      have hplain := ne_backslash hsingle hlast
      rw [readQuoted_plain hplain, if_neg hquote] at hread
      rw [List.cons_append, readQuoted_plain hplain, if_neg hquote, ih hread]

theorem readPatternBody_append {read : List Char} {body : String}
    (hread : readPatternBody read cs = .ok (body, rest)) (more : List Char) :
    readPatternBody read (cs ++ more) = .ok (body, rest ++ more) := by
  induction read, cs using readPatternBody.induct with
  | case1 | case4 => simp [readPatternBody] at hread
  | case2 read cs ih =>
      rw [readPatternBody] at hread
      rw [List.cons_append, List.cons_append, readPatternBody, ih hread]
  | case3 read c cs hslash ih =>
      rw [readPatternBody_escaped hslash] at hread
      rw [List.cons_append, List.cons_append, readPatternBody_escaped hslash, ih hread]
  | case5 read cs =>
      rw [readPatternBody_plain (by decide), if_pos rfl] at hread
      cases hread
      rw [List.cons_append, readPatternBody_plain (by decide), if_pos rfl]
  | case6 read c cs _ hsingle hlast hslash ih =>
      have hplain := ne_backslash hsingle hlast
      rw [readPatternBody_plain hplain, if_neg hslash] at hread
      rw [List.cons_append, readPatternBody_plain hplain, if_neg hslash, ih hread]

section Inner

variable (hne : rest ≠ [])

include hne

theorem readPattern_append {value : TestValue} (hread : readPattern cs = .ok (value, rest))
    (more : List Char) : readPattern (cs ++ more) = .ok (value, rest ++ more) := by
  rw [readPattern] at hread
  split at hread
  next => cases hread
  next body after hbody =>
    split at hread
    next => cases hread
    next flags hflags =>
      simp only at hread
      split at hread
      next pattern hpattern =>
        cases hread
        obtain ⟨htake, hdrop⟩ := @run_append _ _ more (.inl hne)
        rw [readPattern, readPatternBody_append hbody]
        simp only [htake, hdrop, hflags, hpattern]
      next => cases hread

theorem readComparison_append {comparison : Comparison}
    (hread : readComparison cs = .ok (comparison, rest)) (more : List Char) :
    readComparison (cs ++ more) = .ok (comparison, rest ++ more) := by
  obtain ⟨next, rest, rfl⟩ := List.exists_cons_of_ne_nil hne
  rw [readComparison.eq_def] at hread
  split at hread <;> cases hread
  all_goals simp_all [readComparison]

theorem readTestValue_append {comparison : Comparison} {value : TestValue}
    (hread : readTestValue comparison cs = .ok (value, rest)) (more : List Char) :
    readTestValue comparison (cs ++ more) = .ok (value, rest ++ more) := by
  rw [readTestValue.eq_def] at hread
  split at hread
  next => cases hread
  next =>
    obtain ⟨⟨text, after⟩, hquoted, heq⟩ := map_eq_ok_iff.mp hread
    cases heq
    rw [List.cons_append, readTestValue, readQuoted_append hquoted]
    rfl
  next =>
    obtain ⟨⟨text, after⟩, hquoted, heq⟩ := map_eq_ok_iff.mp hread
    cases heq
    rw [List.cons_append, readTestValue, readQuoted_append hquoted]
    rfl
  next =>
    split at hread
    next hcomparison =>
      rw [List.cons_append, readTestValue, if_pos hcomparison, readPattern_append hne hread]
    next => cases hread
  next hnil hsingle hdouble hslash =>
    obtain ⟨c, cs, rfl⟩ := List.exists_cons_of_ne_nil hnil
    simp only at hread
    split at hread
    next => cases hread
    next hword =>
      cases hread
      obtain ⟨htake, hdrop⟩ := @run_append _ _ more (.inl hne)
      rw [readTestValue]
      · simp only [htake, hdrop, if_neg hword]
      · exact List.cons_ne_nil _ _
      · exact fun _ heq => hsingle cs (by rw [(List.cons.inj heq).1])
      · exact fun _ heq => hdouble cs (by rw [(List.cons.inj heq).1])
      · exact fun _ heq => hslash cs (by rw [(List.cons.inj heq).1])

end Inner

theorem readAttribute_append {test : AttributeTest}
    (hread : readAttribute cs = .ok (test, rest)) (more : List Char) :
    readAttribute (cs ++ more) = .ok (test, rest ++ more) := by
  simp only [readAttribute] at hread
  split at hread
  next => cases hread
  next hname =>
    have htrim : trimStart cs ≠ [] := by
      rintro hnil
      simp [hnil] at hname
    -- behind the name comes a bracket or a sign, so that the text is not at its end yet
    have hgoes : ∀ {after : List Char},
        trimStart ((trimStart cs).dropWhile isAttributeChar) = after → after ≠ [] →
          (trimStart cs ++ more).takeWhile isAttributeChar =
              (trimStart cs).takeWhile isAttributeChar ∧
            trimStart ((trimStart cs ++ more).dropWhile isAttributeChar) = after ++ more := by
      intro after hafter hne
      have hdrop : (trimStart cs).dropWhile isAttributeChar ≠ [] := by
        rintro hnil
        exact hne (by rw [← hafter, hnil]; rfl)
      obtain ⟨htake, hrest⟩ := @run_append _ _ more (.inl hdrop)
      exact ⟨htake, by rw [hrest, trimStart_append (hafter ▸ hne), hafter]⟩
    split at hread
    next after hbracket =>
      cases hread
      obtain ⟨htake, hafter⟩ := hgoes hbracket (List.cons_ne_nil _ _)
      simp only [readAttribute, trimStart_append htrim, htake, hafter, if_neg hname,
        List.cons_append]
    next after hbracket =>
      split at hread
      next => cases hread
      next comparison signed hsign =>
        split at hread
        next => cases hread
        next value closed hvalue =>
          obtain ⟨_, hclose, heq⟩ := map_eq_ok_iff.mp hread
          cases heq
          have hclosed := expect_eq_ok_iff.mp hclose
          have hnil : trimStart [] = [] := rfl
          have hvalued : trimStart closed ≠ [] := by simp [hclosed]
          have hsigned : trimStart signed ≠ [] := by
            rintro hempty
            simp [hempty, readTestValue] at hvalue
          have hne : trimStart ((trimStart cs).dropWhile isAttributeChar) ≠ [] := by
            rintro hempty
            simp [hempty, readComparison] at hsign
          obtain ⟨htake, hafter⟩ := hgoes rfl hne
          have hsign := readComparison_append (fun h => hsigned (h ▸ hnil)) hsign more
          have hvalue := readTestValue_append (fun h => hvalued (h ▸ hnil)) hvalue more
          simp only [readAttribute, trimStart_append htrim, htake, if_neg hname, hafter]
          split
          next heq =>
            obtain ⟨c, cs, hcons⟩ := List.exists_cons_of_ne_nil hne
            rw [hcons, List.cons_append] at heq
            rw [(List.cons.inj heq).1] at hcons
            exact absurd hcons (hbracket cs)
          next =>
            simp only [hsign, trimStart_append hsigned, hvalue, trimStart_append hvalued, hclosed]
            rfl

theorem readPosition_append {position : Nat} (hread : readPosition cs = .ok (position, rest))
    (more : List Char) : readPosition (cs ++ more) = .ok (position, rest ++ more) := by
  simp only [readPosition] at hread
  split at hread
  next => cases hread
  next after hopen =>
    split at hread
    next => cases hread
    next hsmall =>
      obtain ⟨_, hclose, heq⟩ := map_eq_ok_iff.mp hread
      cases heq
      have hclosed := expect_eq_ok_iff.mp hclose
      have hnil : trimStart [] = [] := rfl
      have hdigits : trimStart ((trimStart after).dropWhile Char.isDigit) ≠ [] := by
        rw [Number.spanDigits] at hclosed
        simp [hclosed]
      have hdrop : (trimStart after).dropWhile Char.isDigit ≠ [] := fun h => hdigits (h ▸ hnil)
      have htrim : trimStart after ≠ [] := by
        rintro hempty
        simp [hempty] at hdrop
      obtain ⟨htake, hrest⟩ := @run_append _ _ more (.inl hdrop)
      obtain rfl := expect_eq_ok_iff.mp hopen
      rw [Bool.or_eq_true, not_or, decide_eq_true_eq] at hsmall
      simp only [Number.spanDigits] at hsmall hclosed
      simp only [readPosition, List.cons_append, expect_self, trimStart_append htrim,
        Number.spanDigits, htake, hrest, trimStart_append hdigits, hclosed]
      rw [if_neg (by rw [Bool.or_eq_true, decide_eq_true_eq]; exact not_or.mpr hsmall)]
      rfl

/-! ## Selectors -/

/-- A text that has been read up to a rest is read alike with more behind it: what is read ends
within the text, or the text behind it closes it. -/
def Separates (rest more : List Char) : Prop := rest ≠ [] ∨ Closes more

/-- What the readers of selectors return with some fuel they also return with more fuel, of a text
with more behind it. -/
structure ReadsLonger (fuel : Nat) : Prop where
  compound : ∀ {larger : Nat} {parts : List Selector} {cs rest more : List Char}
    {selector : Selector}, fuel ≤ larger → Separates rest more →
      readCompound fuel parts cs = .ok (selector, rest) →
      readCompound larger parts (cs ++ more) = .ok (selector, rest ++ more)
  pseudo : ∀ {larger : Nat} {cs rest more : List Char} {part : Selector}, fuel ≤ larger →
    Separates rest more → readPseudo fuel cs = .ok (part, rest) →
      readPseudo larger (cs ++ more) = .ok (part, rest ++ more)
  options : ∀ {larger : Nat} {cs rest : List Char} {options : List Selector}, fuel ≤ larger →
    readOptions fuel cs = .ok (options, rest) → ∀ more : List Char,
      readOptions larger (cs ++ more) = .ok (options, rest ++ more)
  complex : ∀ {larger : Nat} {nested : Bool} {cs rest : List Char} {selector : Selector},
    fuel ≤ larger → rest ≠ [] → readComplex fuel nested cs = .ok (selector, rest) →
      ∀ more : List Char, readComplex larger nested (cs ++ more) = .ok (selector, rest ++ more)
  steps : ∀ {larger : Nat} {left : Selector} {cs rest : List Char} {selector : Selector},
    fuel ≤ larger → rest ≠ [] → readSteps fuel left cs = .ok (selector, rest) →
      ∀ more : List Char, readSteps larger left (cs ++ more) = .ok (selector, rest ++ more)
  list : ∀ {larger : Nat} {read : List Selector} {cs rest : List Char} {selectors : List Selector},
    fuel ≤ larger → readList fuel true read cs = .ok (selectors, rest) → ∀ more : List Char,
      readList larger true read (cs ++ more) = .ok (selectors, rest ++ more)

theorem readsLonger_zero : ReadsLonger 0 where
  compound _ _ hread := by rw [readCompound_zero] at hread; cases hread
  pseudo _ _ hread := by rw [readPseudo] at hread; cases hread
  options _ hread := by rw [readOptions] at hread; cases hread
  complex _ _ hread := by rw [readComplex] at hread; cases hread
  steps _ _ hread := by rw [readSteps] at hread; cases hread
  list _ hread := by rw [readList] at hread; cases hread

theorem ne_nil_of_readOptions {fuel : Nat} {options : List Selector}
    (hread : readOptions fuel cs = .ok (options, rest)) : cs ≠ [] := by
  rintro rfl
  cases fuel <;> simp [readOptions, expect] at hread

theorem ne_nil_of_readPosition {position : Nat}
    (hread : readPosition cs = .ok (position, rest)) : cs ≠ [] := by
  rintro rfl
  simp [readPosition, expect] at hread

/-- What separates the rest behind a compound separates what is left before its last parts. -/
theorem Separates.before {more : List Char} (hseparates : Separates rest more) {fuel : Nat}
    {parts : List Selector} {selector : Selector}
    (hread : readCompound fuel parts cs = .ok (selector, rest)) : Separates cs more := by
  refine hseparates.imp_left fun hne => ?_
  rintro rfl
  exact hne (rest_eq_nil_of_readCompound_nil hread).1

theorem Joins.append {combinator : Combinator} {before : List Char}
    (hjoins : Joins cs combinator before) (hne : before ≠ []) (more : List Char) :
    Joins (cs ++ more) combinator (before ++ more) := by
  cases hjoins with
  | sign htrim hsign =>
      rw [← trimStart_append hne]
      refine .sign ?_ hsign
      rw [trimStart_append (by simp [htrim]), htrim, List.cons_append]
  | blank htrim hsign hmark hblank =>
      have hlonger := Nat.add_lt_add_right hblank more.length
      rw [← List.length_append, ← List.length_append] at hlonger
      refine .blank ?_ hsign hmark hlonger
      rw [trimStart_append (by simp [htrim]), htrim]
      rfl

theorem Separates.run_append {more : List Char} {accepts : Char → Bool}
    (hseparates : Separates (cs.dropWhile accepts) more)
    (hnot : ∀ c, IsCloser c → accepts c = false) :
    (cs ++ more).takeWhile accepts = cs.takeWhile accepts ∧
      (cs ++ more).dropWhile accepts = cs.dropWhile accepts ++ more :=
  Text.run_append (hseparates.imp_right fun hcloses c hc => hnot c (hcloses c hc))

theorem TakesNone.append {parts : List Selector} {more : List Char}
    (htakes : TakesNone parts cs) (hseparates : Separates cs more) :
    TakesNone parts (cs ++ more) := by
  cases cs with
  | nil => exact (hseparates.resolve_left (fun hne => hne rfl)).takesNone parts
  | cons c cs => exact htakes

section Step

variable {fuel larger : Nat} {more : List Char} (ih : ReadsLonger fuel) (hfuel : fuel ≤ larger)

include ih hfuel

theorem ReadsPart.append {part : Selector} (hseparates : Separates rest more)
    (hpart : ReadsPart fuel cs part rest) :
    ReadsPart larger (cs ++ more) part (rest ++ more) := by
  cases hpart with
  | wildcard => exact .wildcard
  | attr hread => exact .attr (readAttribute_append hread more)
  | @field cs hpath =>
      obtain ⟨htake, hdrop⟩ := hseparates.run_append fun _ hcloser => hcloser.not_taken.2.2.2.1
      have hpath' : ((cs ++ more).takeWhile isFieldChar).isEmpty = false := by rwa [htake]
      rw [← htake, ← hdrop]
      exact .field hpath'
  | pseudo hread => exact .pseudo (ih.pseudo hfuel hseparates hread)
  | @kind c cs found hstart hfound =>
      obtain ⟨htake, hdrop⟩ := hseparates.run_append fun _ hcloser => hcloser.not_taken.2.1
      rw [← htake] at hfound
      rw [← hdrop]
      exact .kind hstart hfound

theorem compound_longer {parts : List Selector} {selector : Selector}
    (hseparates : Separates rest more)
    (hread : readCompound (fuel + 1) parts cs = .ok (selector, rest)) :
    readCompound (larger + 1) parts (cs ++ more) = .ok (selector, rest ++ more) := by
  obtain ⟨rfl, htakes, hparts⟩ | ⟨part, after, hpart, hread⟩ | ⟨rfl, after, rfl, hread⟩ :=
    readCompound_cases hread
  · exact readCompound_of_takesNone (htakes.append hseparates) hparts
  · rw [readCompound_of_readsPart (hpart.append ih hfuel (hseparates.before hread))]
    exact ih.compound hfuel hseparates hread
  · rw [List.cons_append, readCompound_drop]
    exact ih.compound hfuel hseparates hread

theorem pseudo_longer {part : Selector} (hseparates : Separates rest more)
    (hread : readPseudo (fuel + 1) cs = .ok (part, rest)) :
    readPseudo (larger + 1) (cs ++ more) = .ok (part, rest ++ more) := by
  have hoptions : ∀ {form : List Selector → Selector} {after : List Char},
      (readOptions fuel after).map (fun found => (form found.1, found.2)) = .ok (part, rest) →
      after ≠ [] ∧ (readOptions larger (after ++ more)).map
        (fun found => (form found.1, found.2)) = .ok (part, rest ++ more) := by
    intro form after hread
    obtain ⟨⟨options, after⟩, hfound, heq⟩ := map_eq_ok_iff.mp hread
    cases heq
    rw [ih.options hfuel hfound]
    exact ⟨ne_nil_of_readOptions hfound, rfl⟩
  have hposition : ∀ {form : Nat → Selector} {after : List Char},
      (readPosition after).map (fun found => (form found.1, found.2)) = .ok (part, rest) →
      after ≠ [] ∧ (readPosition (after ++ more)).map
        (fun found => (form found.1, found.2)) = .ok (part, rest ++ more) := by
    intro form after hread
    obtain ⟨⟨position, after⟩, hfound, heq⟩ := map_eq_ok_iff.mp hread
    cases heq
    rw [readPosition_append hfound]
    exact ⟨ne_nil_of_readPosition hfound, rfl⟩
  have hname : Separates (cs.dropWhile isPseudoChar) more := by
    refine hseparates.imp_left fun hne => ?_
    rw [readPseudo] at hread
    split at hread
    · exact (hoptions hread).1
    · exact (hoptions hread).1
    · exact (hoptions hread).1
    · exact (hoptions hread).1
    · cases hread
      exact hne
    · cases hread
      exact hne
    · cases hread
      exact hne
    · exact (hposition hread).1
    · exact (hposition hread).1
    · cases hread
  obtain ⟨htake, hdrop⟩ := hname.run_append fun _ hcloser => hcloser.not_taken.2.2.2.2
  rw [readPseudo] at hread ⊢
  rw [htake, hdrop]
  split at hread
  · exact (hoptions hread).2
  · exact (hoptions hread).2
  · exact (hoptions hread).2
  · exact (hoptions hread).2
  · cases hread
    rfl
  · cases hread
    rfl
  · cases hread
    rfl
  · exact (hposition hread).2
  · exact (hposition hread).2
  · cases hread

theorem options_longer {options : List Selector}
    (hread : readOptions (fuel + 1) cs = .ok (options, rest)) (more : List Char) :
    readOptions (larger + 1) (cs ++ more) = .ok (options, rest ++ more) := by
  rw [readOptions] at hread
  split at hread
  next => cases hread
  next after hopen =>
    obtain rfl := expect_eq_ok_iff.mp hopen
    split at hread
    next => cases hread
    next found closed hlist =>
      obtain ⟨_, hclose, heq⟩ := map_eq_ok_iff.mp hread
      cases heq
      obtain rfl := expect_eq_ok_iff.mp hclose
      rw [List.cons_append, readOptions, expect_self]
      simp only [ih.list hfuel hlist more, List.cons_append, expect_self]
      rfl

theorem complex_longer {nested : Bool} {selector : Selector} (hne : rest ≠ [])
    (hread : readComplex (fuel + 1) nested cs = .ok (selector, rest)) (more : List Char) :
    readComplex (larger + 1) nested (cs ++ more) = .ok (selector, rest ++ more) := by
  have hsteps : ∀ {left : Selector} {after : List Char},
      readSteps fuel left after = .ok (selector, rest) →
        Separates after more ∧ readSteps larger left (after ++ more) = .ok (selector, rest ++ more) := by
    intro left after hread
    refine ⟨.inl ?_, ih.steps hfuel hne hread more⟩
    rintro rfl
    exact hne (rest_eq_nil_of_readSteps_nil hread)
  obtain ⟨c, cs, rfl⟩ := List.exists_cons_of_ne_nil (ne_nil_of_readComplex hread)
  rw [readComplex.eq_def] at hread ⊢
  simp only [List.cons_append] at hread ⊢
  split at hread
  next combinator start hleading =>
    split at hread
    next right after hright =>
      obtain ⟨hnested, hmap⟩ := Option.ite_none_right_eq_some.mp hleading
      obtain ⟨_, hsign, heq⟩ := Option.map_eq_some_iff.mp hmap
      cases heq
      obtain ⟨hafter, hlonger⟩ := hsteps hread
      simp only [hnested, if_true, hsign, Option.map_some,
        trimStart_append (ne_nil_of_readCompound hright), ih.compound hfuel hafter hright, hlonger]
    next => cases hread
  next hleading =>
    split at hread
    next left after hleft =>
      have hnone : (if nested = true then (combinatorSign? c).map (·, trimStart (cs ++ more))
          else none) = none := by
        cases nested with
        | false => rfl
        | true => simpa using hleading
      obtain ⟨hafter, hlonger⟩ := hsteps hread
      have hleft := ih.compound hfuel hafter hleft
      rw [List.cons_append] at hleft
      simp only [hnone, hleft, hlonger]
    next => cases hread

theorem steps_longer {left selector : Selector} (hne : rest ≠ [])
    (hread : readSteps (fuel + 1) left cs = .ok (selector, rest)) (more : List Char) :
    readSteps (larger + 1) left (cs ++ more) = .ok (selector, rest ++ more) := by
  obtain ⟨rfl, rfl, hmark⟩ | ⟨combinator, before, right, after, hjoins, hright, hread⟩ :=
    readSteps_cases hread
  · have htrim := trimStart_append hne more
    rw [← htrim]
    refine readSteps_of_not_joins ?_
    rw [htrim, List.head?_append_of_ne_nil _ hne]
    exact hmark
  · have hafter : Separates after more := by
      refine .inl ?_
      rintro rfl
      exact hne (rest_eq_nil_of_readSteps_nil hread)
    rw [readSteps_of_joins (hjoins.append (ne_nil_of_readCompound hright) more),
      ih.compound hfuel hafter hright]
    exact ih.steps hfuel hne hread more

theorem list_longer {read selectors : List Selector}
    (hread : readList (fuel + 1) true read cs = .ok (selectors, rest)) (more : List Char) :
    readList (larger + 1) true read (cs ++ more) = .ok (selectors, rest ++ more) := by
  obtain ⟨last, after, hlast, hend⟩ := readList_cases hread
  have hafter : trimStart after ≠ [] := by
    rcases hend with ⟨next, htrim, -⟩ | ⟨-, rfl, hhead⟩
    · simp [htrim]
    · rintro hnil
      simp [hnil] at hhead
  have hnil : after ≠ [] := by
    rintro rfl
    exact hafter rfl
  have hlonger := ih.complex hfuel hnil hlast more
  rw [← trimStart_append (ne_nil_of_readComplex hlast)] at hlonger
  rw [readList, hlonger]
  simp only [trimStart_append hafter]
  rcases hend with ⟨next, htrim, hread⟩ | ⟨rfl, rfl, hhead⟩
  · simp only [htrim, List.cons_append]
    exact ih.list hfuel hread more
  · obtain ⟨c, next, htrim⟩ := List.exists_cons_of_ne_nil hafter
    obtain rfl : c = ')' := by simpa [htrim] using hhead
    simp [htrim]

end Step

theorem readsLonger_succ {fuel : Nat} (ih : ReadsLonger fuel) : ReadsLonger (fuel + 1) := by
  have hmore : ∀ {larger : Nat}, fuel + 1 ≤ larger → ∃ less, larger = less + 1 ∧ fuel ≤ less :=
    fun {larger} hle => ⟨larger - 1, by omega, by omega⟩
  constructor
  case compound =>
    intro larger parts cs rest more selector hle hseparates hread
    obtain ⟨less, rfl, hfuel⟩ := hmore hle
    exact compound_longer ih hfuel hseparates hread
  case pseudo =>
    intro larger cs rest more part hle hseparates hread
    obtain ⟨less, rfl, hfuel⟩ := hmore hle
    exact pseudo_longer ih hfuel hseparates hread
  case options =>
    intro larger cs rest options hle hread
    obtain ⟨less, rfl, hfuel⟩ := hmore hle
    exact options_longer ih hfuel hread
  case complex =>
    intro larger nested cs rest selector hle hne hread
    obtain ⟨less, rfl, hfuel⟩ := hmore hle
    exact complex_longer ih hfuel hne hread
  case steps =>
    intro larger left cs rest selector hle hne hread
    obtain ⟨less, rfl, hfuel⟩ := hmore hle
    exact steps_longer ih hfuel hne hread
  case list =>
    intro larger read cs rest selectors hle hread
    obtain ⟨less, rfl, hfuel⟩ := hmore hle
    exact list_longer ih hfuel hread

theorem readsLonger (fuel : Nat) : ReadsLonger fuel := by
  induction fuel with
  | zero => exact readsLonger_zero
  | succ fuel ih => exact readsLonger_succ ih

end Selector

end ReactiveLint
