import ReactiveLint.Proofs.Selector.CutPoint

/-!
# Selectors that are cut short

A selector that is read is cut off after any of its characters, and what is left is read again.
Only one kind of cut has a character blamed: the one in the name of an attribute test or behind
it, before a bracket or the whole of a sign.
-/

namespace ReactiveLint

namespace Selector

open Text CutPoint

variable {cs pre post rest : List Char}

/-- A selector list behind one of its selectors. -/
def readMore (fuel : Nat) (nested : Bool) (read : List Selector) :
    List Char → Reading (List Selector)
  | ',' :: cs => readList fuel nested read cs
  | [] => if nested then .error (.at []) else .ok (read.reverse, [])
  | c :: cs => if nested ∧ c = ')' then .ok (read.reverse, c :: cs) else .error (.at (c :: cs))

theorem readMore_of_ne {c : Char} (hne : c ≠ ',') (fuel : Nat) (nested : Bool)
    (read : List Selector) (cs : List Char) :
    readMore fuel nested read (c :: cs) =
      if nested ∧ c = ')' then .ok (read.reverse, c :: cs) else .error (.at (c :: cs)) := by
  rw [readMore]
  exact fun heq => absurd heq hne

/-- A selector list from one of its selectors on. -/
def readFirst (fuel : Nat) (nested : Bool) (read : List Selector) (cs : List Char) :
    Reading (List Selector) :=
  (readComplex fuel nested cs).bind fun (selector, cs) =>
    readMore fuel nested (selector :: read) (trimStart cs)

theorem readList_succ (fuel : Nat) (nested : Bool) (read : List Selector) (cs : List Char) :
    readList (fuel + 1) nested read cs = readFirst fuel nested read (trimStart cs) := by
  rw [readList, readFirst]
  cases readComplex fuel nested (trimStart cs) with
  | error stop => rfl
  | ok found =>
      simp only [Except.bind]
      generalize trimStart found.2 = rest
      split
      next => rfl
      next => rfl
      next hcomma => exact (readMore_of_ne hcomma ..).symm

/-- A compound with the steps behind it. -/
def readChain (fuel : Nat) (form : Selector → Selector) (cs : List Char) : Reading Selector :=
  (readCompound fuel [] cs).bind fun (found, cs) => readSteps fuel (form found) cs

theorem readOptions_cons (fuel : Nat) (cs : List Char) :
    readOptions (fuel + 1) ('(' :: cs) =
      (readList fuel true [] cs).bind fun (options, cs) =>
        (expect ')' cs).map fun cs => (options, cs) := by
  rw [readOptions, expect_self]
  simp only
  cases readList fuel true [] cs <;> rfl

/-! ## The end of a text -/

theorem atEnd_readCompound_nil (fuel : Nat) (parts : List Selector) :
    AtEnd (readCompound fuel parts []) := by
  cases fuel with
  | zero => exact .at_nil
  | succ fuel =>
      rw [readCompound_succ]
      simp only
      split
      next selector _ => exact .ok selector
      next => exact .at_nil

theorem atEnd_readSteps_nil (fuel : Nat) (left : Selector) : AtEnd (readSteps fuel left []) := by
  cases fuel with
  | zero => exact .at_nil
  | succ fuel => exact .ok left

theorem atEnd_readChain_nil (fuel : Nat) (form : Selector → Selector) :
    AtEnd (readChain fuel form []) :=
  (atEnd_readCompound_nil fuel []).bind fun found => atEnd_readSteps_nil fuel (form found)

theorem atEnd_readComplex_nil (fuel : Nat) (nested : Bool) :
    AtEnd (readComplex fuel nested []) := by
  cases fuel with
  | zero => exact .at_nil
  | succ fuel =>
      have hcut : readComplex (fuel + 1) nested [] = readChain fuel id [] := by
        rw [readComplex, readChain]
        cases readCompound fuel [] [] <;> rfl
      rw [hcut]
      exact atEnd_readChain_nil fuel id

theorem atEnd_readOptions_nil (fuel : Nat) : AtEnd (readOptions fuel []) := by
  cases fuel with
  | zero => exact .at_nil
  | succ fuel => exact .at_nil

theorem atEnd_readMore_nil (fuel : Nat) (nested : Bool) (read : List Selector) :
    AtEnd (readMore fuel nested read []) := by
  cases nested with
  | false => exact .ok read.reverse
  | true => exact .at_nil

theorem atEnd_readFirst_nil (fuel : Nat) (nested : Bool) (read : List Selector) :
    AtEnd (readFirst fuel nested read []) :=
  (atEnd_readComplex_nil fuel nested).bind fun _ => atEnd_readMore_nil fuel nested _

/-- A pseudo-class of which no more than a name is left. -/
theorem atEnd_readPseudo (hname : cs.dropWhile isPseudoChar = []) (fuel : Nat)
    (hfuel : fuel ≠ 0) : AtEnd (readPseudo fuel cs) := by
  obtain ⟨fuel, rfl⟩ := Nat.exists_eq_succ_of_ne_zero hfuel
  rw [readPseudo, hname]
  simp only
  split
  · exact (atEnd_readOptions_nil fuel).map Selector.not
  · exact (atEnd_readOptions_nil fuel).map any
  · exact (atEnd_readOptions_nil fuel).map any
  · exact (atEnd_readOptions_nil fuel).map has
  · exact .ok _
  · exact .ok _
  · exact .ok _
  · exact .at_nil
  · exact .at_nil
  · exact .error rfl

/-! ## The readers -/

/-- What the readers of selectors read with some fuel, they read or come to the end of when it is
cut off, given the fuel that the rest can need. -/
structure ReadsCut (fuel : Nat) : Prop where
  compound : ∀ {enough : Nat} {parts : List Selector} {pre post rest : List Char}
    {selector : Selector}, 8 * pre.length + 1 ≤ enough →
      readCompound fuel parts (pre ++ post) = .ok (selector, rest) →
      IsCut outside outside pre post selector rest (readCompound enough parts pre)
  pseudo : ∀ {enough : Nat} {pre post rest : List Char} {part : Selector},
    8 * pre.length + 2 ≤ enough → readPseudo fuel (pre ++ post) = .ok (part, rest) →
      IsCut outside outside pre post part rest (readPseudo enough pre)
  options : ∀ {enough : Nat} {pre post rest : List Char} {options : List Selector},
    8 * pre.length + 1 ≤ enough → readOptions fuel (pre ++ post) = .ok (options, rest) →
      IsCut outside outside pre post options rest (readOptions enough pre)
  complex : ∀ {enough : Nat} {nested : Bool} {pre post rest : List Char} {selector : Selector},
    8 * pre.length + 3 ≤ enough → readComplex fuel nested (pre ++ post) = .ok (selector, rest) →
      IsCut outside outside pre post selector rest (readComplex enough nested pre)
  steps : ∀ {enough : Nat} {left : Selector} {pre post rest : List Char} {selector : Selector},
    8 * pre.length + 2 ≤ enough → readSteps fuel left (pre ++ post) = .ok (selector, rest) →
      IsCut outside outside pre post selector rest (readSteps enough left pre)
  list : ∀ {enough : Nat} {nested : Bool} {read : List Selector} {pre post rest : List Char}
    {selectors : List Selector}, 8 * pre.length + 4 ≤ enough →
      readList fuel nested read (pre ++ post) = .ok (selectors, rest) →
      IsCut outside outside pre post selectors rest (readList enough nested read pre)

theorem readsCut_zero : ReadsCut 0 where
  compound _ hread := by rw [readCompound_zero] at hread; cases hread
  pseudo _ hread := by rw [readPseudo] at hread; cases hread
  options _ hread := by rw [readOptions] at hread; cases hread
  complex _ hread := by rw [readComplex] at hread; cases hread
  steps _ hread := by rw [readSteps] at hread; cases hread
  list _ hread := by rw [readList] at hread; cases hread

theorem isAlphanumeric_bracket : isAlphanumeric '[' = false := by decide +kernel

theorem ne_bracket_of_combinatorSign? {c : Char} {combinator : Combinator}
    (hsign : combinatorSign? c = some combinator) : c ≠ '[' := by
  rintro rfl
  cases hsign

section Step

variable {fuel enough : Nat} (ih : ReadsCut fuel)

include ih

theorem isCut_part {c : Char} {part selector : Selector} {parts : List Selector} {after : List Char}
    (henough : 8 * pre.length + 8 ≤ enough) (hpart : ReadsPart fuel (c :: (pre ++ post)) part after)
    (hread : readCompound fuel (part :: parts) after = .ok (selector, rest)) :
    IsCut outside outside (c :: pre) post selector rest
      (readCompound (enough + 1) parts (c :: pre)) := by
  -- behind the part, the compound goes on with what is left
  have hmore : ∀ {left : List Char}, left <:+ pre → after = left ++ post →
      IsCut outside outside left post selector rest (readCompound enough (part :: parts) left) := by
    rintro left hleft rfl
    exact ih.compound (by have := hleft.length_le; omega) hread
  cases hpart with
  | wildcard =>
      rw [readCompound_of_readsPart .wildcard]
      exact .cons (hmore List.suffix_rfl rfl)
  | attr hattr =>
      rw [readCompound_bracket]
      refine .cons ((isCut_readAttribute hattr).bind (fun _ => atEnd_readCompound_nil _ _) ?_)
      exact fun left hafter hleft => hmore hleft hafter
  | field hpath =>
      have hignores : outside.Ignores isFieldChar :=
        outside_ignores (by simp [isFieldChar, isAlphanumeric_bracket])
      refine .cons ?_
      by_cases hdrop : pre.dropWhile isFieldChar = []
      · refine .broken (hignores.breaks rfl hdrop ?_)
        rw [readCompound_succ]
        simp only [hdrop]
        split
        next hempty =>
          have hpre : pre.takeWhile isFieldChar ++ pre.dropWhile isFieldChar = pre :=
            List.takeWhile_append_dropWhile
          rw [List.isEmpty_iff.mp hempty, hdrop] at hpre
          rw [← hpre]
          exact .at_nil
        next => exact atEnd_readCompound_nil _ _
      · obtain ⟨htake, hrest⟩ := @run_append _ _ post (.inl hdrop)
        rw [htake] at hpath hmore hread
        rw [readCompound_of_readsPart (.field hpath)]
        have hleft : pre.dropWhile isFieldChar <:+ pre := List.dropWhile_suffix isFieldChar
        exact (hmore hleft hrest).behind hleft (hignores.after_dropWhile pre).symm
  | pseudo hpseudo =>
      rw [readCompound_colon]
      refine .cons ((ih.pseudo (by omega) hpseudo).bind (fun _ => atEnd_readCompound_nil _ _) ?_)
      exact fun left hafter hleft => hmore hleft hafter
  | kind hstart hfound =>
      have hignores : outside.Ignores isKindChar :=
        outside_ignores (by simp [isKindChar, isAlphanumeric_bracket])
      rw [← List.cons_append] at hfound hmore
      by_cases hdrop : (c :: pre).dropWhile isKindChar = []
      · refine .broken (hignores.breaks rfl hdrop ?_)
        rw [readCompound_unmarked (unmarked_of_isKindStart hstart), if_pos hstart, hdrop]
        split
        next => exact atEnd_readCompound_nil _ _
        next => exact .error rfl
      · obtain ⟨htake, hrest⟩ := @run_append _ _ post (.inl hdrop)
        rw [htake] at hfound
        rw [readCompound_of_readsPart (.kind hstart hfound)]
        refine (hmore ?_ hrest).behind (List.dropWhile_suffix isKindChar)
          (hignores.after_dropWhile (c :: pre)).symm
        rw [List.dropWhile_cons_of_pos (isKindChar_of_isKindStart hstart)]
        exact List.dropWhile_suffix isKindChar

theorem compound_cut {parts : List Selector} {selector : Selector}
    (henough : 8 * pre.length + 1 ≤ enough + 1)
    (hread : readCompound (fuel + 1) parts (pre ++ post) = .ok (selector, rest)) :
    IsCut outside outside pre post selector rest (readCompound (enough + 1) parts pre) := by
  cases pre with
  | nil => exact .broken (.atEnd (atEnd_readCompound_nil _ _) rfl)
  | cons c pre =>
      rw [List.length_cons] at henough
      obtain ⟨rfl, htakes, hparts⟩ | ⟨part, after, hpart, hread⟩ | ⟨rfl, after, hdrop, hread⟩ :=
        readCompound_cases hread
      · have htakes : TakesNone parts (c :: pre) := htakes
        rw [readCompound_of_takesNone htakes hparts]
        exact .whole rfl List.suffix_rfl rfl
      · exact isCut_part ih (by omega) hpart hread
      · obtain ⟨rfl, rfl⟩ := List.cons.inj hdrop
        rw [readCompound_drop]
        exact .cons (ih.compound (by omega) hread)

theorem pseudo_cut {part : Selector} (henough : 8 * pre.length + 2 ≤ enough + 1)
    (hread : readPseudo (fuel + 1) (pre ++ post) = .ok (part, rest)) :
    IsCut outside outside pre post part rest (readPseudo (enough + 1) pre) := by
  have hignores : outside.Ignores isPseudoChar := outside_ignores (by decide)
  by_cases hdrop : pre.dropWhile isPseudoChar = []
  · exact .broken (hignores.breaks rfl hdrop (atEnd_readPseudo hdrop _ (Nat.succ_ne_zero _)))
  have hleft : pre.dropWhile isPseudoChar <:+ pre := List.dropWhile_suffix isPseudoChar
  have hoptions : ∀ {form : List Selector → Selector},
      (readOptions fuel (pre.dropWhile isPseudoChar ++ post)).map
        (fun found => (form found.1, found.2)) = .ok (part, rest) →
      IsCut outside outside (pre.dropWhile isPseudoChar) post part rest
        ((readOptions enough (pre.dropWhile isPseudoChar)).map
          fun found => (form found.1, found.2)) := by
    intro form hread
    obtain ⟨⟨options, after⟩, hfound, heq⟩ := map_eq_ok_iff.mp hread
    cases heq
    exact (ih.options (by have := hleft.length_le; omega) hfound).map form
  have hposition : ∀ {form : Nat → Selector},
      (readPosition (pre.dropWhile isPseudoChar ++ post)).map
        (fun found => (form found.1, found.2)) = .ok (part, rest) →
      IsCut outside outside (pre.dropWhile isPseudoChar) post part rest
        ((readPosition (pre.dropWhile isPseudoChar)).map
          fun found => (form found.1, found.2)) := by
    intro form hread
    obtain ⟨⟨position, after⟩, hfound, heq⟩ := map_eq_ok_iff.mp hread
    cases heq
    exact (isCut_readPosition hfound).map form
  obtain ⟨htake, hrest⟩ := @run_append _ _ post (.inl hdrop)
  refine IsCut.behind ?_ hleft (hignores.after_dropWhile pre).symm
  rw [readPseudo, htake, hrest] at hread
  rw [readPseudo]
  split at hread
  · exact hoptions hread
  · exact hoptions hread
  · exact hoptions hread
  · exact hoptions hread
  · cases hread
    exact .whole rfl List.suffix_rfl rfl
  · cases hread
    exact .whole rfl List.suffix_rfl rfl
  · cases hread
    exact .whole rfl List.suffix_rfl rfl
  · exact hposition hread
  · exact hposition hread
  · cases hread

theorem options_cut {options : List Selector} (henough : 8 * pre.length + 1 ≤ enough + 1)
    (hread : readOptions (fuel + 1) (pre ++ post) = .ok (options, rest)) :
    IsCut outside outside pre post options rest (readOptions (enough + 1) pre) := by
  cases pre with
  | nil => exact .broken (.atEnd (atEnd_readOptions_nil _) rfl)
  | cons c pre =>
      rw [List.length_cons] at henough
      obtain rfl : c = '(' := by
        by_contra hne
        simp [readOptions, expect, hne] at hread
      rw [List.cons_append, readOptions_cons] at hread
      rw [readOptions_cons]
      obtain ⟨⟨found, after⟩, hlist, hclose⟩ := bind_eq_ok_iff.mp hread
      refine .cons ((ih.list (by omega) hlist).bind (fun _ => .at_nil) ?_)
      rintro left rfl -
      obtain ⟨_, -, heq⟩ := map_eq_ok_iff.mp hclose
      cases heq
      exact isCut_expect rfl hclose

theorem isCut_readMore {nested : Bool} {read selectors : List Selector}
    (henough : 8 * pre.length ≤ enough + 4) (hne : pre ≠ [])
    (hread : readMore fuel nested read (pre ++ post) = .ok (selectors, rest)) :
    IsCut outside outside pre post selectors rest (readMore enough nested read pre) := by
  obtain ⟨c, pre, rfl⟩ := List.exists_cons_of_ne_nil hne
  rw [List.length_cons] at henough
  by_cases hcomma : c = ','
  · subst hcomma
    exact .cons (ih.list (by omega) hread)
  · rw [List.cons_append, readMore_of_ne hcomma] at hread
    rw [readMore_of_ne hcomma]
    split_ifs at hread ⊢
    cases hread
    exact .whole rfl List.suffix_rfl rfl

theorem list_cut {nested : Bool} {read selectors : List Selector}
    (henough : 8 * pre.length + 4 ≤ enough + 1)
    (hread : readList (fuel + 1) nested read (pre ++ post) = .ok (selectors, rest)) :
    IsCut outside outside pre post selectors rest (readList (enough + 1) nested read pre) := by
  have hignores : outside.Ignores isBlank := outside_ignores (by decide)
  rw [readList_succ] at hread ⊢
  refine .dropWhile (readFirst enough nested read) hignores
    (.atEnd (atEnd_readFirst_nil _ _ _) rfl) fun hne => ?_
  have hlength : (pre.dropWhile isBlank).length ≤ pre.length :=
    (List.dropWhile_suffix isBlank).length_le
  rw [trimStart_append hne] at hread
  obtain ⟨⟨selector, after⟩, hfirst, hmore⟩ := bind_eq_ok_iff.mp hread
  refine (ih.complex (by rw [trimStart]; omega) hfirst).bind (fun _ => atEnd_readMore_nil _ _ _) ?_
  rintro left rfl hleft
  refine .dropWhile (readMore enough nested (selector :: read)) hignores
    (.atEnd (atEnd_readMore_nil _ _ _) rfl) fun hne => ?_
  have hmost : (left.dropWhile isBlank).length ≤ left.length :=
    (List.dropWhile_suffix isBlank).length_le
  have hleast := hleft.length_le
  simp only [trimStart_append hne] at hmore
  rw [trimStart] at hleast
  exact isCut_readMore ih (by omega) hne hmore

omit ih in
/-- What stands between two compounds stands there in a text that is cut off behind it, up to a
text that is cut off as well. -/
theorem Joins.cut {combinator : Combinator} {before : List Char}
    (hjoins : Joins (pre ++ post) combinator before) (hne : trimStart pre ≠ []) :
    ∃ left, left <:+ pre ∧ left.length < pre.length ∧ outside.after pre = outside.after left ∧
      Joins pre combinator left ∧ (left ≠ [] → before = left ++ post) := by
  have hignores : outside.Ignores isBlank := outside_ignores (by decide)
  have hsuffix : trimStart pre <:+ pre := List.dropWhile_suffix isBlank
  have hafter : outside.after pre = outside.after (trimStart pre) :=
    (hignores.after_dropWhile pre).symm
  obtain ⟨c, left, htrim⟩ := List.exists_cons_of_ne_nil hne
  have hlonger : trimStart (pre ++ post) = c :: (left ++ post) := by
    rw [trimStart_append hne, htrim, List.cons_append]
  rw [htrim] at hsuffix hafter
  cases hjoins with
  | sign hcons hsign =>
      obtain ⟨rfl, rfl⟩ := List.cons.inj (hlonger.symm.trans hcons)
      have hleft : trimStart left <:+ left := List.dropWhile_suffix isBlank
      refine ⟨trimStart left, hleft.trans ((List.suffix_cons c left).trans hsuffix), ?_, ?_,
        .sign htrim hsign, fun hne => trimStart_append hne post⟩
      · have hlength := hsuffix.length_le
        rw [List.length_cons] at hlength
        exact lt_of_le_of_lt hleft.length_le hlength
      · rw [hafter, after_cons, next, if_neg (ne_bracket_of_combinatorSign? hsign)]
        exact (hignores.after_dropWhile left).symm
  | blank hcons hsign hmark hblank =>
      obtain ⟨rfl, rfl⟩ := List.cons.inj (hlonger.symm.trans hcons)
      have hshorter : (c :: left).length < pre.length := by
        rw [← List.cons_append, List.length_append, List.length_append] at hblank
        omega
      exact ⟨c :: left, hsuffix, hshorter, hafter, .blank htrim hsign hmark hshorter, fun _ => rfl⟩

theorem isCut_readChain {form : Selector → Selector} {selector : Selector}
    (henough : 8 * pre.length + 2 ≤ enough)
    (hread : readChain fuel form (pre ++ post) = .ok (selector, rest)) :
    IsCut outside outside pre post selector rest (readChain enough form pre) := by
  obtain ⟨⟨found, after⟩, hfound, hsteps⟩ := bind_eq_ok_iff.mp hread
  refine (ih.compound (by omega) hfound).bind (fun _ => atEnd_readSteps_nil _ _) ?_
  rintro left rfl hleft
  have hlength := hleft.length_le
  exact ih.steps (by omega) hsteps

theorem steps_cut {left selector : Selector} (henough : 8 * pre.length + 2 ≤ enough + 1)
    (hread : readSteps (fuel + 1) left (pre ++ post) = .ok (selector, rest)) :
    IsCut outside outside pre post selector rest (readSteps (enough + 1) left pre) := by
  have hignores : outside.Ignores isBlank := outside_ignores (by decide)
  by_cases htrim : trimStart pre = []
  · have hstop : readSteps (enough + 1) left pre = .ok (left, []) := by
      rw [readSteps_of_not_joins (by simp [htrim]), htrim]
    rw [hstop]
    exact .broken (hignores.breaks rfl htrim (.ok left))
  obtain ⟨rfl, rfl, hmark⟩ | ⟨combinator, before, right, after, hjoins, hright, hread⟩ :=
    readSteps_cases hread
  · rw [trimStart_append htrim] at hmark ⊢
    rw [readSteps_of_not_joins]
    · exact .whole rfl (List.dropWhile_suffix isBlank) (hignores.after_dropWhile pre).symm
    · rwa [List.head?_append_of_ne_nil _ htrim] at hmark
  · obtain ⟨cut, hsuffix, hlength, hafter, hjoins, hbefore⟩ := hjoins.cut htrim
    rw [readSteps_of_joins hjoins]
    refine IsCut.behind ?_ hsuffix hafter
    change IsCut outside outside cut post selector rest
      (readChain enough (combine combinator left) cut)
    by_cases hcut : cut = []
    · subst hcut
      exact .broken (.atEnd (atEnd_readChain_nil _ _) rfl)
    · rw [hbefore hcut] at hright
      exact isCut_readChain ih (by omega) (bind_eq_ok_iff.mpr ⟨_, hright, hread⟩)

theorem complex_cut {nested : Bool} {selector : Selector}
    (henough : 8 * pre.length + 3 ≤ enough + 1)
    (hread : readComplex (fuel + 1) nested (pre ++ post) = .ok (selector, rest)) :
    IsCut outside outside pre post selector rest (readComplex (enough + 1) nested pre) := by
  cases pre with
  | nil => exact .broken (.atEnd (atEnd_readComplex_nil _ _) rfl)
  | cons c pre =>
      by_cases hsign : nested = true → combinatorSign? c = none
      · rw [List.cons_append, readComplex_of_not_sign hsign, ← List.cons_append] at hread
        rw [readComplex_of_not_sign hsign]
        exact @isCut_readChain _ _ _ _ _ ih id _ (by omega) hread
      · obtain ⟨rfl, hsome⟩ := Classical.not_imp.mp hsign
        obtain ⟨combinator, hsign⟩ := Option.ne_none_iff_exists'.mp hsome
        have hnext : outside.next c = outside := if_neg (ne_bracket_of_combinatorSign? hsign)
        rw [List.cons_append, readComplex_sign hsign] at hread
        rw [readComplex_sign hsign]
        refine .cons ?_
        rw [hnext]
        refine .dropWhile (readChain enough (combine combinator scope))
          (outside_ignores (by decide)) (.atEnd (atEnd_readChain_nil _ _) rfl) fun hne => ?_
        rw [trimStart_append hne] at hread
        have htrim : (pre.dropWhile isBlank).length ≤ pre.length :=
          (List.dropWhile_suffix isBlank).length_le
        rw [List.length_cons] at henough
        exact isCut_readChain ih (by omega) hread

end Step

theorem readsCut_succ {fuel : Nat} (ih : ReadsCut fuel) : ReadsCut (fuel + 1) := by
  have hless : ∀ {enough least : Nat}, least + 1 ≤ enough → ∃ less, enough = less + 1 :=
    fun {enough least} hle => Nat.exists_eq_add_one.mpr (by omega)
  constructor
  case compound =>
    intro enough parts pre post rest selector henough hread
    obtain ⟨less, rfl⟩ := hless henough
    exact compound_cut ih henough hread
  case pseudo =>
    intro enough pre post rest part henough hread
    obtain ⟨less, rfl⟩ := hless henough
    exact pseudo_cut ih henough hread
  case options =>
    intro enough pre post rest options henough hread
    obtain ⟨less, rfl⟩ := hless henough
    exact options_cut ih henough hread
  case complex =>
    intro enough nested pre post rest selector henough hread
    obtain ⟨less, rfl⟩ := hless henough
    exact complex_cut ih henough hread
  case steps =>
    intro enough left pre post rest selector henough hread
    obtain ⟨less, rfl⟩ := hless henough
    exact steps_cut ih henough hread
  case list =>
    intro enough nested read pre post rest selectors henough hread
    obtain ⟨less, rfl⟩ := hless henough
    exact list_cut ih henough hread

theorem readsCut (fuel : Nat) : ReadsCut fuel := by
  induction fuel with
  | zero => exact readsCut_zero
  | succ fuel ih => exact readsCut_succ ih

/-! ## Parsing -/

/-- What a selector that is cut short should come to: it is read, or it is said to end too soon or
to name what is not known, and no character is blamed. -/
inductive ReportsCut : Except SelectorError Selector → Prop
  | read (selector : Selector) : ReportsCut (.ok selector)
  | empty : ReportsCut (.error .empty)
  | unexpectedEnd (source : String) : ReportsCut (.error (.unexpectedEnd source))
  | unknownKind (name : String) : ReportsCut (.error (.unknownKind name))
  | unknownPseudo (name : String) : ReportsCut (.error (.unknownPseudo name))
  | unsupportedFlag (pattern : String) (flag : Char) :
      ReportsCut (.error (.unsupportedFlag pattern flag))
  | invalidPattern (pattern : String) : ReportsCut (.error (.invalidPattern pattern))

theorem Stop.reportsCut {stop : Stop} (hend : stop.isEnd = true) (source : String) :
    ReportsCut (.error (stop.toError source)) := by
  cases stop with
  | «at» rest =>
      obtain rfl := List.isEmpty_iff.mp hend
      exact .unexpectedEnd source
  | afterLast => cases hend
  | unknownKind name => exact .unknownKind name
  | unknownPseudo name => exact .unknownPseudo name
  | unsupportedFlag pattern flag => exact .unsupportedFlag pattern flag
  | invalidPattern pattern => exact .invalidPattern pattern

theorem Stop.toError_of_blamesLast {stop : Stop} {source : String}
    (hblames : stop.BlamesLast source.toList) (hne : source.toList ≠ []) :
    ∃ last, source.toList.getLast? = some last ∧
      stop.toError source = .unexpected source last (source.length - 1) := by
  cases stop with
  | «at» rest =>
      obtain ⟨hlength, before, hsource⟩ := hblames
      obtain ⟨last, rfl⟩ := List.length_eq_one_iff.mp hlength
      exact ⟨last, by rw [← hsource, List.getLast?_concat], rfl⟩
  | afterLast =>
      have hlast := List.getLast?_eq_some_getLast hne
      exact ⟨_, hlast, by simp only [toError, hlast]⟩
  | _ => exact hblames.elim

/-- A list that is not nested is read to the end. -/
theorem rest_eq_nil_of_readList {fuel : Nat} {read selectors : List Selector}
    (hread : readList fuel false read cs = .ok (selectors, rest)) : rest = [] := by
  induction fuel generalizing read cs with
  | zero =>
      rw [readList] at hread
      cases hread
  | succ fuel ih =>
      obtain ⟨last, after, -, ⟨next, -, hread⟩ | ⟨-, -, hhead⟩⟩ := readList_cases hread
      · exact ih hread
      · exact List.head?_eq_none_iff.mp hhead

/-- What is left of a selector that is cut short is read to its end. -/
theorem breaks_of_parse {text cut : String} {selector : Selector}
    (hparse : parse text = .ok selector) (hcut : cut.toList <+: text.toList) :
    Breaks outside cut.toList (readList (fuelFor cut.toList) false [] cut.toList) := by
  obtain ⟨selectors, rest, hread⟩ := exists_readList_of_parse hparse
  obtain ⟨post, htext⟩ := hcut
  rw [← htext] at hread
  have henough : 8 * cut.toList.length + 4 ≤ fuelFor cut.toList := by
    rw [fuelFor]
    omega
  have hcut := (readsCut _).list henough hread
  generalize hlist : readList (fuelFor cut.toList) false [] cut.toList = found at hcut ⊢
  cases hcut with
  | whole hrest hleft hafter =>
      obtain rfl := rest_eq_nil_of_readList hlist
      exact .atEnd (.ok _) (by rw [hafter]; rfl)
  | broken hbreaks => exact hbreaks

theorem after_of_trim_eq_nil (htrim : trim cs = []) : outside.after cs = outside := by
  have hblanks : ∀ c ∈ cs, isBlank c = true := by
    intro c hc
    by_contra hnot
    have hmem := mem_trim hc (Bool.eq_false_iff.mpr hnot)
    rw [htrim] at hmem
    cases hmem
  have hignores : outside.Ignores isBlank := outside_ignores (by decide)
  rw [← hignores.after_dropWhile, List.dropWhile_eq_nil_iff.mpr hblanks, after_nil]

/-- The error of a cut that leaves a test without its sign: the last character that is left is
blamed, although it begins a selector. -/
theorem parse_eq_of_lacksSign {text cut : String} {selector : Selector}
    (hparse : parse text = .ok selector) (hcut : cut.toList <+: text.toList)
    (hsign : (outside.after cut.toList).lacksSign = true) :
    ∃ last, cut.toList.getLast? = some last ∧
      parse cut = .error (.unexpected cut last (cut.length - 1)) := by
  have hne : cut.toList ≠ [] := by
    rintro hnil
    rw [hnil] at hsign
    cases hsign
  simp only [parse]
  split
  next hblank =>
    rw [after_of_trim_eq_nil (List.isEmpty_iff.mp hblank)] at hsign
    cases hsign
  next =>
    cases breaks_of_parse hparse hcut with
    | atEnd hend hsound =>
        rw [hsound] at hsign
        cases hsign
    | blamed hlist hblames _ =>
        obtain ⟨last, hlast, herror⟩ := Stop.toError_of_blamesLast hblames hne
        exact ⟨last, hlast, by rw [hlist]; simp only [herror]⟩

theorem reportsCut_of_not_lacksSign {text cut : String} {selector : Selector}
    (hparse : parse text = .ok selector) (hcut : cut.toList <+: text.toList)
    (hsign : (outside.after cut.toList).lacksSign = false) : ReportsCut (parse cut) := by
  simp only [parse]
  split
  next => exact .empty
  next =>
    cases breaks_of_parse hparse hcut with
    | atEnd hend hsound =>
        generalize readList (fuelFor cut.toList) false [] cut.toList = found at hend ⊢
        cases hend with
        | ok selectors =>
            split
            next selector _ _ => exact .read selector
            next selectors _ _ _ => exact .read (any selectors)
            next heq => cases heq
        | error hend => exact Stop.reportsCut hend cut
    | blamed hlist hblames hlacks =>
        rw [hsign] at hlacks
        cases hlacks

/-- Every selector that is cut short is reported as such, except for the cuts that leave the name
of an attribute test without a bracket or a whole sign behind it: there the last character is
blamed. -/
theorem reportsCut_parse_iff {text cut : String} {selector : Selector}
    (hparse : parse text = .ok selector) (hcut : cut.toList <+: text.toList) :
    (ReportsCut (parse cut) ↔ (outside.after cut.toList).lacksSign = false) ∧
      ((outside.after cut.toList).lacksSign = true →
        ∃ last, cut.toList.getLast? = some last ∧
          parse cut = .error (.unexpected cut last (cut.length - 1))) := by
  refine ⟨⟨fun hreports => ?_, reportsCut_of_not_lacksSign hparse hcut⟩,
    parse_eq_of_lacksSign hparse hcut⟩
  by_contra hsign
  obtain ⟨last, -, herror⟩ := parse_eq_of_lacksSign hparse hcut (Bool.not_eq_false _ ▸ hsign)
  rw [herror] at hreports
  cases hreports

/-- A sign that is cut in two, in the list of a negation. -/
theorem reportsCut_parse_sign :
    (∃ selector, parse ":not([a!='x'])" = .ok selector) ∧
      ":not([a!".toList <+: ":not([a!='x'])".toList ∧ ¬ ReportsCut (parse ":not([a!") ∧
      ∃ last, ":not([a!".toList.getLast? = some last ∧
        parse ":not([a!" = .error (.unexpected ":not([a!" last (":not([a!".length - 1)) := by
  have hok : (parse ":not([a!='x'])").isOk = true := by decide +kernel
  have hparse := eq_ok_of_isOk hok wildcard
  have hcut : ":not([a!".toList <+: ":not([a!='x'])".toList := by decide
  have hlacks : (outside.after ":not([a!".toList).lacksSign = true := by decide
  obtain ⟨hreports, hblamed⟩ := reportsCut_parse_iff hparse hcut
  refine ⟨⟨_, hparse⟩, hcut, fun hreported => ?_, hblamed hlacks⟩
  rw [hreports.mp hreported] at hlacks
  cases hlacks

/-- A name that is cut off before the bracket behind it. -/
theorem not_forall_reportsCut :
    ¬ ∀ (text cut : String) (selector : Selector), parse text = .ok selector →
      cut.toList <+: text.toList → cut ≠ text → ReportsCut (parse cut) := by
  intro hall
  have hparse : parse "[name]" = .ok (.attr ⟨["name"], none⟩) := rfl
  have hblamed : parse "[name" = .error (.unexpected "[name" 'e' 4) := rfl
  have hreports := hall "[name]" "[name" _ hparse (by decide) (by decide)
  rw [hblamed] at hreports
  cases hreports

end Selector

end ReactiveLint
