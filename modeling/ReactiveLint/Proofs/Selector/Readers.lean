import ReactiveLint.Proofs.Selector.Grammar
import ReactiveLint.Proofs.Text.Characters

/-!
# The readers of selectors

What one step of a reader can do, and from it the forms of what the readers return.
-/

namespace ReactiveLint

namespace Selector

variable {cs rest : List Char}

/-! ## One step -/

section Unfolding

-- The tables of letters would be computed in comparing the two sides.
attribute [local irreducible] isKindChar isKindStart

theorem readCompound_zero (parts : List Selector) (cs : List Char) :
    readCompound 0 parts cs = .error (.at cs) := rfl

theorem readCompound_succ (fuel : Nat) (parts : List Selector) (cs : List Char) :
    readCompound (fuel + 1) parts cs =
      (let stop : Reading Selector :=
        match ofParts parts.reverse with
        | some selector => .ok (selector, cs)
        | none => .error (.at cs)
      match cs with
      | [] => stop
      | '*' :: cs => readCompound fuel (wildcard :: parts) cs
      | '[' :: cs =>
          match readAttribute cs with
          | .ok (test, cs) => readCompound fuel (attr test :: parts) cs
          | .error stop => .error stop
      | '.' :: cs =>
          let path := cs.takeWhile isFieldChar
          if path.isEmpty then .error (.at cs)
          else
            readCompound fuel (field (splitPath path) :: parts) (cs.dropWhile isFieldChar)
      | ':' :: cs =>
          match readPseudo fuel cs with
          | .ok (part, cs) => readCompound fuel (part :: parts) cs
          | .error stop => .error stop
      | c :: cs =>
          if c = '!' ∧ parts.isEmpty then readCompound fuel parts cs
          else if isKindStart c then
            let name := String.ofList ((c :: cs).takeWhile isKindChar)
            match Kind.ofName? name with
            | some found =>
                readCompound fuel (kind found :: parts) ((c :: cs).dropWhile isKindChar)
            | none => .error (.unknownKind name)
          else stop) := rfl

/-- What the reader of a compound does at a character that is not a mark. -/
theorem readCompound_other {c : Char} {parts : List Selector} (hmark : c ∉ ['*', '[', '.', ':'])
    (hdrop : c = '!' → parts ≠ []) (fuel : Nat) :
    readCompound (fuel + 1) parts (c :: cs) =
      if isKindStart c then
        match Kind.ofName? (String.ofList ((c :: cs).takeWhile isKindChar)) with
        | some found => readCompound fuel (kind found :: parts) ((c :: cs).dropWhile isKindChar)
        | none => .error (.unknownKind (String.ofList ((c :: cs).takeWhile isKindChar)))
      else
        match ofParts parts.reverse with
        | some selector => .ok (selector, c :: cs)
        | none => .error (.at (c :: cs)) := by
  simp only [List.mem_cons, List.not_mem_nil, or_false, not_or] at hmark
  rw [readCompound_succ]
  simp only
  split
  next heq => cases heq
  next heq => exact absurd (List.cons.inj heq).1 hmark.1
  next heq => exact absurd (List.cons.inj heq).1 hmark.2.1
  next heq => exact absurd (List.cons.inj heq).1 hmark.2.2.1
  next heq => exact absurd (List.cons.inj heq).1 hmark.2.2.2
  next heq =>
    cases heq
    rw [if_neg fun h => hdrop h.1 (List.isEmpty_iff.mp h.2)]

theorem readCompound_unmarked {c : Char} (hmark : c ∉ ['*', '[', '.', ':', '!'])
    (fuel : Nat) (parts : List Selector) :
    readCompound (fuel + 1) parts (c :: cs) =
      if isKindStart c then
        match Kind.ofName? (String.ofList ((c :: cs).takeWhile isKindChar)) with
        | some found => readCompound fuel (kind found :: parts) ((c :: cs).dropWhile isKindChar)
        | none => .error (.unknownKind (String.ofList ((c :: cs).takeWhile isKindChar)))
      else
        match ofParts parts.reverse with
        | some selector => .ok (selector, c :: cs)
        | none => .error (.at (c :: cs)) := by
  simp only [List.mem_cons, List.not_mem_nil, or_false, not_or] at hmark
  exact readCompound_other (by simp [hmark]) (fun hc => absurd hc hmark.2.2.2.2) fuel

end Unfolding

theorem unmarked_of_isKindStart {c : Char} (hstart : isKindStart c = true) :
    c ∉ ['*', '[', '.', ':', '!'] := by
  have hmarks : ∀ mark ∈ ['*', '[', '.', ':', '!'], isKindStart mark = false :=
    Text.forall_mem_of_all (by decide)
  exact fun hmem => absurd (hmarks c hmem) (by simp [hstart])

/-- The readings of one part of a compound. -/
inductive ReadsPart (fuel : Nat) : List Char → Selector → List Char → Prop
  | wildcard {rest : List Char} : ReadsPart fuel ('*' :: rest) .wildcard rest
  | attr {cs rest : List Char} {test : AttributeTest}
      (hread : readAttribute cs = .ok (test, rest)) : ReadsPart fuel ('[' :: cs) (.attr test) rest
  | field {cs : List Char} (hpath : (cs.takeWhile isFieldChar).isEmpty = false) :
      ReadsPart fuel ('.' :: cs) (.field (splitPath (cs.takeWhile isFieldChar)))
        (cs.dropWhile isFieldChar)
  | pseudo {cs rest : List Char} {part : Selector} (hread : readPseudo fuel cs = .ok (part, rest)) :
      ReadsPart fuel (':' :: cs) part rest
  | kind {c : Char} {cs : List Char} {found : Kind} (hstart : isKindStart c = true)
      (hfound : Kind.ofName? (String.ofList ((c :: cs).takeWhile isKindChar)) = some found) :
      ReadsPart fuel (c :: cs) (.kind found) ((c :: cs).dropWhile isKindChar)

/-- The reader of a compound takes nothing of the rest. -/
def TakesNone (parts : List Selector) (rest : List Char) : Prop :=
  ∀ c ∈ rest.head?, c ∉ ['*', '[', '.', ':'] ∧ (c = '!' → parts ≠ []) ∧ isKindStart c = false

theorem readCompound_of_takesNone {fuel : Nat} {parts : List Selector} {selector : Selector}
    (htakes : TakesNone parts rest) (hparts : ofParts parts.reverse = some selector) :
    readCompound (fuel + 1) parts rest = .ok (selector, rest) := by
  cases rest with
  | nil =>
      rw [readCompound_succ]
      simp only [hparts]
  | cons c rest =>
      obtain ⟨hmark, hdrop, hstart⟩ := htakes c rfl
      rw [readCompound_other hmark hdrop, if_neg (by simp [hstart])]
      simp only [hparts]

theorem readCompound_of_readsPart {fuel : Nat} {parts : List Selector} {part : Selector}
    (hpart : ReadsPart fuel cs part rest) :
    readCompound (fuel + 1) parts cs = readCompound fuel (part :: parts) rest := by
  cases hpart with
  | wildcard => exact readCompound_succ fuel parts ('*' :: rest)
  | attr hread =>
      rw [readCompound_succ]
      simp only [hread]
  | field hpath =>
      rw [readCompound_succ]
      simp only [hpath, Bool.false_eq_true, if_false]
  | pseudo hread =>
      rw [readCompound_succ]
      simp only [hread]
  | @kind c cs found hstart hfound =>
      rw [readCompound_unmarked (unmarked_of_isKindStart hstart), if_pos hstart]
      simp only [hfound]

theorem readCompound_drop (fuel : Nat) (cs : List Char) :
    readCompound (fuel + 1) [] ('!' :: cs) = readCompound fuel [] cs :=
  readCompound_succ fuel [] ('!' :: cs)

theorem readCompound_colon (fuel : Nat) (parts : List Selector) (cs : List Char) :
    readCompound (fuel + 1) parts (':' :: cs) =
      (readPseudo fuel cs).bind fun (part, cs) => readCompound fuel (part :: parts) cs := by
  rw [readCompound_succ]
  simp only
  cases readPseudo fuel cs <;> rfl

theorem readCompound_bracket (fuel : Nat) (parts : List Selector) (cs : List Char) :
    readCompound (fuel + 1) parts ('[' :: cs) =
      (readAttribute cs).bind fun (test, cs) => readCompound fuel (attr test :: parts) cs := by
  rw [readCompound_succ]
  simp only
  cases readAttribute cs <;> rfl

/-- The reader of a compound stops, reads one more part, or drops a mark. -/
theorem readCompound_cases {fuel : Nat} {parts : List Selector} {selector : Selector}
    (hread : readCompound (fuel + 1) parts cs = .ok (selector, rest)) :
    (rest = cs ∧ TakesNone parts cs ∧ ofParts parts.reverse = some selector) ∨
      (∃ part after, ReadsPart fuel cs part after ∧
        readCompound fuel (part :: parts) after = .ok (selector, rest)) ∨
      (parts = [] ∧ ∃ after, cs = '!' :: after ∧
        readCompound fuel [] after = .ok (selector, rest)) := by
  have hstop : ∀ {result : Reading Selector}, result = .ok (selector, rest) →
      (result = match ofParts parts.reverse with
        | some selector => .ok (selector, cs)
        | none => .error (.at cs)) → rest = cs ∧ ofParts parts.reverse = some selector := by
    rintro result hresult rfl
    split at hresult
    next hparts =>
      cases hresult
      exact ⟨rfl, hparts⟩
    next => cases hresult
  rw [readCompound_succ] at hread
  simp only at hread
  split at hread
  · obtain ⟨hrest, hparts⟩ := hstop hread rfl
    exact .inl ⟨hrest, by simp [TakesNone], hparts⟩
  · exact .inr (.inl ⟨_, _, .wildcard, hread⟩)
  · split at hread
    next htest => exact .inr (.inl ⟨_, _, .attr htest, hread⟩)
    next => cases hread
  · split at hread
    next => cases hread
    next hpath => exact .inr (.inl ⟨_, _, .field (Bool.eq_false_iff.mpr hpath), hread⟩)
  · split at hread
    next hpseudo => exact .inr (.inl ⟨_, _, .pseudo hpseudo, hread⟩)
    next => cases hread
  · next c cs hwildcard hattr hfield hpseudo =>
    split_ifs at hread with hmark hstart
    · obtain ⟨rfl, hmark⟩ := hmark
      obtain rfl : parts = [] := by simpa using hmark
      exact .inr (.inr ⟨rfl, _, rfl, hread⟩)
    · split at hread
      next hfound => exact .inr (.inl ⟨_, _, .kind hstart hfound, hread⟩)
      next => cases hread
    · obtain ⟨hrest, hparts⟩ := hstop hread rfl
      refine .inl ⟨hrest, fun first hfirst => ?_, hparts⟩
      obtain rfl := Option.some.inj hfirst
      refine ⟨?_, by simpa using hmark, by simpa using hstart⟩
      simp only [List.mem_cons, List.not_mem_nil, or_false, not_or]
      exact ⟨hwildcard, hattr, hfield, hpseudo⟩

/-- What stands between two compounds: a sign with blanks around it, or blanks alone. -/
inductive Joins : List Char → Combinator → List Char → Prop
  | sign {cs after : List Char} {c : Char} {combinator : Combinator}
      (htrim : Text.trimStart cs = c :: after) (hsign : combinatorSign? c = some combinator) :
      Joins cs combinator (Text.trimStart after)
  | blank {cs after : List Char} {c : Char} (htrim : Text.trimStart cs = c :: after)
      (hsign : combinatorSign? c = none) (hmark : ¬ (c = ',' ∨ c = ')'))
      (hblank : (c :: after).length < cs.length) : Joins cs .descendant (c :: after)

theorem readSteps_of_joins {fuel : Nat} {combinator : Combinator} {before : List Char}
    (hjoins : Joins cs combinator before) (left : Selector) :
    readSteps (fuel + 1) left cs = (readCompound fuel [] before).bind fun (right, cs) =>
      readSteps fuel (combine combinator left right) cs := by
  rw [readSteps]
  cases hjoins with
  | sign htrim hsign =>
      simp only [htrim, hsign]
      cases readCompound fuel [] _ <;> rfl
  | blank htrim hsign hmark hblank =>
      simp only [htrim, hsign, if_neg hmark, if_pos hblank]
      cases readCompound fuel [] _ <;> rfl

theorem readSteps_of_not_joins {fuel : Nat} {left : Selector}
    (hmark : ∀ c ∈ (Text.trimStart cs).head?, c = ',' ∨ c = ')') :
    readSteps (fuel + 1) left cs = .ok (left, Text.trimStart cs) := by
  rw [readSteps]
  cases htrim : Text.trimStart cs with
  | nil => rfl
  | cons c rest =>
      have hsigns : ∀ mark ∈ [',', ')'], combinatorSign? mark = none :=
        Text.forall_mem_of_all (by decide)
      have hc : c = ',' ∨ c = ')' := hmark c (by rw [htrim]; rfl)
      simp only [hsigns c (by simpa using hc), if_pos hc]

/-- The reader of the steps stops behind the blanks, or reads one more compound. -/
theorem readSteps_cases {fuel : Nat} {left selector : Selector}
    (hread : readSteps (fuel + 1) left cs = .ok (selector, rest)) :
    (selector = left ∧ rest = Text.trimStart cs ∧ ∀ c ∈ rest.head?, c = ',' ∨ c = ')') ∨
      ∃ combinator before right after, Joins cs combinator before ∧
        readCompound fuel [] before = .ok (right, after) ∧
        readSteps fuel (combine combinator left right) after = .ok (selector, rest) := by
  have hstep : ∀ {combinator : Combinator} {before : List Char}, Joins cs combinator before →
      (match readCompound fuel [] before with
        | .ok (right, cs) => readSteps fuel (combine combinator left right) cs
        | .error stop => .error stop) = .ok (selector, rest) →
      ∃ combinator before right after, Joins cs combinator before ∧
        readCompound fuel [] before = .ok (right, after) ∧
        readSteps fuel (combine combinator left right) after = .ok (selector, rest) := by
    intro combinator before hjoins hread
    split at hread
    next hright => exact ⟨_, _, _, _, hjoins, hright, hread⟩
    next => cases hread
  rw [readSteps] at hread
  simp only at hread
  split at hread
  next htrim =>
    cases hread
    exact .inl ⟨rfl, htrim.symm, by simp⟩
  next c after htrim =>
    split at hread
    next hsign => exact .inr (hstep (.sign htrim hsign) hread)
    next hsign =>
      split_ifs at hread with hmark hblank
      · cases hread
        refine .inl ⟨rfl, rfl, fun first hfirst => ?_⟩
        rw [htrim] at hfirst
        exact Option.some.inj hfirst ▸ hmark
      · rw [htrim] at hread hblank
        exact .inr (hstep (.blank htrim hsign hmark hblank) hread)

/-- A complex selector opens with a combinator when it is nested and has one. -/
theorem readComplex_sign {c : Char} {combinator : Combinator}
    (hsign : combinatorSign? c = some combinator) (fuel : Nat) (cs : List Char) :
    readComplex (fuel + 1) true (c :: cs) =
      (readCompound fuel [] (Text.trimStart cs)).bind fun (right, cs) =>
        readSteps fuel (combine combinator scope right) cs := by
  rw [readComplex.eq_def]
  simp only [if_true, hsign, Option.map_some]
  cases readCompound fuel [] (Text.trimStart cs) <;> rfl

theorem readComplex_of_not_sign {c : Char} {nested : Bool}
    (hsign : nested = true → combinatorSign? c = none) (fuel : Nat) (cs : List Char) :
    readComplex (fuel + 1) nested (c :: cs) =
      (readCompound fuel [] (c :: cs)).bind fun (left, cs) => readSteps fuel left cs := by
  rw [readComplex.eq_def]
  cases nested with
  | false =>
      simp only [Bool.false_eq_true, if_false]
      cases readCompound fuel [] (c :: cs) <;> rfl
  | true =>
      simp only [hsign rfl, Option.map_none, ite_self]
      cases readCompound fuel [] (c :: cs) <;> rfl

/-- The reader of a list reads a selector, and goes on behind a comma or is at the end. -/
theorem readList_cases {fuel : Nat} {nested : Bool} {read selectors : List Selector}
    (hread : readList (fuel + 1) nested read cs = .ok (selectors, rest)) :
    ∃ last after, readComplex fuel nested (Text.trimStart cs) = .ok (last, after) ∧
      ((∃ next, Text.trimStart after = ',' :: next ∧
          readList fuel nested (last :: read) next = .ok (selectors, rest)) ∨
        (selectors = (last :: read).reverse ∧ rest = Text.trimStart after ∧
          rest.head? = if nested then some ')' else none)) := by
  rw [readList] at hread
  split at hread
  next => cases hread
  next last after hlast =>
    refine ⟨last, after, hlast, ?_⟩
    split at hread
    next next htrim => exact .inl ⟨next, htrim, hread⟩
    next htrim =>
      split_ifs at hread with hnested
      cases hread
      exact .inr ⟨rfl, htrim.symm, by simp [hnested]⟩
    next c next _ htrim =>
      split_ifs at hread with hclose
      cases hread
      obtain ⟨hnested, rfl⟩ := hclose
      exact .inr ⟨rfl, htrim.symm, by simp [hnested]⟩

/-! ## Empty texts -/

theorem rest_eq_nil_of_readCompound_nil {fuel : Nat} {parts : List Selector} {selector : Selector}
    (hread : readCompound fuel parts [] = .ok (selector, rest)) :
    rest = [] ∧ parts ≠ [] := by
  cases fuel with
  | zero =>
      rw [readCompound_zero] at hread
      cases hread
  | succ fuel =>
      obtain ⟨rfl, -, hparts⟩ | ⟨part, after, hpart, -⟩ | ⟨-, after, hcs, -⟩ :=
        readCompound_cases hread
      · refine ⟨rfl, ?_⟩
        rintro rfl
        cases hparts
      · cases hpart
      · cases hcs

theorem ne_nil_of_readCompound {fuel : Nat} {selector : Selector}
    (hread : readCompound fuel [] cs = .ok (selector, rest)) : cs ≠ [] := by
  rintro rfl
  exact (rest_eq_nil_of_readCompound_nil hread).2 rfl

theorem rest_eq_nil_of_readSteps_nil {fuel : Nat} {left selector : Selector}
    (hread : readSteps fuel left [] = .ok (selector, rest)) : rest = [] := by
  cases fuel with
  | zero =>
      rw [readSteps] at hread
      cases hread
  | succ fuel =>
      have hstop : readSteps (fuel + 1) left [] = .ok (left, []) :=
        readSteps_of_not_joins (by simp [Text.trimStart])
      rw [hstop] at hread
      cases hread
      rfl

theorem ne_nil_of_readComplex {fuel : Nat} {nested : Bool} {selector : Selector}
    (hread : readComplex fuel nested cs = .ok (selector, rest)) : cs ≠ [] := by
  rintro rfl
  cases fuel with
  | zero =>
      rw [readComplex] at hread
      cases hread
  | succ fuel =>
      simp only [readComplex.eq_def] at hread
      split at hread
      next hleft => exact ne_nil_of_readCompound hleft rfl
      next => cases hread

/-! ## The forms that are read -/

/-- What the readers of selectors return with some fuel. -/
structure ReadsForms (fuel : Nat) : Prop where
  compound : ∀ {parts : List Selector} {cs : List Char} {selector : Selector} {rest : List Char},
    (∀ part ∈ parts, IsForm .part part) →
      (parts.IsChain fun right left => left.takes right.opener = false) →
      (∀ last ∈ parts.head?, last.Stops cs) →
      readCompound fuel parts cs = .ok (selector, rest) → IsForm .compound selector
  pseudo : ∀ {cs : List Char} {part : Selector} {rest : List Char},
    readPseudo fuel cs = .ok (part, rest) →
      IsForm .part part ∧ part.opener = ':' ∧ part.Stops rest
  options : ∀ {cs : List Char} {options : List Selector} {rest : List Char},
    readOptions fuel cs = .ok (options, rest) →
      options ≠ [] ∧ ∀ option ∈ options, IsForm .complex option
  complex : ∀ {nested : Bool} {cs : List Char} {selector : Selector} {rest : List Char},
    readComplex fuel nested cs = .ok (selector, rest) → IsForm .complex selector
  steps : ∀ {left : Selector} {cs : List Char} {selector : Selector} {rest : List Char},
    IsForm .complex left → readSteps fuel left cs = .ok (selector, rest) →
      IsForm .complex selector
  list : ∀ {nested : Bool} {read : List Selector} {cs : List Char} {selectors : List Selector}
    {rest : List Char}, (∀ selector ∈ read, IsForm .complex selector) →
      readList fuel nested read cs = .ok (selectors, rest) →
      selectors ≠ [] ∧ ∀ selector ∈ selectors, IsForm .complex selector

theorem readsForms_zero : ReadsForms 0 where
  compound _ _ _ hread := by rw [readCompound_zero] at hread; cases hread
  pseudo hread := by rw [readPseudo] at hread; cases hread
  options hread := by rw [readOptions] at hread; cases hread
  complex hread := by rw [readComplex] at hread; cases hread
  steps _ hread := by rw [readSteps] at hread; cases hread
  list _ hread := by rw [readList] at hread; cases hread

/-- The parts of a compound, last first, as far as it has been read. -/
theorem isForm_of_ofParts {parts : List Selector} {selector : Selector}
    (hparts : ∀ part ∈ parts, IsForm .part part)
    (happart : parts.IsChain fun right left => left.takes right.opener = false)
    (hread : ofParts parts.reverse = some selector) : IsForm .compound selector := by
  have hparts' : ∀ part ∈ parts.reverse, IsForm .part part := by simpa using hparts
  have happart' : parts.reverse.IsChain fun left right => left.takes right.opener = false :=
    List.isChain_reverse.mpr happart
  match hreverse : parts.reverse with
  | [] => simp [hreverse, ofParts] at hread
  | [part] =>
      rw [hreverse] at hparts' hread
      obtain rfl := Option.some.inj hread
      exact .single (hparts' part (by simp))
  | first :: second :: rest =>
      rw [hreverse] at hparts' hread happart'
      obtain rfl := Option.some.inj hread
      exact .compound hparts' happart'

theorem stops_dropWhile {part : Selector} {accepts : Char → Bool}
    (htakes : part.takes = accepts) (cs : List Char) : part.Stops (cs.dropWhile accepts) := by
  intro c hc
  have hnot := List.head?_dropWhile_not accepts cs
  rw [Option.mem_def.mp hc] at hnot
  rw [htakes]
  exact hnot

theorem isKindChar_of_isKindStart {c : Char} (hstart : isKindStart c = true) :
    isKindChar c = true := by
  rw [isKindStart, Bool.or_eq_true] at hstart
  rw [isKindChar, Bool.or_eq_true]
  exact hstart.imp_left (fun halphabetic => by rw [Text.isAlphanumeric, halphabetic, Bool.true_or])

theorem isKindWord_of_ofName? {c : Char} {found : Kind} (hstart : isKindStart c = true)
    (hfound : Kind.ofName? (String.ofList ((c :: cs).takeWhile isKindChar)) = some found) :
    IsKindWord found ∧ (kind found).opener = c := by
  have hname : found.name = String.ofList ((c :: cs).takeWhile isKindChar) := by
    have hbeq := List.find?_some hfound
    exact beq_iff_eq.mp hbeq
  have htake : (c :: cs).takeWhile isKindChar = c :: cs.takeWhile isKindChar :=
    List.takeWhile_cons_of_pos (isKindChar_of_isKindStart hstart)
  have htext : found.name.toList = c :: cs.takeWhile isKindChar := by
    rw [hname, htake, String.toList_ofList]
  refine ⟨⟨hname ▸ hfound, c, cs.takeWhile isKindChar, htext, hstart, ?_⟩, ?_⟩
  · exact fun _ hnext => List.mem_takeWhile_imp hnext
  · change found.name.toList.headD '_' = c
    rw [htext, List.headD_cons]

section Step

variable {fuel : Nat} (ih : ReadsForms fuel)

include ih

/-- A part that has been read is a part, and begins and ends where it should. -/
theorem part_of_readsPart {part : Selector} (hpart : ReadsPart fuel cs part rest) :
    IsForm .part part ∧ cs.head? = some part.opener ∧ part.Stops rest := by
  cases hpart with
  | wildcard => exact ⟨.wildcard, rfl, fun _ _ => rfl⟩
  | attr hread => exact ⟨.attr (isTest_of_readAttribute hread), rfl, fun _ _ => rfl⟩
  | field hpath => exact ⟨.field (isPath_takeWhile hpath), rfl, stops_dropWhile rfl _⟩
  | pseudo hread =>
      obtain ⟨hform, hopener, hstops⟩ := ih.pseudo hread
      exact ⟨hform, by rw [hopener, List.head?_cons], hstops⟩
  | kind hstart hfound =>
      obtain ⟨hword, hopener⟩ := isKindWord_of_ofName? hstart hfound
      exact ⟨.kind hword, by rw [hopener, List.head?_cons], stops_dropWhile rfl _⟩

theorem compound_succ {parts : List Selector} {selector : Selector}
    (hparts : ∀ part ∈ parts, IsForm .part part)
    (happart : parts.IsChain fun right left => left.takes right.opener = false)
    (hstops : ∀ last ∈ parts.head?, last.Stops cs)
    (hread : readCompound (fuel + 1) parts cs = .ok (selector, rest)) :
    IsForm .compound selector := by
  obtain ⟨-, -, hend⟩ | ⟨part, after, hpart, hread⟩ | ⟨rfl, after, -, hread⟩ :=
    readCompound_cases hread
  · exact isForm_of_ofParts hparts happart hend
  · obtain ⟨hform, hopener, hafter⟩ := part_of_readsPart ih hpart
    apply ih.compound (List.forall_mem_cons.mpr ⟨hform, hparts⟩) _ (by simpa using hafter) hread
    -- the parts before stopped at the character that this part opens with
    cases parts with
    | nil => exact .singleton _
    | cons last parts =>
        exact List.isChain_cons_cons.mpr ⟨hstops last rfl part.opener hopener, happart⟩
  · exact ih.compound (by simp) .nil (by simp) hread

theorem pseudo_succ {part : Selector} (hread : readPseudo (fuel + 1) cs = .ok (part, rest)) :
    IsForm .part part ∧ part.opener = ':' ∧ part.Stops rest := by
  have hoptions : ∀ {form : List Selector → Selector} {after : List Char},
      (∀ {options}, options ≠ [] → (∀ option ∈ options, IsForm .complex option) →
        IsForm .part (form options)) →
      (∀ options, (form options).opener = ':' ∧ (form options).takes = fun _ => false) →
      (readOptions fuel after).map (fun found => (form found.1, found.2)) = .ok (part, rest) →
      IsForm .part part ∧ part.opener = ':' ∧ part.Stops rest := by
    intro form after hform htext hread
    obtain ⟨⟨options, after⟩, hoptions, heq⟩ := map_eq_ok_iff.mp hread
    cases heq
    obtain ⟨hne, hall⟩ := ih.options hoptions
    exact ⟨hform hne hall, (htext options).1, fun _ _ => by rw [(htext options).2]⟩
  rw [readPseudo] at hread
  split at hread
  · exact hoptions .not (fun _ => ⟨rfl, rfl⟩) hread
  · exact hoptions .any (fun _ => ⟨rfl, rfl⟩) hread
  · exact hoptions .any (fun _ => ⟨rfl, rfl⟩) hread
  · exact hoptions .has (fun _ => ⟨rfl, rfl⟩) hread
  · cases hread
    exact ⟨.scope, rfl, stops_dropWhile rfl _⟩
  · cases hread
    exact ⟨.nthChild (by norm_num), rfl, fun _ _ => rfl⟩
  · cases hread
    exact ⟨.nthLastChild (by norm_num), rfl, fun _ _ => rfl⟩
  · obtain ⟨⟨position, after⟩, hposition, heq⟩ := map_eq_ok_iff.mp hread
    cases heq
    exact ⟨.nthChild (lt_of_readPosition hposition), rfl, fun _ _ => rfl⟩
  · obtain ⟨⟨position, after⟩, hposition, heq⟩ := map_eq_ok_iff.mp hread
    cases heq
    exact ⟨.nthLastChild (lt_of_readPosition hposition), rfl, fun _ _ => rfl⟩
  · cases hread

theorem options_succ {options : List Selector}
    (hread : readOptions (fuel + 1) cs = .ok (options, rest)) :
    options ≠ [] ∧ ∀ option ∈ options, IsForm .complex option := by
  rw [readOptions] at hread
  split at hread
  next => cases hread
  next =>
    split at hread
    next => cases hread
    next hlist =>
      obtain ⟨after, -, heq⟩ := map_eq_ok_iff.mp hread
      cases heq
      exact ih.list (by simp) hlist

theorem complex_succ {nested : Bool} {selector : Selector}
    (hread : readComplex (fuel + 1) nested cs = .ok (selector, rest)) :
    IsForm .complex selector := by
  simp only [readComplex.eq_def] at hread
  split at hread
  · split at hread
    next hright =>
      exact ih.steps
        (.combine (.base (.single .scope)) (ih.compound (by simp) .nil (by simp) hright)) hread
    next => cases hread
  · split at hread
    next hleft => exact ih.steps (.base (ih.compound (by simp) .nil (by simp) hleft)) hread
    next => cases hread

theorem steps_succ {left selector : Selector} (hleft : IsForm .complex left)
    (hread : readSteps (fuel + 1) left cs = .ok (selector, rest)) : IsForm .complex selector := by
  obtain ⟨rfl, -⟩ | ⟨combinator, before, right, after, -, hright, hread⟩ := readSteps_cases hread
  · exact hleft
  · exact ih.steps (.combine hleft (ih.compound (by simp) .nil (by simp) hright)) hread

theorem list_succ {nested : Bool} {read selectors : List Selector}
    (hselectors : ∀ selector ∈ read, IsForm .complex selector)
    (hread : readList (fuel + 1) nested read cs = .ok (selectors, rest)) :
    selectors ≠ [] ∧ ∀ selector ∈ selectors, IsForm .complex selector := by
  obtain ⟨last, after, hlast, hend⟩ := readList_cases hread
  have hmore : ∀ selector ∈ last :: read, IsForm .complex selector :=
    List.forall_mem_cons.mpr ⟨ih.complex hlast, hselectors⟩
  obtain ⟨after, -, hread⟩ | ⟨rfl, -⟩ := hend
  · exact ih.list hmore hread
  · exact ⟨by simp, fun selector hselector => hmore selector (List.mem_reverse.mp hselector)⟩

theorem readsForms_succ : ReadsForms (fuel + 1) where
  compound := compound_succ ih
  pseudo := pseudo_succ ih
  options := options_succ ih
  complex := complex_succ ih
  steps := steps_succ ih
  list := list_succ ih

end Step

theorem readsForms (fuel : Nat) : ReadsForms fuel := by
  induction fuel with
  | zero => exact readsForms_zero
  | succ fuel ih => exact readsForms_succ ih

theorem exists_readList_of_parse {text : String} {selector : Selector}
    (hparse : parse text = .ok selector) : ∃ selectors rest,
      readList (fuelFor text.toList) false [] text.toList = .ok (selectors, rest) := by
  simp only [parse] at hparse
  split at hparse
  next => cases hparse
  next =>
    split at hparse
    next hlist => exact ⟨_, _, hlist⟩
    next hlist => exact ⟨_, _, hlist⟩
    next => cases hparse

/-- Every selector that is read is complex. -/
theorem isForm_of_parse {text : String} {selector : Selector}
    (hparse : parse text = .ok selector) : IsForm .complex selector := by
  simp only [parse] at hparse
  split at hparse
  next => cases hparse
  next =>
    split at hparse
    next hlist =>
      cases hparse
      exact ((readsForms _).list (by simp) hlist).2 _ (by simp)
    next hlist =>
      cases hparse
      obtain ⟨hne, hselectors⟩ := (readsForms _).list (by simp) hlist
      exact .base (.single (.any hne hselectors))
    next => cases hparse

/-- A list of one selector is read as that selector. -/
theorem parse_of_readComplex {text : String} {selector : Selector}
    (hread : readComplex (8 * text.toList.length + 7) false (Text.trimStart text.toList) =
      .ok (selector, [])) : parse text = .ok selector := by
  have hlist : readList (fuelFor text.toList) false [] text.toList = .ok ([selector], []) := by
    rw [fuelFor, readList]
    simp only [hread]
    rfl
  have htrim : (Text.trim text.toList).isEmpty = false := by
    have hne := ne_nil_of_readComplex hread
    have hblank := List.head_dropWhile_not Text.isBlank hne
    have hmem := (List.dropWhile_suffix Text.isBlank).subset (List.head_mem hne)
    exact List.isEmpty_eq_false_iff.mpr (List.ne_nil_of_mem (Text.mem_trim hmem hblank))
  simp only [parse, htrim, hlist, Bool.false_eq_true, if_false]

end Selector

end ReactiveLint
