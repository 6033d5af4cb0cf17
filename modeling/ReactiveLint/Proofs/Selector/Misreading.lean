import ReactiveLint.Proofs.Selector.RoundTrip

/-!
# Misread selectors

Where a literal holds a backslash, the text of a selector is not read as that selector.
What a reader has once read stays part of what it returns, so that the first misread
literal shows in the result, whatever is made of the text behind it.
-/

namespace ReactiveLint

namespace Selector

variable {cs rest after : List Char} {fuel : Nat}

/-! ## What has been read stays -/

/-- A selector is another one, or on its left. -/
inductive Begins (start : Selector) : Selector → Prop
  | refl : Begins start start
  | combine {combinator : Combinator} {left right : Selector} (hleft : Begins start left) :
      Begins start (.combine combinator left right)

theorem Begins.links_le {start selector : Selector} (hbegins : Begins start selector) :
    start.links ≤ selector.links := by
  induction hbegins with
  | refl => exact le_rfl
  | combine _ ih => exact le_trans ih (Nat.le_succ _)

theorem Begins.of_combine {combinator : Combinator} {left right selector : Selector}
    (hbegins : Begins (.combine combinator left right) selector) : Begins left selector := by
  induction hbegins with
  | refl => exact .combine .refl
  | combine _ ih => exact .combine ih

/-- The number of its combinators tells which selector it is on the left of another. -/
theorem Begins.unique {first second selector : Selector} (hfirst : Begins first selector)
    (hsecond : Begins second selector) (hlinks : first.links = second.links) : first = second := by
  induction hfirst with
  | refl =>
      cases hsecond with
      | refl => rfl
      | @combine _ left _ hleft =>
          have hle := hleft.links_le
          rw [links] at hlinks
          omega
  | combine hleft ih =>
      cases hsecond with
      | refl =>
          have hle := hleft.links_le
          rw [links] at hlinks
          omega
      | combine hother => exact ih hother

theorem begins_of_readSteps {left selector : Selector}
    (hread : readSteps fuel left cs = .ok (selector, rest)) : Begins left selector := by
  induction fuel generalizing left cs with
  | zero =>
      rw [readSteps] at hread
      cases hread
  | succ fuel ih =>
      obtain ⟨rfl, -⟩ | ⟨combinator, before, right, after, -, -, hread⟩ := readSteps_cases hread
      · exact .refl
      · exact (ih hread).of_combine

theorem ofParts_of_readCompound {parts : List Selector} {selector : Selector}
    (hread : readCompound fuel parts cs = .ok (selector, rest)) :
    ∃ more, (∀ part ∈ more, IsForm .part part) ∧
      ofParts (parts.reverse ++ more) = some selector := by
  induction fuel generalizing parts cs with
  | zero =>
      rw [readCompound_zero] at hread
      cases hread
  | succ fuel ih =>
      obtain ⟨-, -, hend⟩ | ⟨part, after, hpart, hread⟩ | ⟨rfl, after, -, hread⟩ :=
        readCompound_cases hread
      · exact ⟨[], by simp, by rwa [List.append_nil]⟩
      · obtain ⟨more, hforms, hparts⟩ := ih hread
        refine ⟨part :: more, ?_, by rwa [List.reverse_cons, List.append_assoc] at hparts⟩
        exact List.forall_mem_cons.mpr ⟨(part_of_readsPart (readsForms fuel) hpart).1, hforms⟩
      · exact ih hread

theorem prefix_of_readList {nested : Bool} {read selectors : List Selector}
    (hread : readList fuel nested read cs = .ok (selectors, rest)) :
    read.reverse <+: selectors := by
  induction fuel generalizing read cs with
  | zero =>
      rw [readList] at hread
      cases hread
  | succ fuel ih =>
      obtain ⟨last, after, -, ⟨after, -, hread⟩ | ⟨rfl, -⟩⟩ := readList_cases hread
      · exact (by simp : read.reverse <+: (last :: read).reverse).trans (ih hread)
      · simp

/-- A list begins with the selectors read before, and goes on with the one that is read first. -/
theorem exists_of_readList {nested : Bool} {read selectors : List Selector}
    (hread : readList (fuel + 1) nested read cs = .ok (selectors, rest)) :
    ∃ last after, readComplex fuel nested (Text.trimStart cs) = .ok (last, after) ∧
      (last :: read).reverse <+: selectors := by
  obtain ⟨last, after, hlast, ⟨after, -, hread⟩ | ⟨rfl, -⟩⟩ := readList_cases hread
  · exact ⟨last, _, hlast, prefix_of_readList hread⟩
  · exact ⟨last, _, hlast, List.prefix_rfl⟩

/-! ## Leading lists -/

mutual

/-- The number of `:matches` that a selector begins with, one inside the other.  It keeps a
list of selectors from being taken for the `:matches` of that list. -/
def depth : Selector → Nat
  | any options => firstDepth options + 1
  | compound parts => firstDepth parts
  | combine _ left _ => left.depth
  | _ => 0

def firstDepth : List Selector → Nat
  | [] => 0
  | selector :: _ => selector.depth

end

theorem Begins.depth_eq {start selector : Selector} (hbegins : Begins start selector) :
    selector.depth = start.depth := by
  induction hbegins with
  | refl => rfl
  | combine _ ih => rwa [depth]

theorem depth_of_ofParts {parts : List Selector} {selector : Selector}
    (hparts : ofParts parts = some selector) : selector.depth = firstDepth parts := by
  match parts with
  | [] => cases hparts
  | [part] =>
      obtain rfl := Option.some.inj hparts
      rfl
  | first :: second :: more =>
      obtain rfl := Option.some.inj hparts
      rw [depth]

/-- Parts are told from the selector that they make up. -/
theorem ofParts_inj {left right : List Selector} {selector : Selector}
    (hforms : ∀ part ∈ left, IsForm .part part) (hforms' : ∀ part ∈ right, IsForm .part part)
    (hleft : ofParts left = some selector) (hright : ofParts right = some selector) :
    left = right := by
  match left, right with
  | [], _ => cases hleft
  | _, [] => cases hright
  | [part], [other] => rw [Option.some.inj hleft, Option.some.inj hright]
  | [part], _ :: _ :: _ =>
      have hpart := hforms part (by simp)
      rw [Option.some.inj hleft, ← Option.some.inj hright] at hpart
      cases hpart
  | _ :: _ :: _, [other] =>
      have hother := hforms' other (by simp)
      rw [Option.some.inj hright, ← Option.some.inj hleft] at hother
      cases hother
  | _ :: _ :: _, _ :: _ :: _ =>
      have heq := Option.some.inj (hleft.trans hright.symm)
      cases heq
      rfl

/-! ## Misreading -/

/-- The text of a selector is read as something that differs from the selector where it has
been read, and begins with as many lists. -/
def Misreads : Form → Selector → Prop
  | .part, part =>
      ∀ (fuel : Nat) (parts : List Selector) (rest : List Char) (selector : Selector)
        (after : List Char), 8 * part.display.toList.length ≤ fuel →
          readCompound (fuel + 1) parts (part.display.toList ++ rest) = .ok (selector, after) →
          ∃ other more, other ≠ part ∧ other.depth = part.depth ∧
            (∀ part ∈ other :: more, IsForm .part part) ∧
            ofParts (parts.reverse ++ other :: more) = some selector
  | .compound, selector =>
      ∀ (fuel : Nat) (rest : List Char) (found : Selector) (after : List Char),
        8 * selector.display.toList.length < fuel → Ends rest →
          readCompound fuel [] (selector.display.toList ++ rest) = .ok (found, after) →
          found ≠ selector ∧ found.depth = selector.depth
  | .complex, selector =>
      ∀ (fuel : Nat) (nested : Bool) (rest : List Char) (found : Selector) (after : List Char),
        8 * selector.display.toList.length < fuel → Ends rest →
          readComplex (fuel + 1) nested (selector.display.toList ++ rest) = .ok (found, after) →
          ¬ Begins selector found ∧ found.depth = selector.depth

theorem misreads_of_continued {part other : Selector} {parts : List Selector}
    {selector : Selector} (hne : other ≠ part) (hdepth : other.depth = part.depth)
    (hform : IsForm .part other)
    (hread : readCompound fuel (other :: parts) cs = .ok (selector, rest)) :
    ∃ other more, other ≠ part ∧ other.depth = part.depth ∧
      (∀ part ∈ other :: more, IsForm .part part) ∧
      ofParts (parts.reverse ++ other :: more) = some selector := by
  obtain ⟨more, hforms, hparts⟩ := ofParts_of_readCompound hread
  rw [List.reverse_cons, List.append_assoc, List.singleton_append] at hparts
  exact ⟨other, more, hne, hdepth, List.forall_mem_cons.mpr ⟨hform, hforms⟩, hparts⟩

theorem misreads_attr {test : AttributeTest} (htest : IsTest test)
    (hbad : ¬ IsPlain (.attr test)) : Misreads .part (.attr test) := by
  intro fuel parts rest selector after _ hread
  obtain ⟨text, hliteral, hbackslash⟩ : ∃ text, test.literal? = some text ∧ '\\' ∈ text.toList := by
    by_contra hnone
    push Not at hnone
    exact hbad fun text htext => hnone text (by simpa [literals] using htext)
  rw [toList_display_attr, List.cons_append, List.append_assoc, List.singleton_append,
    readCompound_succ] at hread
  simp only at hread
  split at hread
  next found _ hfound =>
    have hne : attr found ≠ attr test := fun heq =>
      ne_of_readAttribute htest.path hliteral hbackslash hfound (attr.inj heq)
    exact misreads_of_continued hne rfl (.attr (isTest_of_readAttribute hfound)) hread
  next => cases hread

theorem exists_later_not_isPlain {first : Selector} {selectors : List Selector}
    (hplain : first.IsPlain) (hbad : ∃ selector ∈ first :: selectors, ¬ selector.IsPlain) :
    ∃ selector ∈ selectors, ¬ selector.IsPlain := by
  obtain ⟨selector, hselector, hworse⟩ := hbad
  rcases List.mem_cons.mp hselector with rfl | hmem
  · exact absurd hplain hworse
  · exact ⟨selector, hmem, hworse⟩

/-- The text of the first of some options, and what stands behind it. -/
theorem displayOptions_eq_append (option : Selector) (options : List Selector) (rest : List Char) :
    ∃ tail, (displayOptions (option :: options)).toList ++ ')' :: rest =
        option.display.toList ++ tail ∧ Ends tail ∧
      option.display.toList.length ≤ (displayOptions (option :: options)).toList.length := by
  cases options with
  | nil => exact ⟨')' :: rest, rfl, .of_mem (by decide), le_rfl⟩
  | cons next options =>
      rw [toList_displayOptions_cons, List.append_assoc, List.length_append]
      exact ⟨_, rfl, .of_mem (by decide), Nat.le_add_right _ _⟩

/-- A list of options whose first misread option differs from the one written there. -/
theorem misreads_list {options : List Selector}
    (hforms : ∀ option ∈ options, IsForm .complex option)
    (hoptions : ∀ option ∈ options, ¬ option.IsPlain → Misreads .complex option)
    (hbad : ∃ option ∈ options, ¬ option.IsPlain) {fuel : Nat}
    (hfuel : 8 * (displayOptions options).toList.length + 2 < fuel) (read : List Selector)
    {found : List Selector} {after : List Char}
    (hread : readList fuel true read ((displayOptions options).toList ++ ')' :: rest) =
      .ok (found, after)) :
    ∃ others, found = read.reverse ++ others ∧ others ≠ options ∧
      firstDepth others = firstDepth options := by
  induction options generalizing fuel read with
  | nil => simp at hbad
  | cons option options ih =>
      obtain ⟨hform, hforms⟩ := List.forall_mem_cons.mp hforms
      obtain ⟨hmisreads, hoptions⟩ := List.forall_mem_cons.mp hoptions
      obtain ⟨less, rfl⟩ : ∃ less, fuel = less + 1 := ⟨fuel - 1, by omega⟩
      by_cases hplain : option.IsPlain
      -- a plain option is read as it is, and a later one is misread
      · have hlater := exists_later_not_isPlain hplain hbad
        cases options with
        | nil => simp at hlater
        | cons next options =>
            rw [readList_next hform (readsBack hform hplain) (by omega)] at hread
            rw [toList_displayOptions_cons] at hfuel
            simp only [List.length_append, List.length_cons] at hfuel
            obtain ⟨others, rfl, hne, -⟩ :=
              ih hforms hoptions hlater (by omega) (option :: read) hread
            exact ⟨option :: others, by simp, by simpa using hne, rfl⟩
      -- the first option that is not plain stays in the list as it has been misread
      · obtain ⟨tail, htext, hends, hlength⟩ := displayOptions_eq_append option options rest
        rw [htext] at hread
        obtain ⟨last, middle, hlast, hmore⟩ := exists_of_readList hread
        obtain ⟨less, rfl⟩ : ∃ fewer, less = fewer + 1 := ⟨less - 1, by omega⟩
        rw [trimStart_display hform] at hlast
        obtain ⟨hbegins, hdepth⟩ :=
          hmisreads hplain less true tail last middle (by omega) hends hlast
        obtain ⟨more, rfl⟩ := hmore
        refine ⟨last :: more, by simp, ?_, hdepth⟩
        rintro heq
        rw [(List.cons.inj heq).1] at hbegins
        exact hbegins .refl

theorem misreads_options {form : List Selector → Selector} {name : String}
    {options : List Selector} (hforms : ∀ option ∈ options, IsForm .complex option)
    (hoptions : ∀ option ∈ options, ¬ option.IsPlain → Misreads .complex option)
    (hbad : ∃ option ∈ options, ¬ option.IsPlain)
    (htext : (form options).display.toList = pseudoText name (displayOptions options).toList)
    (hpseudo : ∀ {fuel : Nat} {cs : List Char}, readPseudo (fuel + 1) (name.toList ++ '(' :: cs) =
      (readOptions fuel ('(' :: cs)).map fun (options, cs) => (form options, cs))
    (hinj : Function.Injective form)
    (hdepth : ∀ {others}, firstDepth others = firstDepth options →
      (form others).depth = (form options).depth) :
    Misreads .part (form options) := by
  intro fuel parts rest selector after hfuel hread
  rw [htext, pseudoText] at hfuel hread
  simp only [List.length_cons, List.length_append, List.length_nil] at hfuel
  obtain ⟨fuel, rfl⟩ : ∃ less, fuel = less + 1 + 1 := ⟨fuel - 2, by omega⟩
  simp only [List.cons_append, List.append_assoc, List.nil_append] at hread
  rw [readCompound_colon] at hread
  obtain ⟨⟨part, behind⟩, hpart, hread⟩ := bind_eq_ok_iff.mp hread
  have hform := ((readsForms _).pseudo hpart).1
  rw [hpseudo] at hpart
  obtain ⟨⟨others, middle⟩, hlist, heq⟩ := map_eq_ok_iff.mp hpart
  cases heq
  rw [readOptions, expect_self] at hlist
  simp only at hlist
  split at hlist
  next => cases hlist
  next found _ hfound =>
    obtain ⟨_, -, heq⟩ := map_eq_ok_iff.mp hlist
    cases heq
    obtain ⟨_, rfl, hne, hfirst⟩ := misreads_list hforms hoptions hbad (by omega) [] hfound
    exact misreads_of_continued (hinj.ne hne) (hdepth hfirst) hform hread

theorem misreads_parts {parts : List Selector} (hforms : ∀ part ∈ parts, IsForm .part part)
    (hparts : ∀ part ∈ parts, ¬ part.IsPlain → Misreads .part part)
    (hbad : ∃ part ∈ parts, ¬ part.IsPlain)
    (happart : parts.IsChain fun left right => left.takes right.opener = false)
    (hends : Ends rest) {fuel : Nat} (hfuel : 8 * (displayParts parts).toList.length < fuel)
    (read : List Selector) {found : Selector} {after : List Char}
    (hread : readCompound fuel read ((displayParts parts).toList ++ rest) = .ok (found, after)) :
    ∃ others, others ≠ parts ∧ firstDepth others = firstDepth parts ∧
      (∀ part ∈ others, IsForm .part part) ∧ ofParts (read.reverse ++ others) = some found := by
  induction parts generalizing fuel read with
  | nil => simp at hbad
  | cons part parts ih =>
      obtain ⟨hform, hforms⟩ := List.forall_mem_cons.mp hforms
      obtain ⟨hmisreads, hparts⟩ := List.forall_mem_cons.mp hparts
      have hpos := display_length_pos hform
      rw [toList_displayParts_cons] at hfuel hread
      rw [List.length_append] at hfuel
      obtain ⟨less, rfl⟩ : ∃ less, fuel = less + 1 := ⟨fuel - 1, by omega⟩
      rw [List.append_assoc] at hread
      by_cases hplain : part.IsPlain
      · rw [readsBack hform hplain less read _ (by omega) (stops_append hforms happart hends)]
          at hread
        obtain ⟨others, hne, -, hothers, hfound⟩ := ih hforms hparts
          (exists_later_not_isPlain hplain hbad) happart.tail (by omega) (part :: read) hread
        refine ⟨part :: others, by simpa using hne, rfl,
          List.forall_mem_cons.mpr ⟨hform, hothers⟩, ?_⟩
        rwa [List.reverse_cons, List.append_assoc, List.singleton_append] at hfound
      · obtain ⟨other, more, hne, hdepth, hothers, hfound⟩ :=
          hmisreads hplain less read _ found after (by omega) hread
        exact ⟨other :: more, fun heq => hne (List.cons.inj heq).1, hdepth, hothers, hfound⟩

theorem exists_not_isPlain {selectors : List Selector}
    (hbad : ¬ ∀ text ∈ listLiterals selectors, '\\' ∉ text.toList) :
    ∃ selector ∈ selectors, ¬ selector.IsPlain := by
  by_contra hnone
  push Not at hnone
  apply hbad
  intro text htext
  obtain ⟨selector, hselector, hliteral⟩ := mem_listLiterals.mp htext
  exact hnone selector hselector text hliteral

/-- A compound whose parts differ from what has been read of them. -/
theorem misreads_compound {parts : List Selector} {selector : Selector}
    (hforms : ∀ part ∈ parts, IsForm .part part)
    (hparts : ∀ part ∈ parts, ¬ part.IsPlain → Misreads .part part)
    (hbad : ∃ part ∈ parts, ¬ part.IsPlain)
    (happart : parts.IsChain fun left right => left.takes right.opener = false)
    (htext : selector.display.toList = (displayParts parts).toList)
    (hselector : ofParts parts = some selector) : Misreads .compound selector := by
  intro fuel rest found after hfuel hends hread
  rw [htext] at hfuel hread
  obtain ⟨others, hne, hdepth, hothers, hfound⟩ :=
    misreads_parts hforms hparts hbad happart hends hfuel [] hread
  constructor
  · rintro rfl
    exact hne (ofParts_inj hothers hforms hfound hselector)
  · rw [depth_of_ofParts hselector, ← hdepth]
    exact depth_of_ofParts hfound

theorem misreads_base {selector : Selector} (hform : IsForm .compound selector)
    (hcompound : Misreads .compound selector) : Misreads .complex selector := by
  intro fuel nested rest found after hfuel hends hread
  obtain ⟨c, cs, htext, hopener⟩ := exists_display_eq_opener_cons hform
  have hmisread := hcompound fuel rest
  rw [htext, List.cons_append] at hread hmisread
  rw [readComplex_opener hopener] at hread
  obtain ⟨⟨left, middle⟩, hleft, hread⟩ := bind_eq_ok_iff.mp hread
  obtain ⟨hne, hdepth⟩ := hmisread left middle (by rwa [← htext]) hends hleft
  have hbegins := begins_of_readSteps hread
  have hlinks : left.links = 0 :=
    links_of_compound ((readsForms _).compound (by simp) .nil (by simp) hleft)
  constructor
  · intro hselector
    exact hne (hbegins.unique hselector (by rw [hlinks, links_of_compound hform]))
  · rw [hbegins.depth_eq, hdepth]

theorem misreads_combine {combinator : Combinator} {left right : Selector}
    (hleft : IsForm .complex left) (hright : IsForm .compound right)
    (hmisleft : ¬ left.IsPlain → Misreads .complex left)
    (hmisright : ¬ right.IsPlain → Misreads .compound right)
    (hbad : ¬ IsPlain (.combine combinator left right)) :
    Misreads .complex (.combine combinator left right) := by
  intro fuel nested rest found after hfuel hends hread
  have hlinks := links_le left
  have hlength := symbol_length_pos combinator
  have hsymbol : Ends (combinator.symbol.toList ++ (right.display.toList ++ rest)) := by
    cases combinator <;> exact .of_mem (by decide)
  rw [toList_display_combine, List.append_assoc, List.append_assoc] at hread
  rw [toList_display_combine] at hfuel
  simp only [List.length_append] at hfuel
  -- what is misread of the left side stays on the left; of the right side, under as many
  -- combinators as the selector has
  by_cases hplain : left.IsPlain
  · have hworse : ¬ right.IsPlain := fun hplain' =>
      hbad (List.forall_mem_append.mpr ⟨hplain, hplain'⟩)
    obtain ⟨c, cs, htext, hopener⟩ := exists_display_eq_opener_cons hright
    have hmisread := hmisright hworse (fuel - left.links - 1) rest
    rw [readsBack hleft hplain fuel nested _ (by omega) hsymbol,
      show fuel - left.links = fuel - left.links - 1 + 1 by omega] at hread
    rw [htext, List.cons_append] at hread hmisread
    rw [readSteps_combinator hopener] at hread
    obtain ⟨⟨other, middle⟩, hother, hread⟩ := bind_eq_ok_iff.mp hread
    obtain ⟨hne, -⟩ := hmisread other middle (by rw [← htext]; omega) hends hother
    have hbegins := begins_of_readSteps hread
    constructor
    · intro hselector
      have heq := hbegins.unique hselector rfl
      exact hne (combine.inj heq).2.2
    · rw [hbegins.depth_eq, depth, depth]
  · obtain ⟨hbegins, hdepth⟩ :=
      hmisleft hplain fuel nested _ found after (by omega) hsymbol hread
    exact ⟨fun hselector => hbegins hselector.of_combine, by rw [hdepth, depth]⟩

theorem misreads {form : Form} {selector : Selector} (hform : IsForm form selector)
    (hbad : ¬ selector.IsPlain) : Misreads form selector := by
  have hnone : ∀ {part : Selector}, part.literals = [] → part.IsPlain := by
    intro part hliterals text htext
    rw [hliterals] at htext
    cases htext
  induction hform with
  | wildcard => exact absurd (hnone rfl) hbad
  | scope => exact absurd (hnone rfl) hbad
  | kind => exact absurd (hnone rfl) hbad
  | field => exact absurd (hnone rfl) hbad
  | nthChild => exact absurd (hnone rfl) hbad
  | nthLastChild => exact absurd (hnone rfl) hbad
  | attr htest => exact misreads_attr htest hbad
  | not _ hoptions ih =>
      exact misreads_options hoptions ih (exists_not_isPlain hbad) (toList_display_not _)
        readPseudo_not (fun _ _ => not.inj) (fun _ => rfl)
  | any _ hoptions ih =>
      exact misreads_options hoptions ih (exists_not_isPlain hbad) (toList_display_any _)
        readPseudo_matches (fun _ _ => any.inj) (fun hdepth => by rw [depth, depth, hdepth])
  | has _ hoptions ih =>
      exact misreads_options hoptions ih (exists_not_isPlain hbad) (toList_display_has _)
        readPseudo_has (fun _ _ => has.inj) (fun _ => rfl)
  | @single part hpart ih =>
      have hparts : ∀ other ∈ [part], IsForm .part other := by simpa using hpart
      have hmisreads : ∀ other ∈ [part], ¬ other.IsPlain → Misreads .part other := by simpa using ih
      exact misreads_compound hparts hmisreads ⟨part, by simp, hbad⟩ (.singleton _)
        (toList_displayParts_singleton part).symm rfl
  | compound hparts happart ih =>
      exact misreads_compound hparts ih (exists_not_isPlain hbad) happart rfl rfl
  | base hcompound ih => exact misreads_base hcompound (ih hbad)
  | combine hleft hright ihleft ihright =>
      exact misreads_combine hleft hright ihleft ihright hbad

/-- A selector that has been read is read back from its text exactly where its literals
hold no backslash. -/
theorem parse_display_iff {text : String} {selector : Selector}
    (hparse : parse text = .ok selector) :
    parse selector.display = .ok selector ↔
      ∀ literal ∈ selector.literals, '\\' ∉ literal.toList := by
  refine ⟨fun hdisplay => ?_, parse_display hparse⟩
  by_contra hbad
  have hform := isForm_of_parse hparse
  have hfirst : ∀ {selectors : List Selector} {after : List Char},
      readList (fuelFor selector.display.toList) false [] selector.display.toList =
        .ok (selectors, after) →
      ∃ last more, selectors = last :: more ∧ ¬ Begins selector last ∧
        last.depth = selector.depth := by
    intro selectors after hlist
    obtain ⟨last, middle, hlast, hmore⟩ := exists_of_readList hlist
    have htrim := @trimStart_display [] .complex selector hform
    rw [List.append_nil] at htrim
    rw [htrim, ← List.append_nil selector.display.toList] at hlast
    obtain ⟨more, rfl⟩ := hmore
    exact ⟨last, more, rfl, misreads hform hbad _ false [] last middle (by simp) (by simp [Ends])
      hlast⟩
  simp only [parse] at hdisplay
  split at hdisplay
  next => cases hdisplay
  next =>
    split at hdisplay
    next found _ hlist =>
      obtain ⟨last, more, heq, hbegins, -⟩ := hfirst hlist
      cases heq
      cases hdisplay
      exact hbegins .refl
    next hlist =>
      obtain ⟨last, more, rfl, -, hdepth⟩ := hfirst hlist
      -- a list of selectors begins with one `:matches` less than the text it was read from
      obtain rfl := Except.ok.inj hdisplay
      rw [depth, firstDepth] at hdepth
      omega
    next => cases hdisplay

/-- A quote in a literal and a position come back from the text, which differs from the one
that was read first. -/
theorem parse_display_quote :
    ∃ selector, parse "[a=\"it's\"] > :not(.b, *:first-child)" = .ok selector ∧
      selector.display = "[a='it\\'s'] > :not(.b, *:nth-child(1))" ∧
      parse selector.display = .ok selector := by
  have hread : (parse "[a=\"it's\"] > :not(.b, *:first-child)").map
      (fun selector => (selector.display, selector.literals)) =
        .ok ("[a='it\\'s'] > :not(.b, *:nth-child(1))", ["it's"]) := by decide +kernel
  obtain ⟨selector, hparse, hselector⟩ := map_eq_ok_iff.mp hread
  obtain ⟨hdisplay, hliterals⟩ := Prod.mk.inj hselector
  exact ⟨selector, hparse, hdisplay, (parse_display_iff hparse).mpr (by rw [hliterals]; decide)⟩

/-- The literal of a bare word keeps its backslash, and loses it when its text is read. -/
theorem not_forall_parse_display :
    ¬ ∀ text selector, parse text = .ok selector → parse selector.display = .ok selector := by
  intro hall
  have hread : (parse "[a=x\\y]").map
      (fun selector => (selector.literals, (parse selector.display).map literals)) =
        .ok (["x\\y"], .ok ["xy"]) := by decide +kernel
  obtain ⟨selector, hparse, hselector⟩ := map_eq_ok_iff.mp hread
  obtain ⟨hliterals, hagain⟩ := Prod.mk.inj hselector
  rw [hall _ _ hparse, Except.map, hliterals] at hagain
  exact absurd (List.cons.inj (Except.ok.inj hagain)).1 (by decide)

end Selector

end ReactiveLint
