import ReactiveLint.Proofs.Selector.Written

/-!
# Rereading written selectors

The text of a selector that has been read is read as that selector again, unless one of its
literals holds a backslash.
-/

namespace ReactiveLint

namespace Selector

open Text

variable {cs rest : List Char} {fuel : Nat}

/-! ## Literals and links -/

mutual

/-- The literals in a selector, in the order of its text. -/
def literals : Selector → List String
  | attr test => test.literal?.toList
  | compound parts => listLiterals parts
  | not options => listLiterals options
  | any options => listLiterals options
  | has options => listLiterals options
  | combine _ left right => left.literals ++ right.literals
  | _ => []

def listLiterals : List Selector → List String
  | [] => []
  | selector :: selectors => selector.literals ++ listLiterals selectors

end

theorem mem_listLiterals {text : String} {selectors : List Selector} :
    text ∈ listLiterals selectors ↔ ∃ selector ∈ selectors, text ∈ selector.literals := by
  induction selectors with
  | nil => simp [listLiterals]
  | cons selector selectors ih => simp [listLiterals, ih]

/-- No literal holds a backslash, which would be written without a mark before it. -/
def IsPlain (selector : Selector) : Prop := ∀ text ∈ selector.literals, '\\' ∉ text.toList

/-- The combinators on the left of a selector, one inside the other. -/
def links : Selector → Nat
  | combine _ left _ => left.links + 1
  | _ => 0

/-! ## Reading back -/

/-- The text of a selector is read as the selector, whatever has been read before it and
whatever may stand behind it.  Eight units of fuel a character are enough. -/
def ReadsBack : Form → Selector → Prop
  | .part, part =>
      ∀ (fuel : Nat) (parts : List Selector) (rest : List Char),
        8 * part.display.toList.length ≤ fuel → part.Stops rest →
          readCompound (fuel + 1) parts (part.display.toList ++ rest) =
            readCompound fuel (part :: parts) rest
  | .compound, selector =>
      ∀ (fuel : Nat) (rest : List Char),
        8 * selector.display.toList.length < fuel → Ends rest →
          readCompound fuel [] (selector.display.toList ++ rest) = .ok (selector, rest)
  | .complex, selector =>
      ∀ (fuel : Nat) (nested : Bool) (rest : List Char),
        8 * selector.display.toList.length < fuel → Ends rest →
          readComplex (fuel + 1) nested (selector.display.toList ++ rest) =
            readSteps (fuel - selector.links) selector rest

theorem readsBack_wildcard : ReadsBack .part .wildcard := by
  intro fuel parts rest _ _
  exact readCompound_succ fuel parts ('*' :: rest)

theorem readsBack_scope : ReadsBack .part .scope := by
  intro fuel parts rest hfuel hstops
  obtain ⟨fuel, rfl⟩ : ∃ less, fuel = less + 1 :=
    Nat.exists_eq_add_one.mpr (lt_of_lt_of_le (by decide) hfuel)
  change readCompound (fuel + 1 + 1) parts (':' :: ("scope".toList ++ rest)) = _
  rw [readCompound_colon, readPseudo_scope hstops, Except.bind]

theorem readsBack_kind {wanted : Kind} (hword : IsKindWord wanted) :
    ReadsBack .part (.kind wanted) := by
  intro fuel parts rest _ hstops
  obtain ⟨hknown, c, cs, htext, hstart, hcs⟩ := hword
  obtain ⟨first, name, hname, hupper⟩ := exists_name_eq_cons wanted
  rw [hname, String.toList_ofList] at htext
  obtain ⟨rfl, rfl⟩ := List.cons.inj htext
  have hrun : ∀ next ∈ first :: name, isKindChar next = true :=
    List.forall_mem_cons.mpr ⟨isKindChar_of_isKindStart hstart, hcs⟩
  have htake := takeWhile_run hrun hstops
  have hdrop := dropWhile_run hrun hstops
  change readCompound (fuel + 1) parts (wanted.name.toList ++ rest) = _
  rw [List.cons_append] at htake hdrop
  rw [hname, String.toList_ofList, List.cons_append,
    readCompound_unmarked (isOpener_of_isUpper hupper).2, if_pos hstart, htake, hdrop, ← hname]
  simp only [hknown]

theorem readsBack_field {path : List String} (hpath : IsPath isFieldChar path) :
    ReadsBack .part (.field path) := by
  intro fuel parts rest _ hstops
  obtain ⟨first, name, htext, hfirst, hname, rfl⟩ := hpath.exists_eq
  have hrun : ∀ next ∈ first :: name, isFieldChar next = true :=
    List.forall_mem_cons.mpr ⟨hfirst, hname⟩
  rw [toList_display_field, htext, List.cons_append, readCompound_succ]
  simp only [takeWhile_run hrun hstops, dropWhile_run hrun hstops, List.isEmpty_cons,
    Bool.false_eq_true, if_false]

theorem readsBack_attr {test : AttributeTest} (htest : IsTest test)
    (hplain : IsPlain (.attr test)) : ReadsBack .part (.attr test) := by
  intro fuel parts rest _ _
  have hliteral : ∀ text ∈ test.literal?, '\\' ∉ text.toList :=
    fun text htext => hplain text (by simpa [literals] using htext)
  rw [toList_display_attr, List.cons_append, List.append_assoc, List.singleton_append,
    readCompound_succ]
  simp only [readAttribute_written htest hliteral]

/-- A position in parentheses. -/
theorem readsBack_position {form : Nat → Selector} {name : String} {position : Nat}
    (htext : (form position).display.toList = pseudoText name (Nat.toDigits 10 position))
    (hread : ∀ {fuel : Nat} {rest : List Char},
      readPseudo (fuel + 1) (name.toList ++ '(' :: (Nat.toDigits 10 position ++ ')' :: rest)) =
        .ok (form position, rest)) : ReadsBack .part (form position) := by
  intro fuel parts rest hfuel _
  obtain ⟨fuel, rfl⟩ : ∃ less, fuel = less + 1 := by
    apply Nat.exists_eq_add_one.mpr
    rw [htext, pseudoText, List.length_cons] at hfuel
    omega
  rw [htext, pseudoText]
  simp only [List.cons_append, List.append_assoc, List.nil_append]
  rw [readCompound_colon, hread, Except.bind]

theorem symbol_length_pos (combinator : Combinator) : 0 < combinator.symbol.toList.length := by
  cases combinator <;> decide

theorem links_le (selector : Selector) : selector.links ≤ selector.display.toList.length := by
  induction selector using links.induct with
  | case1 combinator left right ih =>
      have hsymbol := symbol_length_pos combinator
      rw [links, toList_display_combine, List.length_append, List.length_append]
      omega
  | case2 selector hother =>
      rw [links]
      · exact Nat.zero_le _
      · exact hother

theorem links_of_compound {selector : Selector} (hform : IsForm .compound selector) :
    selector.links = 0 := by
  cases hform with
  | single hpart => cases hpart <;> rfl
  | compound => rfl

theorem trimStart_display {form : Form} {selector : Selector} (hform : IsForm form selector) :
    trimStart (selector.display.toList ++ rest) = selector.display.toList ++ rest := by
  obtain ⟨c, cs, htext, hopener⟩ := exists_display_eq_opener_cons hform
  rw [htext, List.cons_append, hopener.trimStart_eq]

/-- A selector up to the comma or the parenthesis behind it. -/
theorem readComplex_written {option : Selector} (hform : IsForm .complex option)
    (hback : ReadsBack .complex option) (hcloses : ∀ c ∈ rest.head?, c ∈ [',', ')'])
    (hfuel : 8 * option.display.toList.length + 1 < fuel) (nested : Bool) :
    readComplex fuel nested (trimStart (option.display.toList ++ rest)) =
      .ok (option, rest) := by
  have hlinks := links_le option
  obtain ⟨less, hless⟩ : ∃ less, fuel = less + 1 ∧ less - option.links = less - option.links - 1 + 1 :=
    ⟨fuel - 1, by omega⟩
  have hends : Ends rest := fun c hc => List.mem_cons_of_mem _ (hcloses c hc)
  rw [trimStart_display hform, hless.1, hback less nested rest (by omega) hends, hless.2,
    readSteps_end hcloses]

theorem readList_space (fuel : Nat) (nested : Bool) (read : List Selector) (cs : List Char) :
    readList (fuel + 1) nested read (' ' :: cs) = readList (fuel + 1) nested read cs := by
  rw [readList, readList, trimStart_space]

/-- An option before a comma. -/
theorem readList_next {option next : Selector} {options : List Selector}
    (hform : IsForm .complex option) (hback : ReadsBack .complex option) {fuel : Nat}
    (hfuel : 8 * (displayOptions (option :: next :: options)).toList.length + 1 < fuel)
    (read : List Selector) :
    readList (fuel + 1) true read
        ((displayOptions (option :: next :: options)).toList ++ ')' :: rest) =
      readList fuel true (option :: read)
        ((displayOptions (next :: options)).toList ++ ')' :: rest) := by
  rw [toList_displayOptions_cons] at hfuel ⊢
  simp only [List.length_append, List.length_cons] at hfuel
  have hfirst := @readComplex_written
    (',' :: ' ' :: ((displayOptions (next :: options)).toList ++ ')' :: rest)) fuel option
    hform hback (by simp) (by omega) true
  have hcomma : IsVisible ',' := by decide
  obtain ⟨less, rfl⟩ : ∃ less, fuel = less + 1 := ⟨fuel - 1, by omega⟩
  rw [readList, List.append_assoc, List.cons_append, List.cons_append]
  simp only [hfirst, hcomma.trimStart_eq]
  rw [readList_space]

/-- Selectors between commas, in parentheses. -/
theorem readList_written {options : List Selector} (hne : options ≠ [])
    (hforms : ∀ option ∈ options, IsForm .complex option)
    (hoptions : ∀ option ∈ options, ReadsBack .complex option) {fuel : Nat}
    (hfuel : 8 * (displayOptions options).toList.length + 2 < fuel) (read : List Selector) :
    readList fuel true read ((displayOptions options).toList ++ ')' :: rest) =
      .ok (read.reverse ++ options, ')' :: rest) := by
  induction options generalizing fuel read with
  | nil => exact absurd rfl hne
  | cons option options ih =>
      obtain ⟨less, rfl⟩ : ∃ less, fuel = less + 1 := ⟨fuel - 1, by omega⟩
      obtain ⟨hform, hforms⟩ := List.forall_mem_cons.mp hforms
      obtain ⟨hback, hoptions⟩ := List.forall_mem_cons.mp hoptions
      cases options with
      | nil =>
          change 8 * option.display.toList.length + 2 < less + 1 at hfuel
          change readList (less + 1) true read (option.display.toList ++ ')' :: rest) = _
          have hparen : IsVisible ')' := by decide
          have hfirst := @readComplex_written (')' :: rest) less option hform hback (by simp)
            (by omega) true
          rw [readList]
          simp only [hfirst, hparen.trimStart_eq]
          simp
      | cons next options =>
          rw [readList_next hform hback (by omega)]
          rw [toList_displayOptions_cons] at hfuel
          simp only [List.length_append, List.length_cons] at hfuel
          rw [ih (List.cons_ne_nil _ _) hforms hoptions (by omega), List.reverse_cons,
            List.append_assoc, List.singleton_append]

theorem readsBack_options {form : List Selector → Selector} {name : String}
    {options : List Selector} (hne : options ≠ [])
    (hforms : ∀ option ∈ options, IsForm .complex option)
    (hoptions : ∀ option ∈ options, ReadsBack .complex option)
    (htext : (form options).display.toList = pseudoText name (displayOptions options).toList)
    (hread : ∀ {fuel : Nat} {cs : List Char}, readPseudo (fuel + 1) (name.toList ++ '(' :: cs) =
      (readOptions fuel ('(' :: cs)).map fun (options, cs) => (form options, cs)) :
    ReadsBack .part (form options) := by
  intro fuel parts rest hfuel _
  rw [htext, pseudoText] at hfuel ⊢
  simp only [List.length_cons, List.length_append, List.length_nil] at hfuel
  obtain ⟨fuel, rfl⟩ : ∃ less, fuel = less + 1 + 1 := ⟨fuel - 2, by omega⟩
  have hlist := @readList_written rest options hne hforms hoptions fuel (by omega) []
  simp only [List.cons_append, List.append_assoc, List.nil_append]
  rw [readCompound_colon, hread, readOptions, expect_self]
  simp only [hlist, expect_self, Except.map, Except.bind, List.reverse_nil, List.nil_append]

theorem stops_append {part : Selector} {parts : List Selector}
    (hforms : ∀ part ∈ parts, IsForm .part part)
    (happart : (part :: parts).IsChain fun left right => left.takes right.opener = false)
    (hends : Ends rest) : part.Stops ((displayParts parts).toList ++ rest) := by
  cases parts with
  | nil => exact hends.closes.stops part
  | cons next parts =>
      obtain ⟨cs, htext⟩ := display_eq_cons (hforms next List.mem_cons_self)
      rw [toList_displayParts_cons, htext, List.cons_append, List.cons_append]
      intro c hc
      obtain rfl := Option.some.inj hc
      exact (List.isChain_cons_cons.mp happart).1

/-- The parts of a compound, one after the other. -/
theorem readParts_written {parts : List Selector}
    (hforms : ∀ part ∈ parts, IsForm .part part)
    (hparts : ∀ part ∈ parts, ReadsBack .part part)
    (happart : parts.IsChain fun left right => left.takes right.opener = false)
    (hends : Ends rest) {fuel : Nat} (hfuel : 8 * (displayParts parts).toList.length < fuel)
    (read : List Selector) {selector : Selector}
    (hselector : ofParts (read.reverse ++ parts) = some selector) :
    readCompound fuel read ((displayParts parts).toList ++ rest) = .ok (selector, rest) := by
  induction parts generalizing fuel read with
  | nil =>
      obtain ⟨less, rfl⟩ : ∃ less, fuel = less + 1 := ⟨fuel - 1, by omega⟩
      rw [List.append_nil] at hselector
      exact readCompound_end hends hselector
  | cons part parts ih =>
      obtain ⟨hform, hforms⟩ := List.forall_mem_cons.mp hforms
      obtain ⟨hback, hparts⟩ := List.forall_mem_cons.mp hparts
      have hpos := display_length_pos hform
      rw [toList_displayParts_cons] at hfuel ⊢
      rw [List.length_append] at hfuel
      obtain ⟨less, rfl⟩ : ∃ less, fuel = less + 1 := ⟨fuel - 1, by omega⟩
      rw [List.append_assoc, hback less read _ (by omega) (stops_append hforms happart hends)]
      apply ih hforms hparts happart.tail (by omega)
      rwa [List.reverse_cons, List.append_assoc, List.singleton_append]

theorem IsPlain.of_mem {selectors : List Selector} {selector : Selector}
    (hplain : ∀ text ∈ listLiterals selectors, '\\' ∉ text.toList)
    (hselector : selector ∈ selectors) : selector.IsPlain :=
  fun text htext => hplain text (mem_listLiterals.mpr ⟨selector, hselector, htext⟩)

theorem readsBack {form : Form} {selector : Selector} (hform : IsForm form selector)
    (hplain : selector.IsPlain) : ReadsBack form selector := by
  induction hform with
  | wildcard => exact readsBack_wildcard
  | scope => exact readsBack_scope
  | kind hword => exact readsBack_kind hword
  | field hpath => exact readsBack_field hpath
  | attr htest => exact readsBack_attr htest hplain
  | not hne hoptions ih =>
      exact readsBack_options hne hoptions
        (fun option hoption => ih option hoption (.of_mem hplain hoption))
        (toList_display_not _) readPseudo_not
  | any hne hoptions ih =>
      exact readsBack_options hne hoptions
        (fun option hoption => ih option hoption (.of_mem hplain hoption))
        (toList_display_any _) readPseudo_matches
  | has hne hoptions ih =>
      exact readsBack_options hne hoptions
        (fun option hoption => ih option hoption (.of_mem hplain hoption))
        (toList_display_has _) readPseudo_has
  | nthChild hlt =>
      exact readsBack_position (toList_display_nthChild _) (readPseudo_nthChild hlt)
  | nthLastChild hlt =>
      exact readsBack_position (toList_display_nthLastChild _) (readPseudo_nthLastChild hlt)
  | @single part hpart ih =>
      intro fuel rest hfuel hends
      rw [← toList_displayParts_singleton] at hfuel ⊢
      exact readParts_written (by simpa using hpart) (by simpa using ih hplain) (.singleton _)
        hends hfuel [] rfl
  | compound hparts happart ih =>
      intro fuel rest hfuel hends
      exact readParts_written hparts (fun part hpart => ih part hpart (.of_mem hplain hpart))
        happart hends hfuel [] rfl
  | @base selector hcompound ih =>
      intro fuel nested rest hfuel hends
      obtain ⟨c, cs, htext, hopener⟩ := exists_display_eq_opener_cons hcompound
      have hread := ih hplain fuel rest hfuel hends
      rw [htext, List.cons_append] at hread ⊢
      rw [readComplex_opener hopener, links_of_compound hcompound]
      simp only [hread, Except.bind, Nat.sub_zero]
  | @combine combinator left right hleft hright ihleft ihright =>
      -- the left side leaves a unit less of fuel for each of its combinators
      intro fuel nested rest hfuel hends
      have hplain' := List.forall_mem_append.mp hplain
      have hlinks := links_le left
      have hlength := symbol_length_pos combinator
      have hsymbol : Ends (combinator.symbol.toList ++ (right.display.toList ++ rest)) := by
        cases combinator <;> exact .of_mem (by decide)
      obtain ⟨c, cs, htext, hopener⟩ := exists_display_eq_opener_cons hright
      rw [toList_display_combine] at hfuel ⊢
      simp only [List.length_append] at hfuel
      have hread := ihright hplain'.2 (fuel - left.links - 1) rest (by omega) hends
      rw [List.append_assoc, List.append_assoc,
        ihleft hplain'.1 fuel nested _ (by omega) hsymbol,
        show fuel - left.links = fuel - left.links - 1 + 1 by omega]
      rw [htext, List.cons_append] at hread ⊢
      rw [readSteps_combinator hopener]
      simp only [hread, Except.bind, links, Nat.sub_add_eq]

/-- A selector in the form of what can be read is read from its text. -/
theorem parse_display_of_isForm {selector : Selector} (hform : IsForm .complex selector)
    (hplain : selector.IsPlain) : parse selector.display = .ok selector := by
  apply parse_of_readComplex
  have hread := @readComplex_written [] (8 * selector.display.toList.length + 7) selector hform
    (readsBack hform hplain) (by simp) (by omega) false
  rwa [List.append_nil] at hread

/-- Writing a selector and reading it give the selector. -/
theorem parse_display {text : String} {selector : Selector}
    (hparse : parse text = .ok selector) (hplain : selector.IsPlain) :
    parse selector.display = .ok selector :=
  parse_display_of_isForm (isForm_of_parse hparse) hplain

end Selector

end ReactiveLint
