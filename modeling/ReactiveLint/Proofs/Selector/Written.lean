import ReactiveLint.Proofs.Selector.Pieces
import ReactiveLint.Proofs.Selector.Readers
import ReactiveLint.Proofs.Text.Blanks

/-!
# The text of a selector

How the text of a selector begins, what may stand behind it, and what one step of a reader
does with it.
-/

namespace ReactiveLint

namespace Selector

open Text

variable {cs rest : List Char} {fuel : Nat}

/-! ## Where texts begin and end -/

/-- The characters that a compound cannot go on with. -/
def IsCloser (c : Char) : Prop := isBlank c = true ∨ c ∈ ['>', '~', '+', ',', ')']

/-- No compound goes on into the rest. -/
def Closes (rest : List Char) : Prop := ∀ c ∈ rest.head?, IsCloser c

theorem IsCloser.not_taken {c : Char} (hcloser : IsCloser c) :
    c ∉ ['*', '[', '.', ':', '!'] ∧ isKindChar c = false ∧ isKindStart c = false ∧
      isFieldChar c = false ∧ isPseudoChar c = false := by
  rcases hcloser with hblank | hmark
  · have hall : ∀ c ∈ blanks, c ∉ ['*', '[', '.', ':', '!', '_', '$'] ∧ isPseudoChar c = false :=
      forall_mem_of_all (by decide +kernel)
    obtain ⟨hother, hpseudo⟩ := hall c (mem_blanks hblank)
    simp only [List.mem_cons, List.not_mem_nil, or_false, not_or] at hother ⊢
    simp only [isKindChar, isKindStart, isFieldChar, isAlphabetic_eq_false_of_isBlank hblank,
      isAlphanumeric_eq_false_of_isBlank hblank, hpseudo, hother, beq_eq_false_iff_ne.mpr, ne_eq,
      not_false_eq_true, Bool.or_self, and_self]
  · have hall : ∀ c ∈ ['>', '~', '+', ',', ')'],
        c ∉ ['*', '[', '.', ':', '!'] ∧ isKindChar c = false ∧ isKindStart c = false ∧
          isFieldChar c = false ∧ isPseudoChar c = false := forall_mem_of_all (by decide)
    exact hall c hmark

theorem Closes.stops (hcloses : Closes rest) (part : Selector) : part.Stops rest := by
  intro c hc
  obtain ⟨-, hkind, -, hfield, hpseudo⟩ := (hcloses c hc).not_taken
  cases part with
  | kind => exact hkind
  | field => exact hfield
  | scope => exact hpseudo
  | _ => rfl

theorem Closes.takesNone (hcloses : Closes rest) (parts : List Selector) :
    TakesNone parts rest := by
  intro c hc
  obtain ⟨hmark, -, hstart, -⟩ := (hcloses c hc).not_taken
  simp only [List.mem_cons, List.not_mem_nil, or_false, not_or] at hmark ⊢
  exact ⟨⟨hmark.1, hmark.2.1, hmark.2.2.1, hmark.2.2.2.1⟩, fun h => absurd h hmark.2.2.2.2, hstart⟩

/-- The characters that are written behind a compound. -/
def Ends (rest : List Char) : Prop := ∀ c ∈ rest.head?, c ∈ [' ', ',', ')']

theorem Ends.of_mem {c : Char} (hc : c ∈ [' ', ',', ')']) : Ends (c :: rest) := by
  intro other hother
  rwa [← Option.some.inj hother]

theorem Ends.closes (hends : Ends rest) : Closes rest := by
  have hall : ∀ c ∈ [' ', ',', ')'], isBlank c = true ∨ c ∈ ['>', '~', '+', ',', ')'] :=
    forall_mem_of_all (by decide)
  exact fun c hc => hall c (hends c hc)

theorem readCompound_end (hends : Ends rest) {parts : List Selector} {selector : Selector}
    (hparts : ofParts parts.reverse = some selector) :
    readCompound (fuel + 1) parts rest = .ok (selector, rest) :=
  readCompound_of_takesNone (hends.closes.takesNone parts) hparts

/-- The first characters of compounds. -/
def IsOpener (c : Char) : Prop := IsVisible c ∧ c ∉ ['>', '~', '+', ',', ')']

instance (c : Char) : Decidable (IsOpener c) :=
  inferInstanceAs (Decidable (IsVisible c ∧ c ∉ ['>', '~', '+', ',', ')']))

theorem exists_name_eq_cons (kind : Kind) :
    ∃ c cs, kind.name = String.ofList (c :: cs) ∧ c.isUpper = true := by
  cases kind <;> exact ⟨_, _, rfl, rfl⟩

theorem isOpener_of_isUpper {c : Char} (hupper : c.isUpper = true) :
    IsOpener c ∧ c ∉ ['*', '[', '.', ':', '!'] := by
  have hother : ∀ other ∈ ['>', '~', '+', ',', ')'] ++ ['*', '[', '.', ':', '!'],
      other.isUpper = false := forall_mem_of_all (by decide)
  have hne : c ∉ ['>', '~', '+', ',', ')'] ++ ['*', '[', '.', ':', '!'] := by
    intro hmem
    rw [hother c hmem] at hupper
    cases hupper
  rw [List.mem_append, not_or] at hne
  have hbounds : 65 ≤ c.val ∧ c.val ≤ 90 := of_decide_eq_true hupper
  simp only [UInt32.le_iff_toNat_le] at hbounds
  exact ⟨⟨⟨le_trans (by decide) hbounds.1, le_trans hbounds.2 (by decide)⟩, hne.1⟩, hne.2⟩

/-! ## The text of a selector -/

/-- A pseudo-class with what stands in its parentheses. -/
def pseudoText (name : String) (inner : List Char) : List Char :=
  ':' :: (name.toList ++ '(' :: (inner ++ [')']))

-- The equations of the printer are stated by unfolding, which is faster here than to have
-- them made.

theorem toList_display_field (path : List String) :
    (field path).display.toList = '.' :: (joinPath path).toList := by
  change ("." ++ joinPath path).toList = _
  simp

theorem toList_display_attr (test : AttributeTest) :
    (attr test).display.toList = '[' :: (test.body ++ [']']) :=
  AttributeTest.toList_display test

/-- The text of a pseudo-class with parentheses. -/
theorem toList_pseudoText (name opening : String) (inner : String)
    (hopening : opening.toList = ':' :: (name.toList ++ ['('])) :
    (opening ++ inner ++ ")").toList = pseudoText name inner.toList := by
  simp [pseudoText, hopening]

theorem toList_display_not (options : List Selector) :
    (not options).display.toList = pseudoText "not" (displayOptions options).toList :=
  toList_pseudoText "not" ":not(" (displayOptions options) rfl

theorem toList_display_any (options : List Selector) :
    (any options).display.toList = pseudoText "matches" (displayOptions options).toList :=
  toList_pseudoText "matches" ":matches(" (displayOptions options) rfl

theorem toList_display_has (options : List Selector) :
    (has options).display.toList = pseudoText "has" (displayOptions options).toList :=
  toList_pseudoText "has" ":has(" (displayOptions options) rfl

theorem toList_display_nthChild (position : Nat) :
    (nthChild position).display.toList = pseudoText "nth-child" (Nat.toDigits 10 position) := by
  have htext := toList_pseudoText "nth-child" ":nth-child(" (toString position) rfl
  rwa [show (toString position).toList = Nat.toDigits 10 position by simp] at htext

theorem toList_display_nthLastChild (position : Nat) :
    (nthLastChild position).display.toList =
      pseudoText "nth-last-child" (Nat.toDigits 10 position) := by
  have htext := toList_pseudoText "nth-last-child" ":nth-last-child(" (toString position) rfl
  rwa [show (toString position).toList = Nat.toDigits 10 position by simp] at htext

theorem toList_display_combine (combinator : Combinator) (left right : Selector) :
    (combine combinator left right).display.toList =
      left.display.toList ++ (combinator.symbol.toList ++ right.display.toList) := by
  change (left.display ++ combinator.symbol ++ right.display).toList = _
  simp

theorem toList_displayParts_cons (part : Selector) (parts : List Selector) :
    (displayParts (part :: parts)).toList =
      part.display.toList ++ (displayParts parts).toList :=
  String.toList_append

theorem toList_displayParts_singleton (part : Selector) :
    (displayParts [part]).toList = part.display.toList := by
  rw [toList_displayParts_cons, show (displayParts []).toList = [] from rfl, List.append_nil]

theorem toList_displayOptions_cons (option next : Selector) (options : List Selector) :
    (displayOptions (option :: next :: options)).toList =
      option.display.toList ++ ',' :: ' ' :: (displayOptions (next :: options)).toList := by
  change (option.display ++ ", " ++ displayOptions (next :: options)).toList = _
  simp

theorem display_eq_cons {part : Selector} (hpart : IsForm .part part) :
    ∃ cs, part.display.toList = part.opener :: cs := by
  cases hpart with
  | wildcard => exact ⟨[], rfl⟩
  | scope => exact ⟨"scope".toList, rfl⟩
  | @kind wanted hword =>
      obtain ⟨c, cs, hname, -⟩ := hword.2
      refine ⟨cs, ?_⟩
      change wanted.name.toList = wanted.name.toList.headD '_' :: cs
      rw [hname, List.headD_cons]
  | field hpath => exact ⟨_, toList_display_field _⟩
  | attr htest => exact ⟨_, toList_display_attr _⟩
  | not => exact ⟨_, toList_display_not _⟩
  | any => exact ⟨_, toList_display_any _⟩
  | has => exact ⟨_, toList_display_has _⟩
  | nthChild => exact ⟨_, toList_display_nthChild _⟩
  | nthLastChild => exact ⟨_, toList_display_nthLastChild _⟩

theorem display_length_pos {part : Selector} (hpart : IsForm .part part) :
    0 < part.display.toList.length := by
  obtain ⟨cs, htext⟩ := display_eq_cons hpart
  rw [htext]
  exact Nat.succ_pos _

theorem isOpener_opener (part : Selector) : IsOpener part.opener := by
  cases part with
  | kind wanted =>
      obtain ⟨c, cs, hname, hupper⟩ := exists_name_eq_cons wanted
      have hopener : (kind wanted).opener = c := by simp [opener, hname]
      exact hopener ▸ (isOpener_of_isUpper hupper).1
  | _ => simp only [opener]; decide

theorem exists_display_eq_opener_cons {form : Form} {selector : Selector} (hform : IsForm form selector) :
    ∃ c cs, selector.display.toList = c :: cs ∧ IsOpener c := by
  have hpart : ∀ {part : Selector}, IsForm .part part →
      ∃ c cs, part.display.toList = c :: cs ∧ IsOpener c := by
    intro part hpart
    obtain ⟨cs, htext⟩ := display_eq_cons hpart
    exact ⟨part.opener, cs, htext, isOpener_opener part⟩
  induction hform with
  | single hsingle _ => exact hpart hsingle
  | @compound first second parts hparts _ _ =>
      obtain ⟨c, cs, htext, hc⟩ := hpart (hparts first List.mem_cons_self)
      refine ⟨c, cs ++ (displayParts (second :: parts)).toList, ?_, hc⟩
      change (displayParts (first :: second :: parts)).toList = _
      rw [toList_displayParts_cons, htext, List.cons_append]
  | base _ ih => exact ih
  | @combine combinator left right _ _ ih _ =>
      obtain ⟨c, cs, htext, hc⟩ := ih
      refine ⟨c, cs ++ (combinator.symbol.toList ++ right.display.toList), ?_, hc⟩
      rw [toList_display_combine, htext, List.cons_append]
  | _ => exact hpart (by constructor <;> assumption)

/-! ## Between compounds -/

theorem IsOpener.trimStart_eq {c : Char} (hopener : IsOpener c) (cs : List Char) :
    trimStart (c :: cs) = c :: cs := hopener.1.trimStart_eq cs

theorem IsOpener.combinatorSign?_eq {c : Char} (hopener : IsOpener c) :
    combinatorSign? c = none := by
  have hother := hopener.2
  simp only [List.mem_cons, not_or] at hother
  simp [combinatorSign?, hother]

/-- A sign between spaces, or a space alone, is read up to the next compound. -/
theorem readSteps_combinator {c : Char} (hopener : IsOpener c) (combinator : Combinator)
    (left : Selector) :
    readSteps (fuel + 1) left (combinator.symbol.toList ++ c :: cs) =
      (readCompound fuel [] (c :: cs)).bind fun (right, cs) =>
        readSteps fuel (combine combinator left right) cs := by
  have hsign : ∀ {sign : Char}, IsVisible sign → combinatorSign? sign = some combinator →
      combinator.symbol.toList = [' ', sign, ' '] →
      Joins (combinator.symbol.toList ++ c :: cs) combinator (c :: cs) := by
    intro sign hvisible hsign hsymbol
    have hafter : trimStart (' ' :: c :: cs) = c :: cs := by
      rw [trimStart_space, hopener.trimStart_eq]
    have htrim : trimStart (combinator.symbol.toList ++ c :: cs) = sign :: ' ' :: c :: cs := by
      rw [hsymbol, List.cons_append, trimStart_space]
      exact hvisible.trimStart_eq _
    have hjoins := Joins.sign htrim hsign
    rwa [hafter] at hjoins
  refine readSteps_of_joins ?_ left
  cases combinator with
  | child => exact hsign (by decide) rfl rfl
  | sibling => exact hsign (by decide) rfl rfl
  | adjacent => exact hsign (by decide) rfl rfl
  | descendant =>
      have hother := hopener.2
      simp only [List.mem_cons, not_or] at hother
      refine .blank ?_ hopener.combinatorSign?_eq ?_ (by simp [Combinator.symbol])
      · exact (trimStart_space _).trans (hopener.trimStart_eq cs)
      · exact not_or.mpr ⟨hother.2.2.2.1, hother.2.2.2.2.1⟩

/-- A complex selector that opens with a compound. -/
theorem readComplex_opener {c : Char} (hopener : IsOpener c) (nested : Bool) :
    readComplex (fuel + 1) nested (c :: cs) =
      (readCompound fuel [] (c :: cs)).bind fun (left, cs) => readSteps fuel left cs :=
  readComplex_of_not_sign (fun _ => hopener.combinatorSign?_eq) fuel cs

theorem readSteps_end {selector : Selector} (hcloses : ∀ c ∈ rest.head?, c ∈ [',', ')']) :
    readSteps (fuel + 1) selector rest = .ok (selector, rest) := by
  have hvisible : ∀ c ∈ [',', ')'], IsVisible c := forall_mem_of_all (by decide)
  have htrim : trimStart rest = rest := by
    cases rest with
    | nil => rfl
    | cons c rest => exact (hvisible c (hcloses c rfl)).trimStart_eq rest
  have hread := @readSteps_of_not_joins rest fuel selector
    (by simpa only [htrim, List.mem_cons, List.not_mem_nil, or_false] using hcloses)
  rwa [htrim] at hread

/-! ## Pseudo-classes -/

theorem expect_self (c : Char) (cs : List Char) : expect c (c :: cs) = .ok cs := by
  rw [expect, if_pos rfl]

theorem readPosition_written {position : Nat} (hlt : position < 2 ^ 64) :
    readPosition ('(' :: (Nat.toDigits 10 position ++ ')' :: rest)) = .ok (position, rest) := by
  have hdigits : ∀ c ∈ Nat.toDigits 10 position, c.isDigit = true :=
    fun _ hc => Number.isDigit_of_mem_toDigits hc
  have hspan : Number.spanDigits (Nat.toDigits 10 position ++ ')' :: rest) =
      (Nat.toDigits 10 position, ')' :: rest) := by
    apply Number.spanDigits_append hdigits
    rintro c hc
    obtain rfl := Option.some.inj hc
    rfl
  have htrim : trimStart (Nat.toDigits 10 position ++ ')' :: rest) =
      Nat.toDigits 10 position ++ ')' :: rest := by
    obtain ⟨c, cs, heq⟩ := List.exists_cons_of_ne_nil (Nat.toDigits_ne_nil (n := position) (b := 10))
    have hc : c.isDigit = true := hdigits c (heq ▸ List.mem_cons_self)
    rw [heq, List.cons_append,
      (isVisible_of_isNumberChar (.inl hc)).1.trimStart_eq]
  have hsmall : ((Nat.toDigits 10 position).isEmpty || decide (Nat.pow 2 64 ≤ position)) = false := by
    simpa [Nat.toDigits_ne_nil] using hlt
  have hparen : IsVisible ')' := by decide
  rw [readPosition, expect_self]
  simp only [htrim, hspan, Number.digitsValue_toDigits, hsmall, Bool.false_eq_true, if_false,
    hparen.trimStart_eq, expect_self, Except.map]

/-- The name of a pseudo-class ends at the first character that is not part of it. -/
theorem pseudoName_eq {name : String} (hname : ∀ c ∈ name.toList, isPseudoChar c = true)
    (hrest : ∀ c ∈ rest.head?, isPseudoChar c = false) :
    String.ofList ((name.toList ++ rest).takeWhile isPseudoChar) = name ∧
      (name.toList ++ rest).dropWhile isPseudoChar = rest := by
  rw [takeWhile_run hname hrest, dropWhile_run hname hrest, String.ofList_toList]
  exact ⟨rfl, rfl⟩

theorem not_isPseudoChar_paren : ∀ c ∈ ('(' :: cs).head?, isPseudoChar c = false := by
  simp [isPseudoChar]

theorem readPseudo_not :
    readPseudo (fuel + 1) ("not".toList ++ '(' :: cs) =
      (readOptions fuel ('(' :: cs)).map fun (options, cs) => (not options, cs) := by
  obtain ⟨hname, hrest⟩ := @pseudoName_eq _ "not" (forall_mem_of_all (by decide)) (@not_isPseudoChar_paren cs)
  rw [readPseudo, hname, hrest]
  rfl

theorem readPseudo_matches :
    readPseudo (fuel + 1) ("matches".toList ++ '(' :: cs) =
      (readOptions fuel ('(' :: cs)).map fun (options, cs) => (any options, cs) := by
  obtain ⟨hname, hrest⟩ := @pseudoName_eq _ "matches" (forall_mem_of_all (by decide)) (@not_isPseudoChar_paren cs)
  rw [readPseudo, hname, hrest]
  rfl

theorem readPseudo_has :
    readPseudo (fuel + 1) ("has".toList ++ '(' :: cs) =
      (readOptions fuel ('(' :: cs)).map fun (options, cs) => (has options, cs) := by
  obtain ⟨hname, hrest⟩ := @pseudoName_eq _ "has" (forall_mem_of_all (by decide)) (@not_isPseudoChar_paren cs)
  rw [readPseudo, hname, hrest]
  rfl

theorem readPseudo_nthChild {position : Nat} (hlt : position < 2 ^ 64) :
    readPseudo (fuel + 1)
        ("nth-child".toList ++ '(' :: (Nat.toDigits 10 position ++ ')' :: rest)) =
      .ok (nthChild position, rest) := by
  obtain ⟨hname, hrest⟩ := @pseudoName_eq _ "nth-child" (forall_mem_of_all (by decide)) (@not_isPseudoChar_paren _)
  rw [readPseudo, hname, hrest]
  simp only [readPosition_written hlt, Except.map]

theorem readPseudo_nthLastChild {position : Nat} (hlt : position < 2 ^ 64) :
    readPseudo (fuel + 1)
        ("nth-last-child".toList ++ '(' :: (Nat.toDigits 10 position ++ ')' :: rest)) =
      .ok (nthLastChild position, rest) := by
  obtain ⟨hname, hrest⟩ :=
    @pseudoName_eq _ "nth-last-child" (forall_mem_of_all (by decide)) (@not_isPseudoChar_paren _)
  rw [readPseudo, hname, hrest]
  simp only [readPosition_written hlt, Except.map]

theorem readPseudo_scope (hrest : ∀ c ∈ rest.head?, isPseudoChar c = false) :
    readPseudo (fuel + 1) ("scope".toList ++ rest) = .ok (scope, rest) := by
  obtain ⟨hname, hrest⟩ := @pseudoName_eq _ "scope" (forall_mem_of_all (by decide)) hrest
  rw [readPseudo, hname, hrest]
  rfl

end Selector

end ReactiveLint
