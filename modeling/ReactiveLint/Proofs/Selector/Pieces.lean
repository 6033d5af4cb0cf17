import ReactiveLint.Proofs.Selector.Grammar

/-!
# Written attribute tests

The text of an attribute test is read back as the test, unless its literal holds a
backslash: a backslash is written as it is, and read as a mark of the character behind it.
-/

namespace ReactiveLint

namespace Selector

open Text

variable {cs rest : List Char}

/-- The characters between the marks of an escaped text. -/
def escaped (mark : Char) (cs : List Char) : List Char :=
  cs.flatMap fun c => if c = mark then ['\\', c] else [c]

theorem toList_escapeChar (mark : Char) (text : String) :
    (escapeChar mark text).toList = escaped mark text.toList := String.toList_ofList

theorem escaped_cons_mark (mark : Char) (cs : List Char) :
    escaped mark (mark :: cs) = '\\' :: mark :: escaped mark cs := by
  simp [escaped]

theorem escaped_cons_of_ne {mark c : Char} (hne : c ≠ mark) (cs : List Char) :
    escaped mark (c :: cs) = c :: escaped mark cs := by
  simp [escaped, hne]

/-! ## Quoted literals -/

theorem readQuoted_escaped (quote c : Char) (read cs : List Char) :
    readQuoted quote read ('\\' :: c :: cs) = readQuoted quote (c :: read) cs := by
  rw [readQuoted]

theorem readQuoted_plain {quote c : Char} (hplain : c ≠ '\\') (read cs : List Char) :
    readQuoted quote read (c :: cs) =
      if c = quote then .ok (String.ofList read.reverse, cs)
      else readQuoted quote (c :: read) cs := by
  rw [readQuoted] <;> simp [hplain]

/-- A character other than a backslash is read as itself, a quote included. -/
theorem readQuoted_cons {c : Char} (hplain : c ≠ '\\') (read text : List Char) :
    readQuoted '\'' read (escaped '\'' (c :: text) ++ rest) =
      readQuoted '\'' (c :: read) (escaped '\'' text ++ rest) := by
  by_cases hquote : c = '\''
  · rw [hquote, escaped_cons_mark, List.cons_append, List.cons_append, readQuoted_escaped]
  · rw [escaped_cons_of_ne hquote, List.cons_append, readQuoted_plain hplain, if_neg hquote]

theorem readQuoted_close (read : List Char) :
    readQuoted '\'' read ('\'' :: rest) = .ok (String.ofList read.reverse, rest) := by
  rw [readQuoted_plain (by decide), if_pos rfl]

theorem readQuoted_written {text : List Char} (hplain : '\\' ∉ text) (read : List Char) :
    readQuoted '\'' read (escaped '\'' text ++ '\'' :: rest) =
      .ok (String.ofList (read.reverse ++ text), rest) := by
  induction text generalizing read with
  | nil =>
      rw [List.append_nil]
      exact readQuoted_close read
  | cons c text ih =>
      rw [List.mem_cons, not_or] at hplain
      rw [readQuoted_cons (Ne.symm hplain.1), ih hplain.2, List.reverse_cons, List.append_assoc,
        List.singleton_append]

/-- What has been read of a literal stays the beginning of it. -/
theorem isPrefix_of_readQuoted {quote : Char} {read : List Char} {text : String}
    (hread : readQuoted quote read cs = .ok (text, rest)) : read.reverse <+: text.toList := by
  induction read, cs using readQuoted.induct quote with
  | case1 | case3 => simp [readQuoted] at hread
  | case2 read c cs ih =>
      rw [readQuoted_escaped] at hread
      exact (by simp : read.reverse <+: (c :: read).reverse).trans (ih hread)
  | case4 read cs hsingle hlast =>
      rw [readQuoted_plain (ne_backslash hsingle hlast), if_pos rfl] at hread
      cases hread
      rw [String.toList_ofList]
  | case5 read c cs hsingle hlast hquote ih =>
      rw [readQuoted_plain (ne_backslash hsingle hlast), if_neg hquote] at hread
      exact (by simp : read.reverse <+: (c :: read).reverse).trans (ih hread)

theorem ne_of_readQuoted {quote c wanted : Char} {read text : List Char} {found : String}
    (hne : c ≠ wanted) (hread : readQuoted quote (c :: read) cs = .ok (found, rest)) :
    found.toList ≠ read.reverse ++ wanted :: text := by
  intro hfound
  obtain ⟨more, hmore⟩ := isPrefix_of_readQuoted hread
  rw [← hmore, List.reverse_cons, List.append_assoc] at hfound
  exact hne (List.cons.inj (List.append_cancel_left hfound)).1

theorem replicate_append_cons {A : Type} (n : Nat) (a : A) (as : List A) :
    List.replicate n a ++ a :: as = a :: (List.replicate n a ++ as) := by
  rw [List.append_cons, ← List.replicate_succ', List.replicate_succ, List.cons_append]

theorem readQuoted_owing_cons {c : Char} {text : List Char} {found : String} {owed : Nat}
    (read : List Char) (hplain : c ≠ '\\') (howed : owed ≠ 0)
    (hread : readQuoted '\'' read (escaped '\'' (c :: text) ++ '\'' :: rest) = .ok (found, cs)) :
    found.toList ≠ read.reverse ++ (List.replicate owed '\\' ++ c :: text) := by
  rw [readQuoted_cons hplain] at hread
  obtain ⟨less, rfl⟩ := Nat.exists_eq_succ_of_ne_zero howed
  exact ne_of_readQuoted hplain hread

/-- The reader never makes up for backslashes that it owes.  Of a backslash in front of
another one it reads one for both, and thus owes one more; in front of anything else it
reads none, where the literal has one. -/
theorem readQuoted_owing {text : List Char} {found : String} (read : List Char) (owed : Nat)
    (hbad : owed ≠ 0 ∨ '\\' ∈ text)
    (hread : readQuoted '\'' read (escaped '\'' text ++ '\'' :: rest) = .ok (found, cs)) :
    found.toList ≠ read.reverse ++ (List.replicate owed '\\' ++ text) := by
  induction text using List.twoStepInduction generalizing read owed with
  | nil =>
      have howed : owed ≠ 0 := by simpa using hbad
      rw [show escaped '\'' [] ++ '\'' :: rest = '\'' :: rest from rfl, readQuoted_close] at hread
      cases hread
      simpa using howed
  | singleton c =>
      by_cases hc : c = '\\'
      · subst hc
        rw [replicate_append_cons]
        exact ne_of_readQuoted (c := '\'') (by decide) (by rwa [← readQuoted_escaped])
      · exact readQuoted_owing_cons read hc (by simpa [Ne.symm hc] using hbad) hread
  | cons_cons c next text ih ihnext =>
      -- a backslash is read together with the next written character, which is the mark of a
      -- quote where a quote follows
      by_cases hc : c = '\\'
      · subst hc
        rw [escaped_cons_of_ne (by decide), List.cons_append] at hread
        rw [replicate_append_cons]
        by_cases hquote : next = '\''
        · subst hquote
          rw [escaped_cons_mark, List.cons_append, List.cons_append, readQuoted_escaped,
            readQuoted_close] at hread
          cases hread
          intro hfound
          have hlength := congrArg List.length hfound
          simp at hlength
        · rw [escaped_cons_of_ne hquote, List.cons_append, readQuoted_escaped] at hread
          by_cases hnext : next = '\\'
          · subst hnext
            have hmore := ih _ (owed + 1) (.inl (Nat.succ_ne_zero owed)) hread
            rw [replicate_append_cons, ← List.cons_append, ← List.replicate_succ]
            rwa [List.reverse_cons, List.append_assoc, List.singleton_append] at hmore
          · exact ne_of_readQuoted hnext hread
      · by_cases howed : owed = 0
        · subst howed
          rw [readQuoted_cons hc] at hread
          have hmem : '\\' ∈ next :: text := by simpa [Ne.symm hc] using hbad
          have hmore := ihnext next _ 0 (.inr hmem) hread
          rwa [List.reverse_cons, List.append_assoc, List.singleton_append] at hmore
        · exact readQuoted_owing_cons read hc howed hread

/-- A literal with a backslash is not read back. -/
theorem ne_of_backslash {text found : String} (hbad : '\\' ∈ text.toList)
    (hread : readQuoted '\'' [] (escaped '\'' text.toList ++ '\'' :: rest) = .ok (found, cs)) :
    found ≠ text := by
  rintro rfl
  exact readQuoted_owing [] 0 (.inr hbad) hread rfl

/-! ## Patterns -/

theorem readPatternBody_written {text : List Char} (htext : IsPatternText text)
    (read : List Char) :
    readPatternBody read (escaped '/' text ++ '/' :: rest) =
      .ok (String.ofList (read.reverse ++ text), rest) := by
  induction htext generalizing read with
  | nil =>
      rw [List.append_nil, show escaped '/' [] ++ '/' :: rest = '/' :: rest from rfl,
        readPatternBody_plain (by decide), if_pos rfl]
  | @plain c text hplain _ ih =>
      have hmore := ih (c :: read)
      rw [List.reverse_cons, List.append_assoc, List.singleton_append] at hmore
      by_cases hslash : c = '/'
      · subst hslash
        rw [escaped_cons_mark, List.cons_append, List.cons_append, readPatternBody, hmore]
      · rw [escaped_cons_of_ne hslash, List.cons_append, readPatternBody_plain hplain,
          if_neg hslash, hmore]
  | @escaped c text hslash _ ih =>
      have hmore := ih (c :: '\\' :: read)
      rw [escaped_cons_of_ne (by decide), escaped_cons_of_ne hslash, List.cons_append,
        List.cons_append, readPatternBody_escaped hslash, hmore]
      simp

/-- No letter follows the closing slash, so that there are no flags. -/
theorem readPattern_written {source : String} {pattern : Pattern}
    (hpattern : Pattern.parse? source = some pattern) (htext : IsPatternText source.toList) :
    readPattern (escaped '/' source.toList ++ '/' :: ']' :: rest) =
      .ok (.pattern source pattern, ']' :: rest) := by
  rw [readPattern, readPatternBody_written htext]
  simp [inlineFlags, hpattern]

/-! ## Paths -/

theorem joinPath_cons_cons (part next : String) (path : List String) :
    joinPath (part :: next :: path) = part ++ "." ++ joinPath (next :: path) :=
  String.intercalate_cons_cons

theorem splitPath_ne_nil (cs : List Char) : splitPath cs ≠ [] := by
  cases cs with
  | nil => exact List.cons_ne_nil _ _
  | cons c cs =>
      rw [splitPath]
      split
      · exact List.cons_ne_nil _ _
      · split <;> exact List.cons_ne_nil _ _

theorem joinPath_splitPath (cs : List Char) : (joinPath (splitPath cs)).toList = cs := by
  induction cs with
  | nil => rfl
  | cons c cs ih =>
      rw [splitPath]
      obtain ⟨part, path, hpath⟩ := List.exists_cons_of_ne_nil (splitPath_ne_nil cs)
      rw [hpath] at ih ⊢
      split
      next hdot => 
        rw [joinPath_cons_cons]
        simp [ih, hdot]
      next =>
        simp only
        cases path with
        | nil => 
          simpa [joinPath] using ih
        | cons next path =>
          rw [joinPath_cons_cons] at ih ⊢
          simpa using ih

/-- The path of a run of characters is written as that run. -/
theorem IsPath.exists_eq {accepts : Char → Bool} {path : List String}
    (hpath : IsPath accepts path) :
    ∃ c cs, (joinPath path).toList = c :: cs ∧ accepts c = true ∧
      (∀ next ∈ cs, accepts next = true) ∧ splitPath (c :: cs) = path := by
  obtain ⟨cs, hne, haccepts, rfl⟩ := hpath
  obtain ⟨c, cs, rfl⟩ := List.exists_cons_of_ne_nil hne
  rw [List.forall_mem_cons] at haccepts
  exact ⟨c, cs, joinPath_splitPath _, haccepts.1, haccepts.2, rfl⟩

/-! ## Comparisons and values -/

theorem readComparison_symbol (comparison : Comparison) {c : Char} (hnext : c ≠ '=')
    (cs : List Char) :
    readComparison (comparison.symbol.toList ++ c :: cs) = .ok (comparison, c :: cs) := by
  cases comparison <;> simp [Comparison.symbol, readComparison, hnext]

theorem toList_display_literal (text : String) :
    (TestValue.literal text).display.toList = '\'' :: (escaped '\'' text.toList ++ ['\'']) := by
  simp [TestValue.display, toList_escapeChar]

theorem toList_display_pattern (source : String) (pattern : Pattern) :
    (TestValue.pattern source pattern).display.toList =
      '/' :: (escaped '/' source.toList ++ ['/']) := by
  simp [TestValue.display, toList_escapeChar]

/-- The characters of a number belong to one word, which opens neither a literal nor a
pattern. -/
theorem isVisible_of_isNumberChar {c : Char} (hc : Number.IsNumberChar c) :
    IsVisible c ∧ c ∉ ['=', ']', '\'', '"', '/'] := by
  rcases hc with hdigit | hmem
  · constructor
    · simp only [Char.isDigit, Bool.and_eq_true, decide_eq_true_eq, UInt32.le_iff_toNat_le]
        at hdigit
      exact ⟨le_trans (by decide) hdigit.1, le_trans hdigit.2 (by decide)⟩
    · have hother : ∀ other ∈ ['=', ']', '\'', '"', '/'], other.isDigit = false :=
        forall_mem_of_all (by decide)
      exact fun hmem => Number.ne_of_isDigit hdigit (hother c hmem) rfl
  · have hall : ∀ c ∈ ".-infNa".toList,
        (33 ≤ c.toNat ∧ c.toNat ≤ 126) ∧ c ∉ ['=', ']', '\'', '"', '/'] :=
      forall_mem_of_all (by decide)
    exact hall c hmem

theorem isWordChar_of_isVisible {c : Char} (hvisible : IsVisible c) (hne : c ≠ ']') :
    isWordChar c = true := by
  simp [isWordChar, hvisible.isBlank_eq_false, hne]

/-- A written value opens with a mark that belongs neither to a sign nor to a blank. -/
theorem exists_display_eq_cons (value : TestValue) :
    ∃ c cs, value.display.toList = c :: cs ∧ IsVisible c ∧ c ≠ '=' := by
  cases value with
  | literal text => exact ⟨'\'', _, toList_display_literal text, by decide, by decide⟩
  | number x =>
      obtain ⟨c, cs, htext⟩ := List.exists_cons_of_ne_nil (Number.toText_ne_nil x)
      have hchar : Number.IsNumberChar c :=
        Number.isNumberChar_of_mem_toText (htext ▸ List.mem_cons_self)
      obtain ⟨hvisible, hother⟩ := isVisible_of_isNumberChar hchar
      exact ⟨c, cs, htext, hvisible, fun hc => hother (hc ▸ List.mem_cons_self)⟩
  | pattern source pattern =>
      exact ⟨'/', _, toList_display_pattern source pattern, by decide, by decide⟩

theorem readTestValue_number {comparison : Comparison} {x : Number} (hreadable : x.IsReadable) :
    readTestValue comparison (x.toText.toList ++ ']' :: rest) = .ok (.number x, ']' :: rest) := by
  have hchars : ∀ c ∈ x.toText.toList, isWordChar c = true := by
    intro c hc
    obtain ⟨hvisible, hother⟩ := isVisible_of_isNumberChar (Number.isNumberChar_of_mem_toText hc)
    exact isWordChar_of_isVisible hvisible fun hbracket => hother (by simp [hbracket])
  have hstop : ∀ c ∈ (']' :: rest).head?, isWordChar c = false := by
    rintro c hc
    obtain rfl := Option.some.inj hc
    simp [isWordChar]
  have htake := takeWhile_run hchars hstop
  have hdrop := dropWhile_run hchars hstop
  obtain ⟨c, cs, htext⟩ := List.exists_cons_of_ne_nil (Number.toText_ne_nil x)
  have hother := (isVisible_of_isNumberChar
    (Number.isNumberChar_of_mem_toText (htext ▸ List.mem_cons_self : c ∈ _))).2
  rw [htext, List.cons_append] at htake hdrop ⊢
  have hempty : x.toText.isEmpty = false := by
    rw [Bool.eq_false_iff, ne_eq, String.isEmpty_iff, ← String.toList_eq_nil_iff]
    exact Number.toText_ne_nil x
  have hne : ∀ opener ∈ ['\'', '"', '/'], c ≠ opener := by
    rintro opener hopener rfl
    exact hother (List.mem_cons_of_mem _ (List.mem_cons_of_mem _ hopener))
  rw [readTestValue]
  · simp only [htake, hdrop, ← htext, String.ofList_toList, Number.ofText?_toText hreadable,
      hempty, Bool.false_eq_true, if_false]
  · exact List.cons_ne_nil _ _
  · exact fun _ heq => hne '\'' (by simp) (List.cons.inj heq).1
  · exact fun _ heq => hne '"' (by simp) (List.cons.inj heq).1
  · exact fun _ heq => hne '/' (by simp) (List.cons.inj heq).1

theorem readTestValue_literal (comparison : Comparison) (text : String) (cs : List Char) :
    readTestValue comparison ((TestValue.literal text).display.toList ++ cs) =
      (readQuoted '\'' [] (escaped '\'' text.toList ++ '\'' :: cs)).map
        fun (text, cs) => (.literal text, cs) := by
  rw [toList_display_literal, List.cons_append, readTestValue, List.append_assoc,
    List.singleton_append]

theorem readTestValue_written {comparison : Comparison} {value : TestValue}
    (hvalue : IsValue comparison value)
    (hplain : ∀ text, value = .literal text → '\\' ∉ text.toList) :
    readTestValue comparison (value.display.toList ++ ']' :: rest) = .ok (value, ']' :: rest) := by
  cases value with
  | literal text =>
      rw [readTestValue_literal, readQuoted_written (hplain text rfl)]
      simp [Except.map]
  | number x => exact readTestValue_number hvalue
  | pattern source pattern =>
      obtain ⟨hcomparison, hpattern, htext⟩ := hvalue
      rw [toList_display_pattern, List.cons_append, List.append_assoc, List.singleton_append,
        readTestValue, if_pos hcomparison, readPattern_written hpattern htext]

/-! ## Attribute tests -/

end Selector

/-- The literal that an attribute is compared with. -/
def AttributeTest.literal? (test : AttributeTest) : Option String :=
  match test.test with
  | some (_, .literal text) => some text
  | _ => none

/-- The text of a test between its brackets. -/
def AttributeTest.body (test : AttributeTest) : List Char :=
  (joinPath test.path).toList ++
    match test.test with
    | some (comparison, value) => comparison.symbol.toList ++ value.display.toList
    | none => []

theorem AttributeTest.toList_display (test : AttributeTest) :
    test.display.toList = '[' :: (test.body ++ [']']) := by
  obtain ⟨path, _ | ⟨comparison, value⟩⟩ := test <;>
    simp [AttributeTest.display, AttributeTest.body]

namespace Selector

open Text

variable {cs rest : List Char} {test : AttributeTest}

theorem exists_symbol_eq_cons (comparison : Comparison) :
    ∃ c cs, comparison.symbol.toList = c :: cs ∧ IsVisible c ∧ isAttributeChar c = false ∧
      c ≠ ']' := by
  have hsign : ∀ c ∈ ['=', '!', '<', '>'],
      IsVisible c ∧ isAttributeChar c = false ∧ c ≠ ']' := forall_mem_of_all (by decide)
  have hopener : ∃ c cs, comparison.symbol.toList = c :: cs ∧ c ∈ ['=', '!', '<', '>'] := by
    cases comparison with
    | eq => exact ⟨'=', [], rfl, by simp⟩
    | ne => exact ⟨'!', ['='], rfl, by simp⟩
    | lt => exact ⟨'<', [], rfl, by simp⟩
    | le => exact ⟨'<', ['='], rfl, by simp⟩
    | gt => exact ⟨'>', [], rfl, by simp⟩
    | ge => exact ⟨'>', ['='], rfl, by simp⟩
  obtain ⟨c, cs, htext, hc⟩ := hopener
  exact ⟨c, cs, htext, hsign c hc⟩

/-- A written path is read up to a character that is not part of it. -/
theorem readAttribute_path {path : List String} {c : Char}
    (hpath : IsPath isAttributeChar path) (hvisible : IsVisible c)
    (hstop : isAttributeChar c = false) :
    let text := (joinPath path).toList ++ c :: cs
    trimStart text = text ∧ (text.takeWhile isAttributeChar).isEmpty = false ∧
      splitPath (text.takeWhile isAttributeChar) = path ∧
      trimStart (text.dropWhile isAttributeChar) = c :: cs := by
  obtain ⟨first, name, htext, hfirst, hname, rfl⟩ := hpath.exists_eq
  have hrun : ∀ next ∈ first :: name, isAttributeChar next = true :=
    List.forall_mem_cons.mpr ⟨hfirst, hname⟩
  have hstop' : ∀ next ∈ (c :: cs).head?, isAttributeChar next = false := by
    simpa using hstop
  have hblank : isBlank first = false := by
    simp only [isAttributeChar, Bool.and_eq_true, Bool.not_eq_true'] at hfirst
    exact hfirst.1
  intro text
  have hshown : text = (first :: name) ++ c :: cs := by rw [← htext]
  rw [hshown, takeWhile_run hrun hstop', dropWhile_run hrun hstop']
  exact ⟨trimStart_cons hblank _, rfl, rfl, hvisible.trimStart_eq cs⟩

theorem readAttribute_present (hpath : IsPath isAttributeChar test.path)
    (htest : test.test = none) : readAttribute (test.body ++ ']' :: rest) = .ok (test, rest) := by
  obtain ⟨path, found⟩ := test
  obtain rfl : found = none := htest
  obtain ⟨htrim, hempty, hsplit, hafter⟩ :=
    @readAttribute_path rest path ']' hpath (by decide) (by simp [isAttributeChar])
  rw [AttributeTest.body, List.append_nil, readAttribute]
  simp only [htrim, hempty, hsplit, hafter, Bool.false_eq_true, if_false]

/-- A comparison is read up to its value. -/
theorem readAttribute_comparison {comparison : Comparison} {value : TestValue}
    (hpath : IsPath isAttributeChar test.path) (htest : test.test = some (comparison, value)) :
    readAttribute (test.body ++ ']' :: rest) =
      (readTestValue comparison (value.display.toList ++ ']' :: rest)).bind fun (value, cs) =>
        (expect ']' (trimStart cs)).map fun cs => (⟨test.path, some (comparison, value)⟩, cs) := by
  obtain ⟨c, symbol, hsymbol, hvisible, hstop, hbracket⟩ := exists_symbol_eq_cons comparison
  obtain ⟨first, text, hvalue, hfirst, hequals⟩ := exists_display_eq_cons value
  have hcomparison := readComparison_symbol comparison hequals (text ++ ']' :: rest)
  rw [hsymbol, List.cons_append] at hcomparison
  obtain ⟨htrim, hempty, hsplit, hafter⟩ :=
    @readAttribute_path (symbol ++ first :: (text ++ ']' :: rest)) _ _ hpath hvisible hstop
  simp only [AttributeTest.body, htest, List.append_assoc, hsymbol, hvalue, List.cons_append]
  rw [readAttribute]
  simp only [htrim, hempty, hsplit, hafter, Bool.false_eq_true, if_false]
  split
  next heq => exact absurd (List.cons.inj heq).1 hbracket
  next =>
    simp only [hcomparison, hfirst.trimStart_eq]
    cases readTestValue comparison (first :: (text ++ ']' :: rest)) <;> rfl

theorem readAttribute_written (htest : IsTest test)
    (hplain : ∀ text ∈ test.literal?, '\\' ∉ text.toList) :
    readAttribute (test.body ++ ']' :: rest) = .ok (test, rest) := by
  cases hcase : test.test with
  | none => exact readAttribute_present htest.path hcase
  | some pair =>
      obtain ⟨comparison, value⟩ := pair
      have hliteral : ∀ text, value = .literal text → '\\' ∉ text.toList := by
        rintro text rfl
        exact hplain text (by simp [AttributeTest.literal?, hcase])
      have hvalue := @readTestValue_written rest _ _ (htest.value comparison value hcase) hliteral
      rw [readAttribute_comparison htest.path hcase, hvalue]
      have hbracket : IsVisible ']' := by decide
      simp only [Except.bind, hbracket.trimStart_eq, expect, if_true, Except.map, ← hcase]

/-- A test whose literal holds a backslash is not read back. -/
theorem ne_of_readAttribute {found : AttributeTest} {text : String}
    (hpath : IsPath isAttributeChar test.path) (hliteral : test.literal? = some text)
    (hbad : '\\' ∈ text.toList)
    (hread : readAttribute (test.body ++ ']' :: rest) = .ok (found, cs)) : found ≠ test := by
  obtain ⟨comparison, htest⟩ : ∃ comparison, test.test = some (comparison, .literal text) := by
    rw [AttributeTest.literal?] at hliteral
    split at hliteral
    next comparison _ htest => exact ⟨comparison, by rwa [← Option.some.inj hliteral]⟩
    next => cases hliteral
  rw [readAttribute_comparison hpath htest, readTestValue_literal] at hread
  obtain ⟨value, hvalue, hread⟩ := bind_eq_ok_iff.mp hread
  obtain ⟨⟨other, _⟩, hquoted, heq⟩ := map_eq_ok_iff.mp hvalue
  cases heq
  obtain ⟨_, -, heq⟩ := map_eq_ok_iff.mp hread
  cases heq
  rintro hsame
  rw [← hsame] at htest
  cases htest
  exact ne_of_backslash hbad hquoted rfl

end Selector

end ReactiveLint
