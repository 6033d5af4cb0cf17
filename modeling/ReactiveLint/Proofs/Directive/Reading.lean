import Mathlib.Data.List.Infix
import ReactiveLint.Directive.Reader
import ReactiveLint.Proofs.Directive.Lookup

/-!
# Reading disable comments

What the readers of a comment take off a text, and what the scan for comments does with
texts that hold none.
-/

namespace ReactiveLint.Directive

variable {opening cs rest body before here text : List Char} {scope : DirectiveScope}
  {fuel line : Nat}

/-! ## The parts of a comment -/

theorem after?_eq_some_iff : after? opening cs = some rest ↔ cs = opening ++ rest := by
  rw [after?]
  split
  next hprefix =>
    obtain ⟨tail, rfl⟩ := List.isPrefixOf_iff_prefix.mp hprefix
    rw [List.drop_left, Option.some_inj, List.append_right_inj]
  next hprefix =>
    refine iff_of_false (by simp) ?_
    rintro rfl
    exact hprefix (List.isPrefixOf_iff_prefix.mpr (List.prefix_append _ _))

theorem readHere?_eq_some_iff :
    readHere? cs = some (scope, body, rest) ↔
      ∃ opened words tail, readOpening? cs = some opened ∧
        after? "rxlint-".toList opened = some words ∧
        readKeyword? words = some (scope, tail) ∧ readBody tail = (body, rest) := by
  simp only [readHere?, Option.bind_eq_bind, Option.bind_eq_some_iff, Option.pure_def,
    Option.some_inj, Prod.exists, Prod.mk.injEq]
  constructor
  · rintro ⟨opened, hopened, words, hwords, scope, tail, htail, rfl, hbody⟩
    exact ⟨opened, words, tail, hopened, hwords, htail, hbody⟩
  · rintro ⟨opened, words, tail, hopened, hwords, htail, hbody⟩
    exact ⟨opened, hopened, words, hwords, scope, tail, htail, rfl, hbody⟩

/-- The second characters of openings, with the blanks that each lets follow. -/
def openings : List (Char × (Char → Bool)) :=
  [('/', fun c => c == ' ' || c == '\t'), ('*', Text.isBlank)]

theorem readOpening?_eq_some_iff :
    readOpening? cs = some rest ↔
      ∃ entry ∈ openings, ∃ tail, cs = '/' :: entry.1 :: tail ∧ rest = tail.dropWhile entry.2 := by
  constructor
  · intro hopened
    unfold readOpening? at hopened
    split at hopened
    next tail =>
      exact ⟨_, List.mem_cons_self, tail, rfl, (Option.some.inj hopened).symm⟩
    next tail =>
      exact ⟨_, List.mem_cons_of_mem _ List.mem_cons_self, tail, rfl,
        (Option.some.inj hopened).symm⟩
    next => cases hopened
  · rintro ⟨entry, hentry, tail, rfl, rfl⟩
    rw [openings, List.mem_cons, List.mem_singleton] at hentry
    rcases hentry with rfl | rfl <;> rfl

theorem readKeyword?_eq_some (hkeyword : readKeyword? cs = some (scope, rest)) :
    ∃ keyword, (keyword, scope) ∈ keywords ∧ cs = keyword.toList ++ rest := by
  obtain ⟨⟨keyword, found⟩, hmem, hfound⟩ := List.exists_of_findSome?_eq_some hkeyword
  simp only at hfound
  split at hfound
  next tail htail =>
    simp only [Option.ite_none_left_eq_some, Option.some_inj, Prod.mk.injEq] at hfound
    obtain ⟨-, rfl, rfl⟩ := hfound
    exact ⟨keyword, hmem, after?_eq_some_iff.mp htail⟩
  next => cases hfound

theorem readBody_passes (cs : List Char) : (readBody cs).2 <:+ cs := by
  induction cs using readBody.induct with
  | case1 => exact List.suffix_refl _
  | case2 cs => exact List.suffix_cons _ _
  | case3 cs => exact (List.suffix_cons _ _).trans (List.suffix_cons _ _)
  | case4 c cs hfeed hclose body rest hrest ih =>
      rw [readBody, hrest]
      · rw [hrest] at ih
        exact ih.trans (List.suffix_cons _ _)
      · exact hfeed
      · exact hclose

/-- A comment takes something off the text. -/
theorem readHere?_passes (hhere : readHere? cs = some (scope, body, rest)) :
    ∃ passed, passed ≠ [] ∧ cs = passed ++ rest := by
  obtain ⟨opened, words, tail, hopened, hwords, htail, hbody⟩ := readHere?_eq_some_iff.mp hhere
  obtain ⟨entry, -, inner, rfl, hinner⟩ := readOpening?_eq_some_iff.mp hopened
  have hsuffix : rest <:+ inner := by
    have hrest : (readBody tail).2 = rest := congrArg Prod.snd hbody
    have hbody' : rest <:+ tail := hrest ▸ readBody_passes tail
    obtain ⟨keyword, -, rfl⟩ := readKeyword?_eq_some htail
    obtain rfl := after?_eq_some_iff.mp hwords
    exact hbody'.trans ((List.suffix_append ..).trans
      ((List.suffix_append ..).trans (hinner ▸ List.dropWhile_suffix _)))
  obtain ⟨passed, rfl⟩ := hsuffix
  exact ⟨'/' :: entry.1 :: passed, by simp, rfl⟩

/-- The text of a directive runs to the end of its line, unless the comment is closed. -/
theorem readBody_line (htext : '\n' ∉ text) (hopen : ¬ ['*', '/'] <:+: text)
    (hrest : ∀ c ∈ rest.head?, c = '\n') : readBody (text ++ rest) = (text, rest.tail) := by
  induction text with
  | nil =>
      cases rest with
      | nil => rfl
      | cons c rest =>
          obtain rfl := hrest c rfl
          rfl
  | cons c text ih =>
      rw [List.mem_cons, not_or] at htext
      have hopen' : ¬ ['*', '/'] <:+: text := fun hfound =>
        hopen (hfound.trans (List.suffix_cons c text).isInfix)
      rw [List.cons_append, readBody, ih htext.2 hopen']
      · rintro rfl
        exact htext.1 rfl
      · rintro tail rfl htail
        cases text with
        | nil =>
            have hslash := hrest '/' (by rw [← List.nil_append rest, htail]; rfl)
            exact absurd hslash (by decide)
        | cons d text =>
            obtain rfl := (List.cons.inj htail).1
            exact hopen (List.prefix_append ['*', '/'] text).isInfix

/-! ## Slashes

A slash is in no part of a comment but its opening, so a text that holds no comment holds
none before another one either. -/

theorem after?_append_slash (hopening : '/' ∉ opening) :
    after? opening (cs ++ '/' :: rest) = (after? opening cs).map (· ++ '/' :: rest) := by
  refine Option.ext fun tail => ?_
  rw [Option.map_eq_some_iff, after?_eq_some_iff, List.append_eq_append_iff]
  simp only [after?_eq_some_iff]
  constructor
  · rintro (⟨_ | ⟨c, middle⟩, rfl, htail⟩ | ⟨middle, rfl, rfl⟩)
    · exact ⟨[], by simp, htail⟩
    · obtain rfl := (List.cons.inj htail).1
      exact absurd (by simp) hopening
    · exact ⟨middle, rfl, rfl⟩
  · rintro ⟨middle, rfl, rfl⟩
    exact .inr ⟨middle, rfl, rfl⟩

theorem readKeyword?_append_slash (hnone : readKeyword? cs = none) :
    readKeyword? (cs ++ '/' :: rest) = none := by
  rw [readKeyword?, List.findSome?_eq_none_iff] at hnone ⊢
  rintro ⟨keyword, scope⟩ hmem
  have hslash : ∀ entry ∈ keywords, '/' ∉ entry.1.toList := by decide
  have hkeyword := hnone _ hmem
  simp only [after?_append_slash (hslash _ hmem)] at hkeyword ⊢
  cases htail : after? keyword.toList cs with
  | none => rfl
  | some tail =>
      simp only [htail, ite_eq_left_iff, reduceCtorEq, imp_false, Bool.not_eq_true,
        Bool.not_eq_false] at hkeyword
      cases tail with
      | nil => simp at hkeyword
      | cons c tail =>
          have hword : Text.isWordChar c = true := by simpa using hkeyword
          simp [hword]

theorem readOpening?_append_slashes (hne : here ≠ [])
    (hopened : readOpening? (here ++ '/' :: '/' :: rest) = some cs) :
    cs = '/' :: rest ∨
      ∃ inner, readOpening? here = some inner ∧ cs = inner ++ '/' :: '/' :: rest := by
  obtain ⟨entry, hentry, tail, hparts, rfl⟩ := readOpening?_eq_some_iff.mp hopened
  have hslash : ∀ entry ∈ openings, entry.2 '/' = false := by decide
  match here, hne with
  | [c], _ =>
      rw [List.cons_append, List.nil_append, List.cons.injEq, List.cons.injEq] at hparts
      obtain ⟨-, -, rfl⟩ := hparts
      exact .inl (List.dropWhile_cons_of_neg (by simp [hslash entry hentry]))
  | c :: d :: inner, _ =>
      rw [List.cons_append, List.cons_append, List.cons.injEq, List.cons.injEq] at hparts
      obtain ⟨rfl, rfl, rfl⟩ := hparts
      refine .inr ⟨_, readOpening?_eq_some_iff.mpr ⟨entry, hentry, inner, rfl, rfl⟩, ?_⟩
      rw [List.dropWhile_append]
      split
      next hblank =>
        rw [List.isEmpty_iff.mp hblank, List.nil_append,
          List.dropWhile_cons_of_neg (by simp [hslash entry hentry])]
      next => rfl

theorem readHere?_append_slashes (hne : here ≠ []) (hnone : readHere? here = none) :
    readHere? (here ++ '/' :: '/' :: rest) = none := by
  by_contra hsome
  obtain ⟨⟨scope, body, last⟩, hhere⟩ := Option.ne_none_iff_exists'.mp hsome
  obtain ⟨opened, words, tail, hopened, hwords, htail, hbody⟩ := readHere?_eq_some_iff.mp hhere
  rcases readOpening?_append_slashes hne hopened with rfl | ⟨inner, hinner, rfl⟩
  · have hword := after?_eq_some_iff.mp hwords
    exact absurd (List.cons.inj hword).1 (by decide)
  rw [after?_append_slash (by decide), Option.map_eq_some_iff] at hwords
  obtain ⟨words, hwords, rfl⟩ := hwords
  cases hkeyword : readKeyword? words with
  | none =>
      rw [readKeyword?_append_slash hkeyword] at htail
      cases htail
  | some found =>
      have hfound : readHere? here = some (found.1, readBody found.2) :=
        readHere?_eq_some_iff.mpr ⟨inner, words, found.2, hinner, hwords, hkeyword, rfl⟩
      rw [hnone] at hfound
      cases hfound

/-! ## The scan -/

theorem readFrom_of_passes (hhere : readHere? (before ++ rest) = some (scope, body, rest))
    (hne : before ≠ []) (fuel line : Nat) :
    readFrom (fuel + 1) line (before ++ rest) =
      ⟨scope, line, (splitReason body).1, (splitReason body).2⟩ ::
        readFrom fuel (line + newlines before) rest := by
  obtain ⟨c, inner, rfl⟩ := List.exists_cons_of_ne_nil hne
  have hpassed : (c :: (inner ++ rest)).take ((c :: (inner ++ rest)).length - rest.length) =
      c :: inner := by
    rw [← List.cons_append, List.length_append, Nat.add_sub_cancel, List.take_left]
  rw [List.cons_append] at hhere ⊢
  simp only [readFrom, hhere, hpassed]

theorem readFrom_cons_of_none {c : Char} (hnone : readHere? (c :: cs) = none) (fuel line : Nat) :
    readFrom (fuel + 1) line (c :: cs) = readFrom fuel (line + newlines [c]) cs := by
  simp only [readFrom, hnone]
  by_cases hfeed : c = '\n'
  · subst hfeed
    rfl
  · rw [if_neg hfeed, newlines, List.count_singleton, if_neg (by simpa using hfeed), Nat.add_zero]

/-- Characters at which no comment starts are passed. -/
theorem readFrom_append (hnone : ∀ here, here ≠ [] → here <:+ before → readHere? (here ++ cs) = none)
    (fuel line : Nat) :
    readFrom (before.length + fuel) line (before ++ cs) =
      readFrom fuel (line + newlines before) cs := by
  induction before generalizing line with
  | nil => rw [List.length_nil, Nat.zero_add]; rfl
  | cons c before ih =>
      have hrest : ∀ here, here ≠ [] → here <:+ before → readHere? (here ++ cs) = none :=
        fun here hne hsuffix => hnone here hne (hsuffix.trans (List.suffix_cons c before))
      have hline : newlines (c :: before) = newlines [c] + newlines before := by
        rw [newlines, newlines, newlines, ← List.count_append, List.singleton_append]
      have hfirst : readHere? (c :: (before ++ cs)) = none :=
        hnone (c :: before) (by simp) (List.suffix_refl _)
      rw [List.length_cons, Nat.add_right_comm, List.cons_append, readFrom_cons_of_none hfirst,
        ih hrest, hline, Nat.add_assoc]

theorem readFrom_eq_nil_iff (hfuel : cs.length ≤ fuel) :
    readFrom fuel line cs = [] ↔ ∀ here, here <:+ cs → readHere? here = none := by
  induction cs generalizing fuel line with
  | nil =>
      have hnil : readFrom fuel line [] = [] := by cases fuel <;> rfl
      simp only [hnil, List.suffix_nil, forall_eq, true_iff]
      rfl
  | cons c cs ih =>
      obtain ⟨fuel, rfl⟩ : ∃ more, fuel = more + 1 :=
        ⟨fuel - 1, by rw [List.length_cons] at hfuel; omega⟩
      have hsuffixes : ∀ here, here <:+ c :: cs ↔ here = c :: cs ∨ here <:+ cs :=
        fun here => List.suffix_cons_iff
      cases hhere : readHere? (c :: cs) with
      | none =>
          rw [readFrom_cons_of_none hhere, ih (Nat.le_of_succ_le_succ hfuel)]
          simp only [hsuffixes, forall_eq_or_imp, hhere, true_and]
      | some found =>
          obtain ⟨scope, body, rest⟩ := found
          obtain ⟨passed, hne, hparts⟩ := readHere?_passes hhere
          have hhere' := hhere
          rw [hparts] at hhere' ⊢
          rw [readFrom_of_passes hhere' hne]
          refine iff_of_false (by simp) fun hnone => ?_
          rw [← hparts, hnone _ (hparts ▸ List.suffix_refl _)] at hhere'
          cases hhere'

end ReactiveLint.Directive

namespace ReactiveLint.Directives

theorem list_parse (source : String) :
    (parse source).list = Directive.readFrom source.toList.length 1 source.toList :=
  list_ofList _

theorem isDisabled_parse (source rule : String) (line : Nat) :
    (parse source).isDisabled rule line = true ↔
      ∃ directive ∈ (parse source).list,
        directive.covers line = true ∧ directive.names rule = true := by
  rw [list_parse]
  exact isDisabled_ofList _

/-- All tables of a text without directives are empty. -/
theorem parse_eq_of_isEmpty {source : String} (hempty : (parse source).isEmpty = true) :
    parse source = {} := by
  have hnone : Directive.readFrom source.toList.length 1 source.toList = [] := by
    rwa [isEmpty, list_parse, List.isEmpty_iff] at hempty
  rw [parse, hnone]
  rfl

/-- A text without directives is one in which no comment with a directive starts. -/
theorem isEmpty_parse_iff (source : String) :
    (parse source).isEmpty = true ↔
      ∀ here, here <:+ source.toList → Directive.readHere? here = none := by
  rw [isEmpty, List.isEmpty_iff, list_parse, Directive.readFrom_eq_nil_iff (Nat.le_refl _)]

end ReactiveLint.Directives
