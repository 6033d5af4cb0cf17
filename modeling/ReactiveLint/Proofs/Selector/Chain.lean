import ReactiveLint.Proofs.Selector.Longer

/-!
# Chains of compounds

Compounds that are joined by combinators are read as what each of them is read as on its own,
combined from the left.  White space is free around a sign and needed where there is no sign.
-/

namespace ReactiveLint

namespace Selector

open Text

variable {cs rest blanks more : List Char} {fuel : Nat}

/-! ## Compounds on their own -/

/-- A text that is read on its own as one compound, with the selector that it is read as. -/
structure Piece where
  text : String
  selector : Selector
  parse_eq : parse text = .ok selector
  isCompound : ∃ fuel rest,
    readCompound fuel [] (trimStart text.toList) = .ok (selector, rest) ∧
      ∀ c ∈ rest, isBlank c = true

/-- A compound does not begin with what ends one. -/
theorem not_isCloser_of_readCompound {c : Char} {selector : Selector}
    (hread : readCompound fuel [] (c :: cs) = .ok (selector, rest)) : ¬ IsCloser c := by
  intro hcloser
  obtain ⟨hmark, -, hstart, -⟩ := hcloser.not_taken
  cases fuel with
  | zero =>
      rw [readCompound_zero] at hread
      cases hread
  | succ fuel =>
      obtain ⟨-, -, hparts⟩ | ⟨part, after, hpart, -⟩ | ⟨-, after, hcs, -⟩ :=
        readCompound_cases hread
      · cases hparts
      · cases hpart with
        | kind hkind => rw [hstart] at hkind; cases hkind
        | _ => simp at hmark
      · simp [(List.cons.inj hcs).1] at hmark

theorem readCompound_unique {fuel' : Nat} {selector selector' : Selector} {rest' : List Char}
    (hread : readCompound fuel [] cs = .ok (selector, rest))
    (hread' : readCompound fuel' [] cs = .ok (selector', rest')) :
    selector = selector' ∧ rest = rest' := by
  have hends : ∀ rest, Separates rest [] := fun rest => .inr (by simp [Closes])
  have hlonger := (readsLonger fuel).compound (Nat.le_max_left fuel fuel') (hends rest) hread
  have hlonger' := (readsLonger fuel').compound (Nat.le_max_right fuel fuel') (hends rest') hread'
  simpa using hlonger.symm.trans hlonger'

/-- What is parsed begins with a compound. -/
theorem exists_readCompound_of_parse {text : String} {selector : Selector}
    (hparse : parse text = .ok selector) :
    ∃ first rest,
      readCompound (8 * text.toList.length + 6) [] (trimStart text.toList) = .ok (first, rest) := by
  obtain ⟨selectors, rest, hlist⟩ := exists_readList_of_parse hparse
  obtain ⟨last, after, hlast, -⟩ := readList_cases hlist
  obtain ⟨c, cs, htrim⟩ := List.exists_cons_of_ne_nil (ne_nil_of_readComplex hlast)
  rw [htrim] at hlast ⊢
  rw [readComplex_of_not_sign (fun hnested => by cases hnested)] at hlast
  obtain ⟨⟨left, after⟩, hleft, -⟩ := bind_eq_ok_iff.mp hlast
  exact ⟨left, after, hleft⟩

namespace Piece

variable (piece : Piece)

theorem exists_readCompound : ∃ rest,
    readCompound (8 * piece.text.toList.length + 6) [] (trimStart piece.text.toList) =
      .ok (piece.selector, rest) ∧ ∀ c ∈ rest, isBlank c = true := by
  obtain ⟨first, rest, hread⟩ := exists_readCompound_of_parse piece.parse_eq
  obtain ⟨fuel, rest', hread', hblank⟩ := piece.isCompound
  obtain ⟨rfl, rfl⟩ := readCompound_unique hread hread'
  exact ⟨rest, hread, hblank⟩

/-- A piece is read before what closes it, up to blanks of its own. -/
theorem readCompound_append (hcloses : Closes more)
    (hfuel : 8 * piece.text.toList.length + 6 ≤ fuel) :
    ∃ rest, (∀ c ∈ rest, isBlank c = true) ∧
      readCompound fuel [] (trimStart piece.text.toList ++ more) =
        .ok (piece.selector, rest ++ more) := by
  obtain ⟨rest, hread, hblank⟩ := piece.exists_readCompound
  exact ⟨rest, hblank, (readsLonger _).compound hfuel (.inr hcloses) hread⟩

theorem trimStart_ne_nil : trimStart piece.text.toList ≠ [] := by
  obtain ⟨rest, hread, -⟩ := piece.exists_readCompound
  exact ne_nil_of_readCompound hread

theorem length_pos : 0 < piece.text.toList.length := by
  refine List.length_pos_of_ne_nil fun hnil => piece.trimStart_ne_nil ?_
  rw [hnil]
  rfl

theorem exists_trimStart_eq_cons :
    ∃ c cs, trimStart piece.text.toList = c :: cs ∧ ¬ IsCloser c := by
  obtain ⟨rest, hread, -⟩ := piece.exists_readCompound
  obtain ⟨c, cs, htrim⟩ := List.exists_cons_of_ne_nil piece.trimStart_ne_nil
  rw [htrim] at hread
  exact ⟨c, cs, htrim, not_isCloser_of_readCompound hread⟩

end Piece

/-! ## Links -/

/-- The sign of a combinator, if it has one. -/
def signOf : Combinator → List Char
  | .child => ['>']
  | .descendant => []
  | .sibling => ['~']
  | .adjacent => ['+']

/-- A combinator and the compound behind it, with the blanks around the sign. -/
structure Link where
  before : List Char
  combinator : Combinator
  after : List Char
  piece : Piece
  isBlank_before : ∀ c ∈ before, isBlank c = true
  isBlank_after : ∀ c ∈ after, isBlank c = true
  apart : combinator = .descendant → before ++ after ≠ []

namespace Link

def text (link : Link) : List Char :=
  link.before ++ (signOf link.combinator ++ (link.after ++ link.piece.text.toList))

def join (left : Selector) (link : Link) : Selector :=
  combine link.combinator left link.piece.selector

end Link

theorem trimStart_blanks (hblanks : ∀ c ∈ blanks, isBlank c = true) (cs : List Char) :
    trimStart (blanks ++ cs) = trimStart cs := List.dropWhile_append_of_pos hblanks

theorem closes_blanks (hblanks : ∀ c ∈ blanks, isBlank c = true) (hcs : Closes cs) :
    Closes (blanks ++ cs) := by
  cases blanks with
  | nil => exact hcs
  | cons blank blanks =>
      intro c hc
      obtain rfl := Option.some.inj hc
      exact .inl (hblanks _ List.mem_cons_self)

namespace Link

variable (link : Link)

theorem isBlank_gap : ∀ c ∈ link.before ++ link.after, isBlank c = true := by
  intro c hc
  exact (List.mem_append.mp hc).elim (link.isBlank_before c) (link.isBlank_after c)

/-- A combinator is either written by its sign or by blanks alone. -/
theorem text_cases :
    (∃ sign, combinatorSign? sign = some link.combinator ∧ isBlank sign = false ∧
      IsCloser sign ∧
      link.text = link.before ++ sign :: (link.after ++ link.piece.text.toList)) ∨
    (link.combinator = .descendant ∧ link.before ++ link.after ≠ [] ∧
      link.text = (link.before ++ link.after) ++ link.piece.text.toList) := by
  have hsign : ∀ {sign : Char}, sign ∈ ['>', '~', '+'] →
      isBlank sign = false ∧ IsCloser sign := by
    intro sign hmem
    have hall : ∀ sign ∈ ['>', '~', '+'], IsVisible sign ∧ sign ∈ ['>', '~', '+', ',', ')'] :=
      forall_mem_of_all (by decide)
    exact ⟨(hall sign hmem).1.isBlank_eq_false, .inr (hall sign hmem).2⟩
  rw [text]
  cases hcombinator : link.combinator with
  | descendant => exact .inr ⟨rfl, link.apart hcombinator, by simp [signOf]⟩
  | child => exact .inl ⟨'>', rfl, (hsign (by simp)).1, (hsign (by simp)).2, rfl⟩
  | sibling => exact .inl ⟨'~', rfl, (hsign (by simp)).1, (hsign (by simp)).2, rfl⟩
  | adjacent => exact .inl ⟨'+', rfl, (hsign (by simp)).1, (hsign (by simp)).2, rfl⟩

theorem closes (more : List Char) : Closes (link.text ++ more) := by
  obtain ⟨sign, -, -, hcloser, htext⟩ | ⟨-, hne, htext⟩ := link.text_cases
  · rw [htext, List.append_assoc]
    refine closes_blanks link.isBlank_before fun c hc => ?_
    obtain rfl := Option.some.inj hc
    exact hcloser
  · obtain ⟨blank, blanks, hgap⟩ := List.exists_cons_of_ne_nil hne
    rw [htext, hgap]
    intro c hc
    obtain rfl := Option.some.inj hc
    exact .inl (link.isBlank_gap blank (hgap ▸ List.mem_cons_self))

/-- The reader of the steps goes over a link up to its piece. -/
theorem joins (hblanks : ∀ c ∈ blanks, isBlank c = true) (more : List Char) :
    Joins (blanks ++ (link.text ++ more)) link.combinator
      (trimStart link.piece.text.toList ++ more) := by
  have htrim := trimStart_append link.piece.trimStart_ne_nil more
  obtain ⟨sign, hsign, hvisible, -, htext⟩ | ⟨hcombinator, hne, htext⟩ := link.text_cases
  · have hpiece : trimStart (link.after ++ (link.piece.text.toList ++ more)) =
        trimStart link.piece.text.toList ++ more := by
      rw [trimStart_blanks link.isBlank_after, htrim]
    rw [← hpiece]
    refine .sign ?_ hsign
    rw [trimStart_blanks hblanks, htext, List.append_assoc, List.cons_append,
      trimStart_blanks link.isBlank_before, trimStart_cons hvisible, List.append_assoc]
  · obtain ⟨c, cs, hpiece, hopener⟩ := link.piece.exists_trimStart_eq_cons
    have hother : combinatorSign? c = none ∧ ¬ (c = ',' ∨ c = ')') := by
      simp only [IsCloser, List.mem_cons, List.not_mem_nil, or_false, not_or] at hopener
      simp [combinatorSign?, hopener]
    rw [hcombinator, hpiece, List.cons_append]
    refine .blank ?_ hother.1 hother.2 ?_
    · rw [trimStart_blanks hblanks, htext, List.append_assoc, trimStart_blanks link.isBlank_gap,
        htrim, hpiece, List.cons_append]
    · have hle := List.length_dropWhile_le isBlank link.piece.text.toList
      rw [← trimStart, hpiece] at hle
      have hpos := List.length_pos_of_ne_nil hne
      simp only [htext, List.length_append, List.length_cons] at hle hpos ⊢
      omega

end Link

/-! ## Chains -/

/-- Compounds that are joined by combinators, with the blanks around them. -/
structure Chain where
  lead : List Char
  first : Piece
  links : List Link
  trail : List Char
  isBlank_lead : ∀ c ∈ lead, isBlank c = true
  isBlank_trail : ∀ c ∈ trail, isBlank c = true

namespace Chain

def text (chain : Chain) : String :=
  String.ofList (chain.lead ++ (chain.first.text.toList ++
    (chain.links.flatMap Link.text ++ chain.trail)))

/-- The selectors of the pieces, combined from the left. -/
def selector (chain : Chain) : Selector := chain.links.foldl Link.join chain.first.selector

end Chain

theorem closes_links {links : List Link} {trail : List Char}
    (htrail : ∀ c ∈ trail, isBlank c = true) : Closes (links.flatMap Link.text ++ trail) := by
  cases links with
  | nil => exact fun c hc => .inl (htrail c (List.mem_of_mem_head? hc))
  | cons link links =>
      rw [List.flatMap_cons, List.append_assoc]
      exact link.closes _

/-- The reader of the steps takes up one link after the other. -/
theorem readSteps_links {links : List Link} {trail : List Char}
    (htrail : ∀ c ∈ trail, isBlank c = true) (hblanks : ∀ c ∈ blanks, isBlank c = true)
    (hfuel : 8 * (links.flatMap Link.text ++ trail).length + 7 ≤ fuel) (left : Selector) :
    readSteps fuel left (blanks ++ (links.flatMap Link.text ++ trail)) =
      .ok (links.foldl Link.join left, []) := by
  induction links generalizing fuel blanks left with
  | nil =>
      obtain ⟨fuel, rfl⟩ : ∃ less, fuel = less + 1 := ⟨fuel - 1, by omega⟩
      have htrim : trimStart (blanks ++ ([] ++ trail)) = [] := by
        rw [trimStart_blanks hblanks, List.nil_append]
        exact List.dropWhile_eq_nil_iff.mpr htrail
      have hstop := @readSteps_of_not_joins (blanks ++ ([] ++ trail)) fuel left
        (by rw [htrim]; simp)
      rwa [htrim] at hstop
  | cons link links ih =>
      obtain ⟨fuel, rfl⟩ : ∃ less, fuel = less + 1 := ⟨fuel - 1, by omega⟩
      have hpos := link.piece.length_pos
      rw [List.flatMap_cons, List.append_assoc, List.length_append, Link.text] at hfuel
      simp only [List.length_append] at hfuel
      obtain ⟨rest, hrest, hread⟩ := link.piece.readCompound_append
        (@closes_links links _ htrail) (show _ ≤ fuel by omega)
      rw [List.flatMap_cons, List.append_assoc, readSteps_of_joins (link.joins hblanks _), hread]
      exact ih hrest (by simp only [List.length_append]; omega) _

/-- Compounds that are joined by combinators are read as what each of them is read as on its own,
combined from the left. -/
theorem parse_chain (chain : Chain) : parse chain.text = .ok chain.selector := by
  obtain ⟨tail, htail⟩ : ∃ tail, tail = chain.links.flatMap Link.text ++ chain.trail := ⟨_, rfl⟩
  have htext : chain.text.toList = chain.lead ++ (chain.first.text.toList ++ tail) := by
    rw [htail]
    exact String.toList_ofList
  have hlength : chain.first.text.toList.length + tail.length ≤ chain.text.toList.length := by
    simp only [htext, List.length_append]
    omega
  have hpos := chain.first.length_pos
  have hcloses : Closes tail := htail ▸ closes_links chain.isBlank_trail
  have hfirst : 8 * chain.first.text.toList.length + 6 ≤ 8 * chain.text.toList.length + 6 := by
    omega
  obtain ⟨rest, hrest, hread⟩ := chain.first.readCompound_append hcloses hfirst
  have hfuel : 8 * tail.length + 7 ≤ 8 * chain.text.toList.length + 6 := by omega
  rw [htail] at hfuel
  have hsteps := readSteps_links chain.isBlank_trail hrest hfuel chain.first.selector
  rw [← htail] at hsteps
  obtain ⟨c, cs, htrim, -⟩ := chain.first.exists_trimStart_eq_cons
  have hstart : trimStart chain.text.toList = c :: (cs ++ tail) := by
    rw [htext, trimStart_blanks chain.isBlank_lead, trimStart_append chain.first.trimStart_ne_nil,
      htrim, List.cons_append]
  rw [htrim, List.cons_append] at hread
  apply parse_of_readComplex
  rw [hstart, readComplex.eq_def]
  simp only [Bool.false_eq_true, if_false, hread, hsteps]
  rfl

-- No space is needed around a sign, and the sign is found behind the part of any form.
example : (parse "\tIdentifier>.body+[name='x']~:has(> *) \n Literal").map display =
    .ok "Identifier > .body + [name='x'] ~ :has(:scope > *) Literal" := by
  decide +kernel

-- A piece may have blanks on both sides.
example : Piece := ⟨" * ", wildcard, rfl, 2, [' '], rfl, List.forall_mem_singleton.mpr rfl⟩

end Selector

end ReactiveLint
