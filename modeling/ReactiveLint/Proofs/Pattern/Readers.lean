import ReactiveLint.Pattern.Parser
import ReactiveLint.Proofs.Text.Characters

/-!
# Readers before a dollar sign

The readers of a pattern take what they need and leave the rest.  With a dollar sign at the
end of the text they take the same: no reader looks at the end of the text for what it
takes, except where it leaves out layout.
-/

namespace ReactiveLint.Pattern

/-- A reader that takes the same with a dollar sign at the end of the text. -/
def IsLocal {A : Type} (read : List Char → Read A) : Prop :=
  ∀ ⦃cs a rest⦄, read cs = some (a, rest) → read (cs ++ ['$']) = some (a, rest ++ ['$'])

variable {A B : Type} {flags : Flags} {c : Char} {cs rest : List Char} {accepts : Char → Bool}
  {fuel more count : Nat}

/-! ## Runs of characters -/

theorem takeWhile_dollar (hdollar : accepts '$' = false) (cs : List Char) :
    (cs ++ ['$']).takeWhile accepts = cs.takeWhile accepts := by
  induction cs with
  | nil => simp [hdollar]
  | cons c cs ih => rw [List.cons_append, List.takeWhile_cons, List.takeWhile_cons, ih]

theorem dropWhile_dollar (hdollar : accepts '$' = false) (cs : List Char) :
    (cs ++ ['$']).dropWhile accepts = cs.dropWhile accepts ++ ['$'] := by
  induction cs with
  | nil => simp [hdollar]
  | cons c cs ih =>
      rw [List.cons_append, List.dropWhile_cons, List.dropWhile_cons, ih]
      split <;> rfl

/-- A run that ends in the text ends there with more behind it. -/
theorem takeWhile_append_of_dropWhile (hdrop : cs.dropWhile accepts = c :: rest) :
    (cs ++ ['$']).takeWhile accepts = cs.takeWhile accepts := by
  rw [List.takeWhile_append, if_neg]
  intro hlength
  have hsplit := congrArg List.length (List.takeWhile_append_dropWhile (p := accepts) (l := cs))
  rw [List.length_append, hdrop, List.length_cons] at hsplit
  omega

theorem dropWhile_append_of_dropWhile (hdrop : cs.dropWhile accepts = c :: rest) :
    (cs ++ ['$']).dropWhile accepts = c :: (rest ++ ['$']) := by
  rw [List.dropWhile_append, hdrop]
  rfl

/-! ## Layout -/

theorem skipLayout_of_not_extended (hflags : flags.extended = false) (fuel : Nat)
    (cs : List Char) : skipLayout flags fuel cs = cs := by
  cases fuel with
  | zero => rfl
  | succ fuel => simp [skipLayout.eq_def, hflags]

theorem skipLayout_nil (flags : Flags) (fuel : Nat) : skipLayout flags fuel [] = [] := by
  cases fuel with
  | zero => rfl
  | succ fuel => simp [skipLayout.eq_def]

theorem skipLayout_cons (hflags : flags.extended = true) (fuel : Nat) (c : Char)
    (cs : List Char) : skipLayout flags (fuel + 1) (c :: cs) =
      if c = '#' then skipLayout flags fuel ((cs.dropWhile (· != '\n')).drop 1)
      else if Text.isBlank c then skipLayout flags fuel cs else c :: cs := by
  by_cases hcomment : c = '#'
  · subst hcomment
    simp [skipLayout, hflags]
  · simp [skipLayout, hflags, hcomment]

theorem skipLayout_append (hfuel : cs.length ≤ fuel) (hmore : cs.length < more)
    (hskip : skipLayout flags fuel cs = c :: rest) :
    skipLayout flags more (cs ++ ['$']) = c :: (rest ++ ['$']) := by
  cases hflags : flags.extended with
  | false =>
      rw [skipLayout_of_not_extended hflags] at hskip ⊢
      rw [hskip]
      rfl
  | true =>
      induction fuel generalizing cs more with
      | zero =>
          rw [List.length_eq_zero_iff.mp (Nat.le_zero.mp hfuel)] at hskip
          cases hskip
      | succ fuel ih =>
          cases cs with
          | nil => cases (skipLayout_nil flags _).symm.trans hskip
          | cons first after =>
              rw [List.length_cons] at hfuel hmore
              obtain ⟨more, rfl⟩ := Nat.exists_eq_add_one_of_ne_zero (Nat.ne_zero_of_lt hmore)
              rw [skipLayout_cons hflags] at hskip
              rw [List.cons_append, skipLayout_cons hflags]
              split at hskip
              next hcomment =>
                rw [if_pos hcomment]
                cases hline : after.dropWhile (· != '\n') with
                | nil =>
                    rw [hline, List.drop_nil] at hskip
                    cases (skipLayout_nil flags _).symm.trans hskip
                | cons feed line =>
                    have hshort : (feed :: line).length ≤ after.length :=
                      hline ▸ (List.dropWhile_suffix _).length_le
                    rw [List.length_cons] at hshort
                    rw [hline] at hskip
                    rw [dropWhile_append_of_dropWhile hline]
                    exact ih (by omega) (by omega) hskip
              next hcomment =>
                rw [if_neg hcomment]
                split at hskip
                next hblank =>
                  rw [if_pos hblank]
                  exact ih (by omega) (by omega) hskip
                next hblank =>
                  cases hskip
                  rw [if_neg hblank]

/-- Layout ends where it did when something follows it. -/
theorem layout_append (hlayout : layout flags cs = c :: rest) :
    layout flags (cs ++ ['$']) = c :: (rest ++ ['$']) :=
  skipLayout_append (Nat.le_refl _) (by simp) hlayout

theorem layout_append_of_ne_nil (hlayout : layout flags cs ≠ []) :
    layout flags (cs ++ ['$']) = layout flags cs ++ ['$'] := by
  cases hfront : layout flags cs with
  | nil => exact absurd hfront hlayout
  | cons c rest => exact layout_append hfront

theorem layout_nil (flags : Flags) : layout flags [] = [] := rfl

theorem layout_of_not_extended (hflags : flags.extended = false) (cs : List Char) :
    layout flags cs = cs :=
  skipLayout_of_not_extended hflags _ cs

/-! ## Readers made of readers -/

theorem isLocal_none : IsLocal fun _ => (none : Read A) := by
  intro cs a rest hread
  cases hread

theorem isLocal_some (a : A) : IsLocal fun cs => some (a, cs) := by
  intro cs _ rest hread
  cases hread
  rfl

/-- A reader that takes nothing. -/
theorem isLocal_map (value : Option A) (f : A → B) : IsLocal fun cs => value.map (f ·, cs) := by
  intro cs b rest hread
  obtain ⟨a, hvalue, hpair⟩ := Option.map_eq_some_iff.mp hread
  cases hpair
  simp [hvalue]

namespace IsLocal

variable {read left right : List Char → Read A}

theorem cons (hread : IsLocal read) (c : Char) : IsLocal fun cs => read (c :: cs) := by
  intro cs a rest heq
  exact hread heq

theorem ite {p : Prop} [Decidable p] (hleft : IsLocal left) (hright : IsLocal right) :
    IsLocal fun cs => if p then left cs else right cs := by
  split
  · exact hleft
  · exact hright

/-- A condition on the next character, where the end of the text counts as a dollar sign or
leads nowhere. -/
theorem peek {p : Option Char → Prop} [DecidablePred p] (hleft : IsLocal left)
    (hright : IsLocal right)
    (hend : (p none ↔ p (some '$')) ∨ (if p none then left [] else right []) = none) :
    IsLocal fun cs => if p cs.head? then left cs else right cs := by
  have hlocal : ∀ next, IsLocal fun cs => if p next then left cs else right cs :=
    fun _ => hleft.ite hright
  intro cs a rest hread
  cases cs with
  | nil =>
      cases hend with
      | inl hend =>
          simp only [List.head?_nil, hend] at hread
          exact hlocal _ hread
      | inr hend => cases hend.symm.trans hread
  | cons c cs => exact hlocal (some c) hread

theorem map (hread : IsLocal read) (f : A → B) :
    IsLocal fun cs => (read cs).map fun (a, cs) => (f a, cs) := by
  intro cs b rest hmap
  obtain ⟨⟨a, after⟩, heq, hpair⟩ := Option.map_eq_some_iff.mp hmap
  cases hpair
  simp [hread heq]

theorem bind {next : A → List Char → Read B} (hread : IsLocal read)
    (hnext : ∀ a, IsLocal (next a)) :
    IsLocal fun cs => (read cs).bind fun (a, cs) => next a cs := by
  intro cs b rest hbind
  obtain ⟨⟨a, after⟩, heq, hrest⟩ := Option.bind_eq_some_iff.mp hbind
  simp only [hread heq, Option.bind_some]
  exact hnext a hrest

/-- The next character, behind layout. -/
theorem skip {read : Char → List Char → Read A} (hread : ∀ c, IsLocal (read c)) :
    IsLocal fun cs => match layout flags cs with
      | [] => none
      | c :: cs => read c cs := by
  intro cs a rest hskip
  dsimp only at hskip ⊢
  cases hfront : layout flags cs with
  | nil =>
      rw [hfront] at hskip
      cases hskip
  | cons c after =>
      rw [hfront] at hskip
      simp only [layout_append hfront]
      exact hread c hskip

theorem next {read : Char → List Char → Read A} (hread : ∀ c, IsLocal (read c)) :
    IsLocal fun cs => match cs with
      | [] => none
      | c :: cs => read c cs := by
  intro cs a rest hnext
  cases cs with
  | nil => cases hnext
  | cons c cs => exact hread c hnext

/-- A run of characters and what stands behind the one that ends it. -/
theorem ending {read : List Char → List Char → Read A} (hread : ∀ run, IsLocal (read run)) :
    IsLocal fun cs => match cs.dropWhile accepts with
      | [] => none
      | _ :: rest => read (cs.takeWhile accepts) rest := by
  intro cs a rest hending
  dsimp only at hending ⊢
  cases hdrop : cs.dropWhile accepts with
  | nil =>
      rw [hdrop] at hending
      cases hending
  | cons c after =>
      rw [hdrop] at hending
      simp only [dropWhile_append_of_dropWhile hdrop, takeWhile_append_of_dropWhile hdrop]
      exact hread _ hending

theorem layout (hread : IsLocal read) (hend : read [] = none) :
    IsLocal fun cs => read (Pattern.layout flags cs) := by
  intro cs a rest heq
  dsimp only at heq ⊢
  cases hfront : Pattern.layout flags cs with
  | nil =>
      rw [hfront] at heq
      cases hend.symm.trans heq
  | cons c after =>
      rw [hfront] at heq
      simp only [layout_append hfront]
      exact hread heq

end IsLocal

/-! ## Escapes -/

theorem isLocal_readHexDigits (flags : Flags) (count : Nat) (digits : List Char) :
    IsLocal (readHexDigits? flags count digits) := by
  induction count generalizing digits with
  | zero => exact isLocal_map _ id
  | succ count ih =>
      have hnext : ∀ c, IsLocal fun cs =>
          if isHexDigit c then readHexDigits? flags count (digits ++ [c]) cs else none :=
        fun c => (ih _).ite isLocal_none
      cases hempty : digits.isEmpty with
      | true =>
          have heq : readHexDigits? flags (count + 1) digits = fun cs => match cs with
              | [] => none
              | c :: cs =>
                  if isHexDigit c then readHexDigits? flags count (digits ++ [c]) cs
                  else none := by
            funext cs
            rw [readHexDigits?, hempty, if_pos rfl]
            cases cs <;> rfl
          exact heq ▸ .next hnext
      | false =>
          have heq : readHexDigits? flags (count + 1) digits = fun cs =>
              match layout flags cs with
              | [] => none
              | c :: cs =>
                  if isHexDigit c then readHexDigits? flags count (digits ++ [c]) cs
                  else none := by
            funext cs
            rw [readHexDigits?, hempty, if_neg Bool.false_ne_true]
            cases layout flags cs <;> rfl
          exact heq ▸ .skip hnext

theorem readHexBraces?_append {digits : List Char} (hfuel : fuel ≤ more)
    (hread : readHexBraces? flags fuel digits cs = some (c, rest)) :
    readHexBraces? flags more digits (cs ++ ['$']) = some (c, rest ++ ['$']) := by
  induction fuel generalizing digits cs more with
  | zero => cases hread
  | succ fuel ih =>
      obtain ⟨more, rfl⟩ := Nat.exists_eq_add_one_of_ne_zero (Nat.ne_zero_of_lt hfuel)
      rw [readHexBraces?] at hread ⊢
      cases hfront : layout flags cs with
      | nil =>
          rw [hfront] at hread
          cases hread
      | cons first after =>
          rw [hfront] at hread
          rw [layout_append hfront]
          by_cases hbrace : first = '\x7d'
          · simp only [hbrace, if_true] at hread ⊢
            exact isLocal_none.ite (isLocal_map _ id) hread
          · simp only [hbrace, if_false] at hread ⊢
            by_cases hdigit : isHexDigit first
            · simp only [hdigit, if_true] at hread ⊢
              exact ih (by omega) hread
            · simp only [hdigit] at hread
              cases hread

theorem isLocal_readHex (flags : Flags) (count : Nat) : IsLocal (readHex? flags count) := by
  apply IsLocal.skip
  intro c
  apply IsLocal.ite
  · intro cs c rest hread
    exact readHexBraces?_append (by simp) hread
  · exact (isLocal_readHexDigits flags count []).cons c

theorem isLocal_readProperty (flags : Flags) (negated : Bool) :
    IsLocal (readProperty? flags negated) := by
  apply IsLocal.skip
  intro c
  apply IsLocal.ite isLocal_none
  apply IsLocal.ite
  · exact @IsLocal.ending _ _ (fun run rest =>
      ((propertyClass? run).bind (propertySet? flags negated)).map (·, rest))
      fun _ => isLocal_map _ id
  · exact isLocal_map _ id

theorem isLocal_readBoundary (ascii : Bool) : IsLocal (readBoundary? ascii) := by
  have hplain : ∀ c, IsLocal fun cs => some (Anchor.wordBoundary ascii, c :: cs) :=
    (isLocal_some _).cons
  have hnamed : IsLocal fun cs => match cs.dropWhile isBoundaryChar with
      | [] => none
      | c :: rest =>
          if c = '\x7d' then (boundary? ascii (cs.takeWhile isBoundaryChar)).map (·, rest)
          else none := by
    intro cs anchor rest hread
    dsimp only at hread ⊢
    rw [takeWhile_dollar (by decide), dropWhile_dollar (by decide)]
    cases hend : cs.dropWhile isBoundaryChar with
    | nil =>
        rw [hend] at hread
        cases hread
    | cons c after =>
        rw [hend] at hread
        exact (isLocal_map _ id).ite isLocal_none hread
  intro cs anchor rest hread
  cases cs with
  | nil =>
      cases hread
      rfl
  | cons c cs =>
      refine IsLocal.ite (@IsLocal.peek _ _ _ (fun next => (next.map isBoundaryChar).getD true)
        _ hnamed (hplain c) (.inr rfl)) (hplain c) hread

theorem isLocal_readEscape (flags : Flags) : IsLocal (readEscape? flags) := by
  apply IsLocal.next
  intro c
  apply IsLocal.ite ((isLocal_readHex flags 2).map _)
  apply IsLocal.ite ((isLocal_readHex flags 4).map _)
  apply IsLocal.ite ((isLocal_readHex flags 8).map _)
  apply IsLocal.ite ((isLocal_readProperty flags _).map _)
  apply IsLocal.ite (isLocal_map _ _)
  apply IsLocal.ite (isLocal_some _)
  apply IsLocal.ite (isLocal_some _)
  apply IsLocal.ite ((isLocal_readBoundary _).map _)
  apply IsLocal.ite (isLocal_some _)
  apply IsLocal.ite (isLocal_some _)
  apply IsLocal.ite (isLocal_some _)
  apply IsLocal.ite (isLocal_some _)
  exact isLocal_map _ _

/-! ## Repetitions -/

theorem isLocal_readCount : IsLocal readCount? := by
  have htrim : ∀ cs, Text.trimStart (cs ++ ['$']) = Text.trimStart cs ++ ['$'] :=
    dropWhile_dollar (by decide)
  intro cs count rest hread
  simp only [readCount?, Number.spanDigits, htrim] at hread ⊢
  rw [takeWhile_dollar (by decide), dropWhile_dollar (by decide), htrim]
  exact isLocal_none.ite (isLocal_some _) hread

theorem isLocal_readMost (flags : Flags) (least : Nat) : IsLocal (readMost? flags least) := by
  have hclose : ∀ most, IsLocal fun cs => match cs with
      | [] => none
      | c :: cs => if c = '\x7d' ∧ least ≤ most then some (some most, cs) else none :=
    fun _ => IsLocal.next fun _ => (isLocal_some _).ite isLocal_none
  apply IsLocal.skip
  intro c
  apply IsLocal.ite (isLocal_some none)
  exact (isLocal_readCount.cons c).bind hclose

theorem isLocal_readBoundsRest (flags : Flags) (least : Nat) :
    IsLocal (readBoundsRest? flags least) := by
  apply IsLocal.next
  intro c
  apply IsLocal.ite (isLocal_some _)
  exact ((isLocal_readMost flags least).map fun most => (least, most)).ite isLocal_none

theorem isLocal_readBounds (flags : Flags) : IsLocal (readBounds? flags) :=
  (isLocal_readCount.layout rfl).bind (isLocal_readBoundsRest flags)

/-! ## Groups -/

theorem isLocal_readFlags (flags : Flags) (value : Bool) (seen : List Char) :
    IsLocal (readFlags? flags value seen) := by
  intro cs inner rest hread
  induction cs generalizing flags value seen with
  | nil => cases hread
  | cons c cs ih =>
      rw [readFlags?] at hread
      rw [List.cons_append, readFlags?]
      split at hread
      next hend =>
        rw [if_pos hend]
        exact isLocal_none.ite ((isLocal_some flags).cons c) hread
      next hend =>
        rw [if_neg hend]
        split at hread
        next => cases hread
        next hnew =>
          rw [if_neg hnew]
          split at hread
          next hsign =>
            rw [if_pos hsign]
            exact ih _ _ _ hread
          next hsign =>
            rw [if_neg hsign]
            split at hread
            next => exact ih _ _ _ hread
            next => cases hread

theorem isLocal_readName : IsLocal readName? := by
  have hname : ∀ name, IsLocal fun rest => match name with
      | [] => none
      | first :: others =>
          if isNameStart first && others.all isNameRest then
            some (String.ofList (first :: others), rest)
          else none := by
    intro name
    cases name with
    | nil => exact isLocal_none
    | cons first others => exact (isLocal_some _).ite isLocal_none
  intro cs name rest hread
  have heq : ∀ cs, readName? cs = match cs.dropWhile (· != '>') with
      | [] => none
      | _ :: rest =>
          match cs.takeWhile (· != '>') with
          | [] => none
          | first :: others =>
              if isNameStart first && others.all isNameRest then
                some (String.ofList (first :: others), rest)
              else none := by
    intro cs
    rw [readName?]
    cases cs.takeWhile (· != '>') <;> cases cs.dropWhile (· != '>') <;> rfl
  rw [heq] at hread ⊢
  exact IsLocal.ending hname hread

theorem isLocal_readNamed (flags : Flags) : IsLocal (readNamed? flags) :=
  isLocal_readName.map fun name => Opening.group flags (some name)

theorem isLocal_readFlagged (flags : Flags) : IsLocal (readFlagged? flags) := by
  intro cs opening rest hread
  cases cs with
  | nil => cases hread
  | cons c cs =>
      have hclose : ∀ inner, IsLocal fun rest => match rest with
          | [] => none
          | mark :: rest =>
              if mark = ':' then some (Opening.group inner none, rest)
              else if some c = some ')' then none
              else some (.setFlags inner, rest) :=
        fun _ => IsLocal.next fun _ => (isLocal_some _).ite (isLocal_none.ite (isLocal_some _))
      exact (isLocal_readFlags flags true []).bind hclose hread

theorem isLocal_readSpecial (flags : Flags) : IsLocal (readSpecial? flags) := by
  apply IsLocal.next
  intro c
  apply IsLocal.ite isLocal_none
  apply IsLocal.ite
  · exact @IsLocal.peek _ _ _ (fun next => next = some '=' ∨ next = some '!') _ isLocal_none
      (isLocal_readNamed flags) (.inl (by decide))
  · have hnamed : IsLocal fun cs => readNamed? flags (cs.drop 1) := by
      intro cs opening rest hread
      cases cs with
      | nil => cases hread
      | cons c cs => exact isLocal_readNamed flags hread
    exact @IsLocal.peek _ _ _ (fun next => c = 'P' ∧ next = some '<') _ hnamed
      ((isLocal_readFlagged flags).cons c) (.inl (by simp))

theorem isLocal_readOpening (flags : Flags) : IsLocal (readOpening? flags) := by
  apply IsLocal.skip
  intro c
  exact (isLocal_readSpecial flags).ite ((isLocal_some _).cons c)

/-! ## Classes -/

/-- Whether an ASCII class follows does not depend on the end of the text either. -/
theorem readAsciiClass?_append (cs : List Char) : readAsciiClass? (cs ++ ['$']) =
    (readAsciiClass? cs).map fun (set, rest) => (set, rest ++ ['$']) := by
  cases cs with
  | nil => rfl
  | cons c cs =>
      have hnegated : ((cs ++ ['$']).head? == some '^') = (cs.head? == some '^') := by
        cases cs <;> rfl
      have hbody : (if (cs.head? == some '^') = true then (cs ++ ['$']).drop 1 else cs ++ ['$']) =
          (if (cs.head? == some '^') = true then cs.drop 1 else cs) ++ ['$'] := by
        cases cs with
        | nil => rfl
        | cons first cs => split <;> rfl
      simp only [List.cons_append, readAsciiClass?, hnegated, hbody]
      generalize (if (cs.head? == some '^') = true then cs.drop 1 else cs) = body
      cases hend : body.dropWhile (· != ':') with
      | nil => simp [List.dropWhile_append, hend]
      | cons colon after =>
          rw [dropWhile_append_of_dropWhile hend, takeWhile_append_of_dropWhile hend]
          cases after with
          | nil => simp
          | cons bracket rest =>
              simp only [List.cons_append]
              split <;> simp [Function.comp_def]

theorem isLocal_readClassPrimitive (flags : Flags) : IsLocal (readClassPrimitive? flags) := by
  apply IsLocal.next
  intro c
  exact (isLocal_readEscape flags).ite (isLocal_some _)

theorem isLocal_readRangeEnd (flags : Flags) (first : Primitive) :
    IsLocal (readRangeEnd? flags first) := by
  intro cs set rest hread
  rw [readRangeEnd?] at hread ⊢
  cases hfront : layout flags cs with
  | nil =>
      rw [hfront] at hread
      cases hread
  | cons c after =>
      rw [hfront] at hread
      rw [layout_append hfront]
      dsimp only at hread ⊢
      split at hread
      next hmark =>
        rw [if_pos hmark]
        exact (isLocal_map first.classItem? id).cons '-' hread
      next hmark =>
        rw [if_neg hmark]
        have hlast : ∀ last, IsLocal fun cs => (first.range? last).map (·, cs) :=
          fun last => isLocal_map _ id
        exact ((isLocal_readClassPrimitive flags).cons c).bind hlast hread

theorem isLocal_readClassRange (flags : Flags) : IsLocal (readClassRange? flags) := by
  have hrange : ∀ first, IsLocal fun cs => match layout flags cs with
      | [] => none
      | c :: cs =>
          if c = '-' then readRangeEnd? flags first cs
          else (first.classItem?).map (·, c :: cs) :=
    fun first => IsLocal.skip fun c =>
      (isLocal_readRangeEnd flags first).ite ((isLocal_map first.classItem? id).cons c)
  exact (isLocal_readClassPrimitive flags).bind hrange

theorem readNegation_append (hrest : (readNegation flags cs).2 ≠ []) :
    readNegation flags (cs ++ ['$']) =
      ((readNegation flags cs).1, (readNegation flags cs).2 ++ ['$']) := by
  cases hfront : layout flags cs with
  | nil => simp [readNegation, hfront] at hrest
  | cons c after =>
      simp only [readNegation, hfront, layout_append hfront, List.head?_cons, List.drop_succ_cons,
        List.drop_zero] at hrest ⊢
      split at hrest
      next hnegated => rw [if_pos hnegated, if_pos hnegated, layout_append_of_ne_nil hrest]
      next hnegated =>
        rw [if_neg hnegated, if_neg hnegated]
        rfl

/-- A class that goes on behind its opening opens the same way. -/
theorem readClassOpening_append (hrest : (readClassOpening flags cs).2.2 ≠ []) :
    readClassOpening flags (cs ++ ['$']) =
      ((readClassOpening flags cs).1, (readClassOpening flags cs).2.1,
        (readClassOpening flags cs).2.2 ++ ['$']) := by
  have hhyphens : ∀ cs : List Char,
      (cs ++ ['$']).dropWhile (· == '-') = cs.dropWhile (· == '-') ++ ['$'] :=
    dropWhile_dollar (by decide)
  cases hbehind : layout flags ((readNegation flags cs).2.dropWhile (· == '-')) with
  | nil =>
      refine absurd ?_ hrest
      simp only [readClassOpening, hbehind]
      split <;> rfl
  | cons c behind =>
      cases hfront : (readNegation flags cs).2 with
      | nil =>
          rw [hfront] at hbehind
          cases hbehind
      | cons first after =>
          have hnegation := readNegation_append (by simp [hfront] : (readNegation flags cs).2 ≠ [])
          rw [hfront, List.cons_append] at hnegation
          rw [hfront] at hbehind
          simp only [readClassOpening, hnegation, hfront, hbehind, List.head?_cons,
            ← List.cons_append, hhyphens, layout_append hbehind]
          simp only [List.cons_append, List.head?_cons, List.drop_succ_cons, List.drop_zero]
          split
          next => rfl
          next => split <;> rfl

theorem readClass?_nil (flags : Flags) (negated : Bool) (fuel : Nat) (parts : ClassParts) :
    readClass? flags negated fuel parts [] = none := by
  cases fuel with
  | zero => rfl
  | succ fuel => rw [readClass?, layout_nil]

/-- The end of the text does not make an operator. -/
theorem ofDoubled?_append (c : Char) (cs : List Char) :
    ClassOp.ofDoubled? c (cs ++ ['$']).head? = ClassOp.ofDoubled? c cs.head? := by
  cases cs with
  | nil =>
      rw [ClassOp.ofDoubled?, ClassOp.ofDoubled?]
      by_cases hdollar : c = '$'
      · subst hdollar
        rfl
      · simp [Ne.symm hdollar]
  | cons next cs => rfl

/-- With more fuel and a dollar sign at the end of the text, a class is read the same. -/
theorem readClass?_append {negated : Bool} {parts : ClassParts} {set : CharSet}
    (hfuel : fuel ≤ more) (hread : readClass? flags negated fuel parts cs = some (set, rest)) :
    readClass? flags negated more parts (cs ++ ['$']) = some (set, rest ++ ['$']) := by
  induction fuel generalizing negated parts cs set rest more with
  | zero => cases hread
  | succ fuel ih =>
      obtain ⟨more, rfl⟩ := Nat.exists_eq_add_one_of_ne_zero (Nat.ne_zero_of_lt hfuel)
      have hle : fuel ≤ more := Nat.le_of_succ_le_succ hfuel
      -- an item of the class, and then the rest of it
      have hitem : ∀ {item item' : Read CharSet}, (∀ set rest, item = some (set, rest) →
            item' = some (set, rest ++ ['$'])) →
          (item.bind fun (set, cs) => readClass? flags negated fuel (parts.add set) cs) =
            some (set, rest) →
          (item'.bind fun (set, cs) => readClass? flags negated more (parts.add set) cs) =
            some (set, rest ++ ['$']) := by
        intro item item' hlocal hbind
        obtain ⟨⟨member, after⟩, hmember, hrest⟩ := Option.bind_eq_some_iff.mp hbind
        rw [hlocal member after hmember, Option.bind_some]
        exact ih hle hrest
      rw [readClass?] at hread ⊢
      cases hfront : layout flags cs with
      | nil =>
          rw [hfront] at hread
          cases hread
      | cons c after =>
          rw [hfront] at hread
          rw [layout_append hfront]
          dsimp only at hread ⊢
          by_cases hclose : c = ']'
          · rw [if_pos hclose] at hread ⊢
            exact isLocal_map _ id hread
          rw [if_neg hclose] at hread ⊢
          by_cases hopen : c = '['
          · rw [if_pos hopen] at hread ⊢
            rw [readAsciiClass?_append]
            cases hascii : readAsciiClass? after with
            | some taken =>
                rw [hascii] at hread
                exact ih hle hread
            | none =>
                rw [hascii] at hread
                dsimp only [Option.map_none] at hread ⊢
                refine hitem (fun set rest hinner => ?_) hread
                have hrest : (readClassOpening flags after).2.2 ≠ [] := by
                  intro hempty
                  rw [hempty, readClass?_nil] at hinner
                  cases hinner
                rw [readClassOpening_append hrest]
                exact ih hle hinner
          rw [if_neg hopen] at hread ⊢
          rw [ofDoubled?_append]
          cases hoperator : ClassOp.ofDoubled? c after.head? with
          | some op =>
              rw [hoperator] at hread
              cases after with
              | nil => cases hoperator
              | cons next after => exact ih hle hread
          | none =>
              rw [hoperator] at hread
              exact hitem (fun set rest hrange => isLocal_readClassRange flags hrange) hread

theorem isLocal_readPrimitive (flags : Flags) : IsLocal (readPrimitive? flags) := by
  apply IsLocal.next
  intro c
  apply IsLocal.ite (isLocal_readEscape flags)
  apply IsLocal.ite (isLocal_some _)
  apply IsLocal.ite (isLocal_some _)
  apply IsLocal.ite (isLocal_some _)
  exact isLocal_some _

end ReactiveLint.Pattern
