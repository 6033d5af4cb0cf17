import Mathlib.Data.List.DropRight
import Mathlib.Data.List.TakeWhile
import ReactiveLint.Text.Blank

/-!
# Classes of characters

Runs of characters of one class, and the characters that are not blank.
-/

namespace ReactiveLint.Text

/-- What can be computed for a few characters, or other things, one after the other. -/
theorem forall_mem_of_all {A : Type} {p : A → Prop} [DecidablePred p] {as : List A}
    (hall : (as.all fun a => decide (p a)) = true) : ∀ a ∈ as, p a :=
  fun a ha => of_decide_eq_true (List.all_eq_true.mp hall a ha)

/-! ## Runs -/

section Runs

variable {accepts : Char → Bool} {cs rest more : List Char}

theorem takeWhile_run (hcs : ∀ c ∈ cs, accepts c = true)
    (hrest : ∀ c ∈ rest.head?, accepts c = false) : (cs ++ rest).takeWhile accepts = cs := by
  rw [List.takeWhile_append_of_pos hcs]
  cases rest with
  | nil => simp
  | cons c rest => rw [List.takeWhile_cons_of_neg (by simp [hrest c rfl]), List.append_nil]

theorem dropWhile_run (hcs : ∀ c ∈ cs, accepts c = true)
    (hrest : ∀ c ∈ rest.head?, accepts c = false) : (cs ++ rest).dropWhile accepts = rest := by
  rw [List.dropWhile_append_of_pos hcs]
  cases rest with
  | nil => rfl
  | cons c rest => rw [List.dropWhile_cons_of_neg (by simp [hrest c rfl])]

/-- A run that ends within a text, or just before a character that is not of it, is the run of
every longer text. -/
theorem run_append
    (hstop : cs.dropWhile accepts ≠ [] ∨ ∀ c ∈ more.head?, accepts c = false) :
    (cs ++ more).takeWhile accepts = cs.takeWhile accepts ∧
      (cs ++ more).dropWhile accepts = cs.dropWhile accepts ++ more := by
  induction cs with
  | nil =>
      have hmore := hstop.resolve_left (fun hne => hne rfl)
      have hnone : ∀ c ∈ ([] : List Char), accepts c = true := by simp
      exact ⟨takeWhile_run hnone hmore, dropWhile_run hnone hmore⟩
  | cons c cs ih =>
      rw [List.cons_append, List.takeWhile_cons, List.takeWhile_cons, List.dropWhile_cons,
        List.dropWhile_cons]
      rw [List.dropWhile_cons] at hstop
      cases hc : accepts c with
      | false => simp
      | true =>
          obtain ⟨htake, hdrop⟩ := ih (by simpa only [hc, if_true] using hstop)
          simp only [if_true, htake, hdrop, and_self]

end Runs

/-! ## Blanks -/

/-- Characters that are printed in ASCII, other than the space. -/
def IsVisible (c : Char) : Prop := 33 ≤ c.toNat ∧ c.toNat ≤ 126

instance (c : Char) : Decidable (IsVisible c) :=
  inferInstanceAs (Decidable (33 ≤ c.toNat ∧ c.toNat ≤ 126))

theorem IsVisible.isBlank_eq_false {c : Char} (hvisible : IsVisible c) : isBlank c = false := by
  by_contra hblank
  obtain ⟨range, hrange, hholds⟩ := CodeRange.exists_of_member (Bool.not_eq_false _ ▸ hblank)
  have hapart : ∀ range ∈ blankRanges, range.last < 33 ∨ 126 < range.first :=
    forall_mem_of_all (by decide)
  simp only [CodeRange.holds, Bool.and_eq_true, decide_eq_true_eq] at hholds
  have hlow := hvisible.1
  have hhigh := hvisible.2
  rcases hapart range hrange with hlast | hfirst <;> omega

theorem trimStart_cons {c : Char} (hblank : isBlank c = false) (cs : List Char) :
    trimStart (c :: cs) = c :: cs :=
  List.dropWhile_cons_of_neg (by simp [hblank])

theorem IsVisible.trimStart_eq {c : Char} (hvisible : IsVisible c) (cs : List Char) :
    trimStart (c :: cs) = c :: cs := trimStart_cons hvisible.isBlank_eq_false cs

theorem trimStart_append {cs : List Char} (hne : trimStart cs ≠ []) (more : List Char) :
    trimStart (cs ++ more) = trimStart cs ++ more := (run_append (.inl hne)).2

theorem trimStart_space (cs : List Char) : trimStart (' ' :: cs) = trimStart cs :=
  List.dropWhile_cons_of_pos (by decide)

/-!
## Trimming

Trimming takes blanks off the two ends of a text, so it stops at the first and at the last
character that is not blank.
-/

section Trimming

variable {cs before inner after blanks : List Char} {c : Char}

/-! ### What stays -/

section Inner

variable (hne : inner ≠ []) (hinner : ∀ c ∈ inner, isBlank c = false)

include hne hinner

theorem trimStart_around (before after : List Char) :
    trimStart (before ++ (inner ++ after)) = trimStart before ++ (inner ++ after) := by
  obtain ⟨c, rest, rfl⟩ := List.exists_cons_of_ne_nil hne
  have hfirst : trimStart (c :: rest ++ after) = c :: rest ++ after :=
    trimStart_cons (hinner c List.mem_cons_self) _
  rw [trimStart, List.dropWhile_append]
  split
  next hblank =>
    rw [← trimStart, hfirst, trimStart, List.isEmpty_iff.mp hblank, List.nil_append]
  next => rfl

theorem trimEnd_around (before after : List Char) :
    trimEnd (before ++ (inner ++ after)) = before ++ (inner ++ trimEnd after) := by
  have hstart := trimStart_around (List.reverse_ne_nil_iff.mpr hne)
    (fun c hc => hinner c (List.mem_reverse.mp hc)) after.reverse before.reverse
  rw [trimEnd, List.reverse_append, List.reverse_append, List.append_assoc, ← trimStart, hstart,
    List.reverse_append, List.reverse_append, List.reverse_reverse, List.reverse_reverse,
    List.append_assoc]
  rfl

/-- Characters that are not blank keep what stands between them. -/
theorem trim_around (before after : List Char) :
    trim (before ++ (inner ++ after)) = trimStart before ++ (inner ++ trimEnd after) := by
  rw [trim, trimStart_around hne hinner, trimEnd_around hne hinner]

end Inner

theorem mem_trim (hmem : c ∈ cs) (hblank : isBlank c = false) : c ∈ trim cs := by
  obtain ⟨before, after, rfl⟩ := List.append_of_mem hmem
  have haround := trim_around (List.cons_ne_nil c [])
    (fun d hd => List.mem_singleton.mp hd ▸ hblank) before after
  rw [List.singleton_append] at haround
  rw [haround]
  simp

/-! ### What goes -/

theorem trimEnd_append_blanks (hblanks : ∀ c ∈ blanks, isBlank c = true) (cs : List Char) :
    trimEnd (cs ++ blanks) = trimEnd cs := by
  rw [trimEnd, List.reverse_append, List.dropWhile_append_of_pos, trimEnd]
  exact fun c hc => hblanks c (List.mem_reverse.mp hc)

theorem exists_trimEnd (cs : List Char) :
    ∃ blanks, (∀ c ∈ blanks, isBlank c = true) ∧ trimEnd cs ++ blanks = cs := by
  refine ⟨cs.rtakeWhile isBlank, fun c hc => List.mem_rtakeWhile_imp hc, ?_⟩
  exact List.rdropWhile_append_rtakeWhile

theorem trim_append_blanks (hblanks : ∀ c ∈ blanks, isBlank c = true) (cs : List Char) :
    trim (cs ++ blanks) = trim cs := by
  rw [trim, trim, trimStart, List.dropWhile_append]
  split
  next hnone =>
    rw [trimStart, List.isEmpty_iff.mp hnone, List.dropWhile_eq_nil_iff.mpr hblanks]
  next => exact trimEnd_append_blanks hblanks _

theorem trim_trimEnd (cs : List Char) : trim (trimEnd cs) = trim cs := by
  obtain ⟨blanks, hblanks, hcs⟩ := exists_trimEnd cs
  rw [← trim_append_blanks hblanks, hcs]

theorem trim_cons_of_blank (hblank : isBlank c = true) (cs : List Char) :
    trim (c :: cs) = trim cs := by
  rw [trim, trimStart, List.dropWhile_cons_of_pos hblank]
  rfl

end Trimming

end ReactiveLint.Text
