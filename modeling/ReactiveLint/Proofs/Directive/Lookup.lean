import Mathlib.Data.List.Basic
import ReactiveLint.Directive.Basic

/-!
# What the directives of a file turn off

The look-up tables say of a rule on a line what its directives say: it is off when one of them
covers the line and names the rule.
-/

namespace ReactiveLint

variable {directive : Directive} {directives : Directives} {rule : String} {line : Nat}

theorem Directive.names_eq_true_iff :
    directive.names rule = true ↔
      allRules ∈ directive.filedNames ∨ rule ∈ directive.filedNames := by
  rw [names, filedNames]
  cases hrules : directive.rules with
  | nil => simp
  | cons name names =>
      rw [List.isEmpty_cons, Bool.false_or, if_neg (by simp), List.any_eq_true]
      constructor
      · rintro ⟨found, hfound, hnamed⟩
        rw [Bool.or_eq_true, beq_iff_eq, beq_iff_eq] at hnamed
        rcases hnamed with rfl | rfl
        · exact .inr hfound
        · exact .inl hfound
      · rintro (hall | hrule)
        · exact ⟨_, hall, by simp⟩
        · exact ⟨_, hrule, by simp⟩

namespace Directives

theorem isDisabledForFile_eq_true_iff :
    directives.isDisabledForFile rule = true ↔
      allRules ∈ directives.fileNames ∨ rule ∈ directives.fileNames := by
  rw [isDisabledForFile, Bool.or_eq_true, List.contains_iff_mem, List.contains_iff_mem]

theorem isDisabled_eq_true_iff :
    directives.isDisabled rule line = true ↔ directives.isDisabledForFile rule = true ∨
      (line, allRules) ∈ directives.lineNames ∨ (line, rule) ∈ directives.lineNames := by
  rw [isDisabled, Bool.or_eq_true, Bool.or_eq_true, List.contains_iff_mem, List.contains_iff_mem,
    or_assoc]

theorem isDisabledForFile_add :
    (directives.add directive).isDisabledForFile rule = true ↔
      directives.isDisabledForFile rule = true ∨
        directive.scope = .file ∧ directive.names rule = true := by
  rw [isDisabledForFile_eq_true_iff, isDisabledForFile_eq_true_iff, add,
    Directive.names_eq_true_iff]
  cases hscope : directive.scope with
  | file =>
      simp only [List.mem_append, true_and]
      exact or_or_or_comm
  | line => simp
  | nextLine => simp

/-- The names of a directive turn off the rules that it names, on the line it is filed for. -/
theorem mem_filedNames_map_iff (directive : Directive) (rule : String) (number line : Nat) :
    (line, allRules) ∈ directive.filedNames.map (number, ·) ∨
        (line, rule) ∈ directive.filedNames.map (number, ·) ↔
      number = line ∧ directive.names rule = true := by
  rw [Directive.names_eq_true_iff]
  constructor
  · rintro (hmem | hmem)
    · obtain ⟨name, hname, hsame⟩ := List.mem_map.mp hmem
      obtain ⟨rfl, rfl⟩ := Prod.mk.inj hsame
      exact ⟨rfl, .inl hname⟩
    · obtain ⟨name, hname, hsame⟩ := List.mem_map.mp hmem
      obtain ⟨rfl, rfl⟩ := Prod.mk.inj hsame
      exact ⟨rfl, .inr hname⟩
  · rintro ⟨rfl, hall | hrule⟩
    · exact .inl (List.mem_map_of_mem hall)
    · exact .inr (List.mem_map_of_mem hrule)

theorem isDisabled_add :
    (directives.add directive).isDisabled rule line = true ↔
      directives.isDisabled rule line = true ∨
        directive.covers line = true ∧ directive.names rule = true := by
  have hfiled := mem_filedNames_map_iff directive rule
  rw [isDisabled_eq_true_iff, isDisabledForFile_add, isDisabled_eq_true_iff, Directive.covers, add]
  cases hscope : directive.scope with
  | file => simp [or_right_comm]
  | line =>
      simp only [List.mem_append, reduceCtorEq, false_and, or_false, beq_iff_eq]
      rw [or_or_or_comm, hfiled, or_assoc, or_assoc, or_assoc]
  | nextLine =>
      simp only [List.mem_append, reduceCtorEq, false_and, or_false, beq_iff_eq]
      rw [or_or_or_comm, hfiled, or_assoc, or_assoc, or_assoc]

theorem list_add : (directives.add directive).list = directives.list ++ [directive] := by
  rw [add]
  cases directive.scope <;> rfl

theorem list_foldl_add (list : List Directive) (directives : Directives) :
    (list.foldl add directives).list = directives.list ++ list := by
  induction list generalizing directives with
  | nil => simp
  | cons directive list ih => simp [ih, list_add]

@[simp]
theorem list_ofList (list : List Directive) : (ofList list).list = list :=
  (list_foldl_add list {}).trans (List.nil_append list)

theorem isDisabled_foldl_add (list : List Directive) (directives : Directives) :
    (list.foldl add directives).isDisabled rule line = true ↔
      directives.isDisabled rule line = true ∨
        ∃ directive ∈ list, directive.covers line = true ∧ directive.names rule = true := by
  induction list generalizing directives with
  | nil => simp
  | cons directive list ih =>
      rw [List.foldl_cons, ih, isDisabled_add, or_assoc, List.exists_mem_cons_iff]

/-- A rule is off on a line when a directive that covers the line names it. -/
theorem isDisabled_ofList (list : List Directive) :
    (ofList list).isDisabled rule line = true ↔
      ∃ directive ∈ list, directive.covers line = true ∧ directive.names rule = true := by
  rw [ofList, isDisabled_foldl_add, or_iff_right]
  simp [isDisabled_eq_true_iff, isDisabledForFile_eq_true_iff]

end Directives

end ReactiveLint
