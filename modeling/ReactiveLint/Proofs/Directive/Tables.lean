import ReactiveLint.Proofs.Directive.Reading

/-!
# The look-up tables of the directives

Whether a rule is off is answered from two tables that grow with the list of directives, and
the reason is searched for in the list itself.  Both answers are the ones that the list gives
when each directive is taken at its word.
-/

namespace ReactiveLint

/-- The lines that a directive is for. -/
inductive Directive.AppliesOn (directive : Directive) : Nat → Prop
  | file (line : Nat) (hscope : directive.scope = .file) : AppliesOn directive line
  | line (hscope : directive.scope = .line) : AppliesOn directive directive.line
  | nextLine (hscope : directive.scope = .nextLine) : AppliesOn directive (directive.line + 1)

/-- The rules that a directive is for. -/
inductive Directive.AppliesTo (directive : Directive) (rule : String) : Prop
  | every (hnone : directive.rules = []) : AppliesTo directive rule
  | all (hall : allRules ∈ directive.rules) : AppliesTo directive rule
  | named (hrule : rule ∈ directive.rules) : AppliesTo directive rule

namespace Directive

variable {directive : Directive} {rule : String} {line : Nat}

theorem covers_eq_true_iff : directive.covers line = true ↔ directive.AppliesOn line := by
  rw [covers]
  constructor
  · intro hcovers
    split at hcovers
    next hscope => exact .file line hscope
    next hscope => exact beq_iff_eq.mp hcovers ▸ .line hscope
    next hscope => exact beq_iff_eq.mp hcovers ▸ .nextLine hscope
  · rintro (⟨line, hscope⟩ | hscope | hscope) <;> simp [hscope]

theorem names_eq_true_iff_appliesTo :
    directive.names rule = true ↔ directive.AppliesTo rule := by
  rw [names, Bool.or_eq_true, List.isEmpty_iff, List.any_eq_true]
  constructor
  · rintro (hnone | ⟨name, hname, hnamed⟩)
    · exact .every hnone
    · rw [Bool.or_eq_true, beq_iff_eq, beq_iff_eq] at hnamed
      rcases hnamed with rfl | rfl
      · exact .named hname
      · exact .all hname
  · rintro (hnone | hall | hrule)
    · exact .inl hnone
    · exact .inr ⟨allRules, hall, by simp⟩
    · exact .inr ⟨rule, hrule, by simp⟩

end Directive

namespace Directives

/-- A directive of the list gives the reason, and none before it that is for the rule on the
line gives any. -/
structure IsFirstReason (list : List Directive) (rule : String) (line : Nat) (reason : String)
    (before : List Directive) (directive : Directive) (behind : List Directive) : Prop where
  list_eq : list = before ++ directive :: behind
  appliesOn : directive.AppliesOn line
  appliesTo : directive.AppliesTo rule
  reason_eq : directive.reason = some reason
  no_earlier : ∀ earlier ∈ before, earlier.AppliesOn line → earlier.AppliesTo rule →
    earlier.reason = none

/-- The tables and the search say what the list of directives says. -/
structure AreFiled (directives : Directives) : Prop where
  isDisabled_iff : ∀ rule line, directives.isDisabled rule line = true ↔
    ∃ directive ∈ directives.list, directive.AppliesOn line ∧ directive.AppliesTo rule
  isDisabledForFile_iff : ∀ rule, directives.isDisabledForFile rule = true ↔
    ∃ directive ∈ directives.list, directive.scope = .file ∧ directive.AppliesTo rule
  reason?_eq_some_iff : ∀ rule line reason, directives.reason? rule line = some reason ↔
    ∃ before directive behind,
      IsFirstReason directives.list rule line reason before directive behind
  isDisabled_of_reason? : ∀ rule line reason, directives.reason? rule line = some reason →
    directives.isDisabled rule line = true

variable {directives : Directives} {directive : Directive} {rule reason : String} {line : Nat}

/-- The reason is searched for in the list, whatever the tables hold. -/
theorem reason?_eq_some_iff_isFirstReason :
    directives.reason? rule line = some reason ↔
      ∃ before directive behind,
        IsFirstReason directives.list rule line reason before directive behind := by
  have happlies (d : Directive) : (d.covers line && d.names rule) = true ↔
      d.AppliesOn line ∧ d.AppliesTo rule := by
    rw [Bool.and_eq_true, Directive.covers_eq_true_iff, Directive.names_eq_true_iff_appliesTo]
  rw [reason?, ← List.head?_filterMap, List.filterMap_filter, List.head?_filterMap,
    List.findSome?_eq_some_iff]
  simp only [happlies, Option.ite_none_right_eq_some, ite_eq_right_iff, and_imp]
  constructor
  · rintro ⟨before, found, behind, hlist, ⟨⟨hon, hto⟩, hreason⟩, hearlier⟩
    exact ⟨before, found, behind, hlist, hon, hto, hreason, hearlier⟩
  · rintro ⟨before, found, behind, hlist, hon, hto, hreason, hearlier⟩
    exact ⟨before, found, behind, hlist, ⟨⟨hon, hto⟩, hreason⟩, hearlier⟩

/-- A directive is added to the tables and to the list alike. -/
theorem areFiled_add (hfiled : directives.AreFiled) (directive : Directive) :
    (directives.add directive).AreFiled := by
  have hdisabled (rule : String) (line : Nat) :
      (directives.add directive).isDisabled rule line = true ↔
        ∃ found ∈ (directives.add directive).list,
          found.AppliesOn line ∧ found.AppliesTo rule := by
    rw [isDisabled_add, hfiled.isDisabled_iff, list_add, Directive.covers_eq_true_iff,
      Directive.names_eq_true_iff_appliesTo]
    simp only [List.mem_append, List.mem_singleton, or_and_right, exists_or, exists_eq_left]
  refine ⟨hdisabled, fun rule => ?_, fun _ _ _ => reason?_eq_some_iff_isFirstReason, ?_⟩
  · rw [isDisabledForFile_add, hfiled.isDisabledForFile_iff, list_add,
      Directive.names_eq_true_iff_appliesTo]
    simp only [List.mem_append, List.mem_singleton, or_and_right, exists_or, exists_eq_left]
  · intro rule line reason hreason
    obtain ⟨before, found, behind, hfound⟩ := reason?_eq_some_iff_isFirstReason.mp hreason
    refine (hdisabled rule line).mpr ⟨found, ?_, hfound.appliesOn, hfound.appliesTo⟩
    rw [hfound.list_eq]
    exact List.mem_append_right _ List.mem_cons_self

theorem areFiled_empty : ({} : Directives).AreFiled where
  isDisabled_iff _ _ := by simp [isDisabled_eq_true_iff, isDisabledForFile_eq_true_iff]
  isDisabledForFile_iff _ := by simp [isDisabledForFile_eq_true_iff]
  reason?_eq_some_iff _ _ _ := reason?_eq_some_iff_isFirstReason
  isDisabled_of_reason? _ _ _ hreason := by cases hreason

theorem areFiled_foldl_add (hfiled : directives.AreFiled) (list : List Directive) :
    (list.foldl add directives).AreFiled := by
  induction list generalizing directives with
  | nil => exact hfiled
  | cons directive list ih => exact ih (areFiled_add hfiled directive)

/-- The tables that are made of the comments of a text agree with the directives read there. -/
theorem areFiled_parse (source : String) : (parse source).AreFiled :=
  areFiled_foldl_add areFiled_empty _

end Directives

end ReactiveLint
