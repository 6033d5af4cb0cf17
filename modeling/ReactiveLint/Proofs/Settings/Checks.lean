import ReactiveLint.Engine.Linter
import ReactiveLint.Proofs.Data.Result

/-!
# The two checks of settings

Settings can be checked as they are, or by making a linter of them.  The first check asks for
the name and the level of every rule; the second one reads every level as well, but it asks
for the name only where the rule is on.  So a linter is made of settings that the first check
rejects exactly when they turn off a rule that does not exist.
-/

namespace ReactiveLint

/-- A rule of the set has this name. -/
def RuleSet.IsKnown (name : String) : Prop := ∃ entry ∈ ruleSet, entry.info.name = name

theorem RuleSet.find?_isSome_iff {name : String} :
    (find? name).isSome = true ↔ IsKnown name := by
  simp only [find?, List.find?_isSome, beq_iff_eq, IsKnown]

/-- The level that is set for a rule can be read. -/
def RuleSetting.HasLevel (name : String) (setting : RuleSetting) : Prop :=
  ∃ level, setting.severity name = .ok level

/-- The rule is turned off by its level. -/
def RuleSetting.IsOff (name : String) (setting : RuleSetting) : Prop :=
  setting.severity name = .ok none

namespace Linter

variable {name : String} {setting : RuleSetting} {entries : List (String × RuleSetting)}

/-- What is read of an entry before its rule is made: the level always, the name of a rule
that is on. -/
theorem hasLevel_of_configured? {rule : Option ConfiguredRule}
    (hrule : configured? name setting = .ok rule) :
    setting.HasLevel name ∧ (setting.IsOff name ∨ RuleSet.IsKnown name) := by
  unfold configured? at hrule
  split at hrule
  next => cases hrule
  next hoff => exact ⟨⟨none, hoff⟩, .inl hoff⟩
  next severity hon =>
    refine ⟨⟨some severity, hon⟩, .inr (RuleSet.find?_isSome_iff.mp ?_)⟩
    unfold RuleSet.make at hrule
    cases hfound : RuleSet.find? name with
    | some found => rfl
    | none => simp only [hfound, reduceCtorEq] at hrule

/-- Rules are made of the entries when one is made, or known to be off, for each. -/
theorem exists_configuredRules_iff :
    (∃ rules, configuredRules entries = .ok rules) ↔
      ∀ entry ∈ entries, ∃ rule, configured? entry.1 entry.2 = .ok rule := by
  induction entries with
  | nil => exact iff_of_true ⟨[], rfl⟩ (by simp)
  | cons entry entries ih =>
      rw [List.forall_mem_cons, ← ih, configuredRules]
      cases configured? entry.1 entry.2 with
      | error e => simp
      | ok rule => cases configuredRules entries <;> simp

theorem exists_ofConfig_iff {config : Config} :
    (∃ linter, ofConfig config = .ok linter) ↔
      ∀ entry ∈ config.rules.entries, ∃ rule, configured? entry.1 entry.2 = .ok rule := by
  rw [← exists_configuredRules_iff, ofConfig]
  cases configuredRules config.rules.entries <;> simp

end Linter

namespace Config

variable {config : Config}

/-- Settings are valid when every rule in them exists and has a level. -/
theorem validate_eq_ok_iff :
    config.validate = .ok () ↔
      ∀ entry ∈ config.rules.entries, RuleSet.IsKnown entry.1 ∧ entry.2.HasLevel entry.1 := by
  rw [validate, forM_eq_ok_iff]
  refine forall₂_congr fun entry _ => ?_
  rw [← RuleSet.find?_isSome_iff, RuleSetting.HasLevel]
  simp only [RuleSet.info?, Option.isNone_map]
  cases RuleSet.find? entry.1 <;> cases entry.2.severity entry.1 <;> simp

/-- Settings of which a linter is made are valid, those that are not valid make none, and
a name or a level that is wrong is rejected by both checks. -/
structure ChecksAgree (config : Config) : Prop where
  valid_of_linter : (∃ linter, Linter.ofConfig config = .ok linter) → config.validate = .ok ()
  no_linter_of_invalid : (∃ e, config.validate = .error e) →
    ∃ e, Linter.ofConfig config = .error e
  unknown_rejected : ∀ entry ∈ config.rules.entries, ¬ RuleSet.IsKnown entry.1 →
    (∃ e, config.validate = .error e) ∧ ∃ e, Linter.ofConfig config = .error e
  unread_rejected : ∀ entry ∈ config.rules.entries, ¬ entry.2.HasLevel entry.1 →
    (∃ e, config.validate = .error e) ∧ ∃ e, Linter.ofConfig config = .error e

/-- The checks agree unless a linter is made of settings that turn off an unknown rule. -/
theorem checksAgree_iff :
    config.ChecksAgree ↔
      ((∃ linter, Linter.ofConfig config = .ok linter) →
        ∀ entry ∈ config.rules.entries, entry.2.IsOff entry.1 → RuleSet.IsKnown entry.1) := by
  constructor
  · intro hagree hlinter entry hentry _
    exact (validate_eq_ok_iff.mp (hagree.valid_of_linter hlinter) entry hentry).1
  intro hoff
  have hvalid (hlinter : ∃ linter, Linter.ofConfig config = .ok linter) :
      config.validate = .ok () := by
    refine validate_eq_ok_iff.mpr fun entry hentry => ?_
    obtain ⟨rule, hrule⟩ := Linter.exists_ofConfig_iff.mp hlinter entry hentry
    obtain ⟨hlevel, hknown⟩ := Linter.hasLevel_of_configured? hrule
    exact ⟨hknown.elim (hoff hlinter entry hentry) id, hlevel⟩
  -- a linter that is made anyway would make the settings valid
  have hrejected (hinvalid : config.validate ≠ .ok ()) :
      (∃ e, config.validate = .error e) ∧ ∃ e, Linter.ofConfig config = .error e :=
    ⟨exists_error_iff.mpr fun ⟨(), hok⟩ => hinvalid hok, exists_error_iff.mpr (hinvalid ∘ hvalid)⟩
  exact {
    valid_of_linter := hvalid
    no_linter_of_invalid := fun hinvalid =>
      (hrejected fun hok => exists_error_iff.mp hinvalid ⟨(), hok⟩).2
    unknown_rejected := fun entry hentry hunknown =>
      hrejected fun hok => hunknown (validate_eq_ok_iff.mp hok entry hentry).1
    unread_rejected := fun entry hentry hunread =>
      hrejected fun hok => hunread (validate_eq_ok_iff.mp hok entry hentry).2 }

/-- Settings that turn off a rule that does not exist. -/
def unknownOff : Config := ({} : Config).setRule "no-such-rule" "off"

theorem not_forall_checksAgree : ¬ ∀ config : Config, config.ChecksAgree := by
  intro hagree
  have hunknown : ¬ RuleSet.IsKnown "no-such-rule" := by
    rw [← RuleSet.find?_isSome_iff]
    decide +kernel
  have hvalid := (hagree unknownOff).valid_of_linter ⟨_, rfl⟩
  exact hunknown (validate_eq_ok_iff.mp hvalid ("no-such-rule", .level "off") (.head [])).1

end Config

end ReactiveLint
