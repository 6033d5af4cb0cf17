import Mathlib.Data.List.Sort
import ReactiveLint.Proofs.Data.Lookup
import ReactiveLint.Settings.Config

/-!
# Layers of settings

What layers say of a rule together depends on their settings of that rule alone, and the
settings of rules are known by what they say of each.  So it is decided rule by rule whether
three layers may be grouped either way: they may, unless the middle one takes away options
that the upper one, a level alone, would have kept.
-/

namespace ReactiveLint

/-! ## One rule -/

namespace RuleSetting

variable {lower middle upper : Option RuleSetting} {setting : RuleSetting}

/-- What a setting asks for, in whichever form it is written. -/
def meaning (setting : RuleSetting) : String × Json := (setting.levelText, setting.options)

/-- A level alone, which leaves the options to the layers below. -/
def isPlain : RuleSetting → Bool
  | level _ => true
  | _ => false

/-- What two layers say of a rule together. -/
def joined (lower : Option RuleSetting) : Option RuleSetting → Option RuleSetting
  | none => lower
  | some setting => some (setting.layeredOver lower)

/-- The options that a layer has for a rule. -/
def optionsIn (layer : Option RuleSetting) : Json := (layer.map options).getD .null

/-- The lower layer has options, the middle one has none though it is written in a form with
options, and the upper one is a level alone. -/
structure Drops (lower middle upper : Option RuleSetting) : Prop where
  given : optionsIn lower ≠ .null
  taken : ∃ setting, middle = some setting ∧ setting.isPlain = false ∧ setting.options = .null
  plain : ∃ setting, upper = some setting ∧ setting.isPlain = true

theorem isNull_iff (json : Json) : json.isNull = true ↔ json = .null := by
  cases json <;> simp [Json.isNull]

theorem options_of_isPlain (hplain : setting.isPlain = true) : setting.options = .null := by
  cases setting with
  | level text => rfl
  | listed text options => cases hplain
  | detailed text options => cases hplain

@[simp]
theorem joined_none_left (upper : Option RuleSetting) : joined none upper = upper := by
  cases upper with
  | none => rfl
  | some setting => cases setting <;> rfl

theorem layeredOver_level (text : String) (lower : Option RuleSetting) :
    (level text).layeredOver lower =
      if (optionsIn lower).isNull then level text else listed text (optionsIn lower) := by
  cases lower <;> rfl

/-- A level alone takes its options from below, every other setting has its own. -/
theorem meaning_layeredOver (setting : RuleSetting) (lower : Option RuleSetting) :
    (setting.layeredOver lower).meaning =
      (setting.levelText, if setting.isPlain then optionsIn lower else setting.options) := by
  cases setting with
  | level text =>
      rw [layeredOver_level]
      split
      next hnull => rw [(isNull_iff _).mp hnull]; rfl
      · rfl
  | listed text options => rfl
  | detailed text options => rfl

theorem isPlain_layeredOver (setting : RuleSetting) (lower : Option RuleSetting) :
    (setting.layeredOver lower).isPlain = (setting.isPlain && (optionsIn lower).isNull) := by
  cases setting with
  | level text =>
      rw [layeredOver_level]
      split
      next hnull => rw [hnull]; rfl
      next hnull => rw [Bool.eq_false_iff.mpr hnull]; rfl
  | listed text options => rfl
  | detailed text options => rfl

/-- The options that a level alone takes from two layers are those of the middle one, or else
of the lower one, unless the middle layer takes them away. -/
theorem optionsIn_joined_eq_iff (lower middle : Option RuleSetting) :
    optionsIn (joined lower middle) =
        (if (optionsIn middle).isNull then optionsIn lower else optionsIn middle) ↔
      ¬ (optionsIn lower ≠ .null ∧ ∃ setting, middle = some setting ∧
        setting.isPlain = false ∧ setting.options = .null) := by
  cases middle with
  | none => simp [joined, optionsIn, Json.isNull]
  | some setting =>
      have hjoined : optionsIn (joined lower (some setting)) =
          if setting.isPlain then optionsIn lower else setting.options :=
        congrArg Prod.snd (meaning_layeredOver setting lower)
      have hown : optionsIn (some setting) = setting.options := rfl
      rw [hjoined, hown]
      cases hplain : setting.isPlain with
      | true => simp [options_of_isPlain hplain, Json.isNull, hplain]
      | false =>
          by_cases hnull : setting.options = .null
          · simp [hplain, hnull, Json.isNull, eq_comm (a := Json.null)]
          · simp [hnull, isNull_iff]

/-- Three layers mean the same for a rule in either grouping unless options are dropped. -/
theorem meaning_joined_joined_eq_iff (lower middle upper : Option RuleSetting) :
    (joined (joined lower middle) upper).map meaning =
        (joined lower (joined middle upper)).map meaning ↔ ¬ Drops lower middle upper := by
  cases upper with
  | none =>
      have hkept : ¬ Drops lower middle none := fun hdrops => by
        obtain ⟨_, hnone, -⟩ := hdrops.plain
        cases hnone
      simp [joined, hkept]
  | some setting =>
      have hboth := meaning_layeredOver setting middle
      obtain ⟨hlevel, hoptions⟩ := Prod.mk.inj hboth
      simp only [joined, Option.map_some, Option.some.injEq, meaning_layeredOver, hlevel, hoptions,
        Prod.mk.injEq, true_and, isPlain_layeredOver]
      cases hplain : setting.isPlain with
      | true =>
          refine (optionsIn_joined_eq_iff lower middle).trans (not_congr ?_)
          constructor
          · rintro ⟨hgiven, htaken⟩
            exact ⟨hgiven, htaken, setting, rfl, hplain⟩
          · rintro ⟨hgiven, htaken, -⟩
            exact ⟨hgiven, htaken⟩
      | false =>
          have hkept : ¬ Drops lower middle (some setting) := fun hdrops => by
            obtain ⟨other, hother, hform⟩ := hdrops.plain
            rw [← Option.some.inj hother, hplain] at hform
            cases hform
          simp [hkept]

end RuleSetting

/-! ## All rules -/

namespace RuleSettings

open RuleSetting

variable {left right : RuleSettings} {name : String} {setting : RuleSetting}

theorem lookup_putEntry (name other : String) (setting : RuleSetting)
    (entries : List (String × RuleSetting)) :
    (putEntry name setting entries).lookup other =
      if other = name then some setting else entries.lookup other := by
  induction entries with
  | nil => exact lookup_cons other (name, setting) []
  | cons first rest ih =>
      rw [putEntry]
      split
      · exact lookup_cons other (name, setting) (first :: rest)
      · split
        next hsame =>
          rw [lookup_cons, lookup_cons, ← hsame]
          split <;> rfl
        next hother =>
          rw [lookup_cons, lookup_cons, ih]
          by_cases hfirst : other = first.1
          · simp [hfirst, Ne.symm hother]
          · simp [hfirst]

@[simp]
theorem lookup_put (name other : String) (setting : RuleSetting) (settings : RuleSettings) :
    (settings.put name setting).lookup other =
      if other = name then some setting else settings.lookup other :=
  lookup_putEntry name other setting settings.entries

theorem lookup_eq_none_of_lt {entries : List (String × RuleSetting)}
    (hbefore : ∀ entry ∈ entries, name < entry.1) : entries.lookup name = none := by
  rw [List.lookup_eq_none_iff]
  intro entry hentry
  have hlt := hbefore entry hentry
  simpa using fun hsame : name = entry.1 => String.lt_irrefl _ (hsame ▸ hlt)

theorem lookup_foldl_layer {entries : List (String × RuleSetting)}
    (hordered : entries.Pairwise fun left right => left.1 < right.1) (settings : RuleSettings) :
    (entries.foldl (fun settings (name, setting) => settings.layer name setting) settings).lookup
        name = joined (settings.lookup name) (entries.lookup name) := by
  induction hordered generalizing settings with
  | nil => rfl
  | @cons first rest hfirst _ ih =>
      rw [List.foldl_cons, ih, lookup_cons]
      simp only [layer, lookup_put]
      by_cases hname : name = first.1
      · have hrest : rest.lookup name = none :=
          lookup_eq_none_of_lt fun entry hentry => hname ▸ hfirst entry hentry
        rw [if_pos hname, if_pos hname, hrest, hname]
        rfl
      · rw [if_neg hname, if_neg hname]

/-- What a layer over another says of a rule. -/
@[simp]
theorem lookup_merge (settings upper : RuleSettings) (name : String) :
    (settings.merge upper).lookup name = joined (settings.lookup name) (upper.lookup name) :=
  lookup_foldl_layer upper.ordered settings

theorem mem_entries_iff : (name, setting) ∈ left.entries ↔ left.lookup name = some setting := by
  obtain ⟨entries, hordered⟩ := left
  change _ ↔ entries.lookup name = some setting
  induction hordered with
  | nil => simp
  | @cons first rest hfirst _ ih =>
      rw [List.mem_cons, ih, lookup_cons]
      by_cases hname : name = first.1
      · have hrest : rest.lookup name = none :=
          lookup_eq_none_of_lt fun entry hentry => hname ▸ hfirst entry hentry
        rw [if_pos hname, hrest, Option.some.injEq]
        refine ⟨fun hentry => ?_, fun hvalue => .inl (Prod.ext hname hvalue.symm)⟩
        rcases hentry with rfl | hnone
        · rfl
        · cases hnone
      · simp [hname, Prod.ext_iff]

/-- Settings are known by what they say of each rule. -/
theorem ext_lookup (hlookup : ∀ name, left.lookup name = right.lookup name) : left = right := by
  let before : String × RuleSetting → String × RuleSetting → Prop :=
    fun left right => left.1 < right.1
  have : Std.Irrefl before := ⟨fun entry => String.lt_irrefl entry.1⟩
  have : Std.Antisymm before :=
    ⟨fun _ _ hlt hgt => absurd (String.lt_trans hlt hgt) (String.lt_irrefl _)⟩
  have hentries : left.entries = right.entries :=
    List.Pairwise.eq_of_mem_iff (r := before) left.ordered right.ordered fun entry => by
      rw [mem_entries_iff, mem_entries_iff, hlookup]
  cases left
  cases right
  congr

/-- The settings of several layers, from the lowest to the uppermost. -/
def ofLayers (layers : List RuleSettings) : RuleSettings := layers.foldl merge ∅

@[simp]
theorem lookup_empty (name : String) : (∅ : RuleSettings).lookup name = none := rfl

@[simp]
theorem empty_merge (settings : RuleSettings) : (∅ : RuleSettings).merge settings = settings :=
  ext_lookup fun name => by rw [lookup_merge, lookup_empty, joined_none_left]

theorem ofLayers_singleton (settings : RuleSettings) : ofLayers [settings] = settings :=
  empty_merge settings

end RuleSettings

/-! ## Grouping -/

open RuleSetting

namespace Config

/-- The settings of the engine do not depend on the grouping. -/
theorem engine_merge_merge (lower middle upper : Config) :
    ((lower.merge middle).merge upper).engine = (lower.merge (middle.merge upper)).engine := by
  simp only [merge, EngineSettings.mk.injEq, true_and]
  split <;> simp_all

theorem meaning_lookup_merge_merge_iff (lower middle upper : Config) (name : String) :
    (((lower.merge middle).merge upper).rules.lookup name).map meaning =
        ((lower.merge (middle.merge upper)).rules.lookup name).map meaning ↔
      ¬ Drops (lower.rules.lookup name) (middle.rules.lookup name) (upper.rules.lookup name) := by
  simp only [merge, RuleSettings.lookup_merge]
  exact meaning_joined_joined_eq_iff _ _ _

theorem meaning_lookup_ofLayers_iff (lower middle upper : RuleSettings) (name : String) :
    ((RuleSettings.ofLayers [lower, middle, upper]).lookup name).map meaning =
        ((RuleSettings.ofLayers [lower, .ofLayers [middle, upper]]).lookup name).map meaning ↔
      ¬ Drops (lower.lookup name) (middle.lookup name) (upper.lookup name) := by
  simp only [RuleSettings.ofLayers, List.foldl_cons, List.foldl_nil, RuleSettings.empty_merge,
    RuleSettings.lookup_merge]
  exact meaning_joined_joined_eq_iff _ _ _

/-- Three layers may be grouped either way, and a layer that extends another may be replaced by
the two one after the other: for the engine always, and for a rule unless the middle layer drops
options of the lower one that the upper one would have kept. -/
theorem regroups_iff (lower middle upper : Config) :
    ((lower.merge middle).merge upper).engine = (lower.merge (middle.merge upper)).engine ∧
    ∀ name,
      let drops := Drops (lower.rules.lookup name) (middle.rules.lookup name)
        (upper.rules.lookup name)
      ((((lower.merge middle).merge upper).rules.lookup name).map meaning =
          ((lower.merge (middle.merge upper)).rules.lookup name).map meaning ↔ ¬ drops) ∧
      (((RuleSettings.ofLayers [lower.rules, middle.rules, upper.rules]).lookup name).map meaning =
          ((RuleSettings.ofLayers
            [lower.rules, .ofLayers [middle.rules, upper.rules]]).lookup name).map meaning ↔
        ¬ drops) :=
  ⟨engine_merge_merge lower middle upper, fun name =>
    ⟨meaning_lookup_merge_merge_iff lower middle upper name,
      meaning_lookup_ofLayers_iff lower.rules middle.rules upper.rules name⟩⟩

/-- Settings of one rule. -/
def ofSetting (name : String) (setting : RuleSetting) : Config :=
  { rules := .put name setting ∅ }

/-- Options, no options under a level in the long form, and a level alone. -/
theorem not_forall_regroups :
    ¬ ∀ lower middle upper : Config, ∀ name,
      (((lower.merge middle).merge upper).rules.lookup name).map meaning =
        ((lower.merge (middle.merge upper)).rules.lookup name).map meaning := by
  intro hregroups
  have hsame := hregroups
    (ofSetting "no-sharereplay" (.listed "error" (.object [("allowConfig", .bool false)])))
    (ofSetting "no-sharereplay" (.detailed "warn" .null))
    (ofSetting "no-sharereplay" (.level "info")) "no-sharereplay"
  rw [meaning_lookup_merge_merge_iff] at hsame
  refine hsame ⟨?_, ?_, ?_⟩
  · simp [ofSetting, optionsIn, options]
  · exact ⟨.detailed "warn" .null, by simp [ofSetting], rfl, rfl⟩
  · exact ⟨.level "info", by simp [ofSetting], rfl⟩

end Config

end ReactiveLint
