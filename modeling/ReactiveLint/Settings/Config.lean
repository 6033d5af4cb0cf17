import ReactiveLint.Data.JsonText
import ReactiveLint.Data.Record
import ReactiveLint.Report.Severity
import ReactiveLint.Rules.Registry
import ReactiveLint.Yaml.Block

/-!
# Settings

Settings say which rules run, how severe their reports are and which options they
take.  Layers of settings are merged, the later over the earlier ones.
-/

namespace ReactiveLint

structure EngineSettings where
  parallel : Bool := true
  /-- The number of files at a time, zero for as many as suit the machine. -/
  jobs : Nat := 0
deriving DecidableEq, Repr, Inhabited

/-- How one rule is set: by a level alone, or with options in one of two forms. -/
inductive RuleSetting
  | level (level : String)
  | listed (level : String) (options : Json)
  | detailed (level : String) (options : Json)
deriving Inhabited

namespace RuleSetting

def levelText : RuleSetting → String
  | level text => text
  | listed text _ => text
  | detailed text _ => text

/-- The options of a rule, null when none are given. -/
def options : RuleSetting → Json
  | level _ => .null
  | listed _ options => options
  | detailed _ options => options

/-- A setting of another level that keeps options which a layer below has given. -/
def layeredOver (setting : RuleSetting) (below : Option RuleSetting) : RuleSetting :=
  match setting, below with
  | level text, some below =>
      if below.options.isNull then level text else listed text below.options
  | setting, _ => setting

def ofJson? : Json → Option RuleSetting
  | .str text => some (level text)
  | .list [.str text, options] => some (listed text options.canonical)
  | .object members => do
      let severity ← Json.uniqueMember? "severity" members
      let options ← Json.uniqueMember? "options" members
      let text ← Json.required? Json.asString? severity
      return detailed text ((options.getD .null).canonical)
  | _ => none

end RuleSetting

/-- Reads a level: a severity, or one of the words that turn a rule off. -/
def parseLevel (rule text : String) : Except ConfigError (Option Severity) :=
  let word := Text.Case.lower text
  if ["off", "none", "disable", "disabled"].contains word then .ok none
  else
    match Severity.ofWord? word with
    | some severity => .ok (some severity)
    | none => .error (.invalidSeverity rule text)

def RuleSetting.severity (setting : RuleSetting) (rule : String) :
    Except ConfigError (Option Severity) :=
  parseLevel rule setting.levelText

/-- The settings of rules, one a rule, in the order of their names. -/
structure RuleSettings where
  entries : List (String × RuleSetting)
  ordered : entries.Pairwise fun left right => left.1 < right.1

namespace RuleSettings

instance : EmptyCollection RuleSettings := ⟨⟨[], .nil⟩⟩

instance : Inhabited RuleSettings := ⟨∅⟩

/-- Sets a rule, in the place of an older setting. -/
def putEntry (name : String) (setting : RuleSetting) :
    List (String × RuleSetting) → List (String × RuleSetting)
  | [] => [(name, setting)]
  | (other, old) :: rest =>
      if name < other then (name, setting) :: (other, old) :: rest
      else if name = other then (name, setting) :: rest
      else (other, old) :: putEntry name setting rest

theorem mem_putEntry {name : String} {setting : RuleSetting} {entry : String × RuleSetting}
    {entries : List (String × RuleSetting)} (hentry : entry ∈ putEntry name setting entries) :
    entry = (name, setting) ∨ entry ∈ entries := by
  induction entries with
  | nil => simpa [putEntry] using hentry
  | cons first rest ih =>
      rw [putEntry] at hentry
      split at hentry
      · simpa using hentry
      · split at hentry <;> grind

theorem pairwise_putEntry (name : String) (setting : RuleSetting)
    {entries : List (String × RuleSetting)}
    (hordered : entries.Pairwise fun left right => left.1 < right.1) :
    (putEntry name setting entries).Pairwise fun left right => left.1 < right.1 := by
  induction hordered with
  | nil => exact List.pairwise_singleton _ _
  | @cons first rest hfirst hrest ih =>
      rw [putEntry]
      split
      next hbefore =>
        refine .cons ?_ (.cons hfirst hrest)
        intro entry hentry
        rcases List.mem_cons.mp hentry with rfl | hentry
        · exact hbefore
        · exact String.lt_trans hbefore (hfirst entry hentry)
      next hbefore =>
        split
        next hsame => exact .cons (fun entry hentry => hsame ▸ hfirst entry hentry) hrest
        next hother =>
          refine .cons ?_ ih
          intro entry hentry
          rcases mem_putEntry hentry with rfl | hentry
          · exact Std.lt_of_le_of_ne hbefore (Ne.symm hother)
          · exact hfirst entry hentry

def put (name : String) (setting : RuleSetting) (settings : RuleSettings) : RuleSettings :=
  ⟨putEntry name setting settings.entries, pairwise_putEntry name setting settings.ordered⟩

def ofList (entries : List (String × RuleSetting)) : RuleSettings :=
  entries.foldl (fun settings (name, setting) => put name setting settings) ∅

def lookup (settings : RuleSettings) (name : String) : Option RuleSetting :=
  settings.entries.lookup name

def map {A : Type} (settings : RuleSettings) (write : String × RuleSetting → A) : List A :=
  settings.entries.map write

/-- One setting over a layer. -/
def layer (settings : RuleSettings) (name : String) (setting : RuleSetting) : RuleSettings :=
  settings.put name (setting.layeredOver (settings.lookup name))

/-- A layer over another. -/
def merge (settings upper : RuleSettings) : RuleSettings :=
  upper.entries.foldl (fun settings (name, setting) => settings.layer name setting) settings

end RuleSettings

structure Config where
  /-- Presets and files that these settings are layered over. -/
  bases : List String := []
  engine : EngineSettings := {}
  rules : RuleSettings := ∅
deriving Inhabited

namespace EngineSettings

def ofJson? (json : Json) : Option EngineSettings := do
  match ← Json.recordFields? ["parallel", "jobs"] true json with
  | [parallel, jobs] =>
      return {
        parallel := ← Json.fieldOr? Json.asBool? true parallel
        jobs := ← Json.fieldOr? Json.asWord? 0 jobs }
  | _ => none

end EngineSettings

/-- Reads the setting of one rule. -/
def RuleSettings.entry? (entry : String × Json) : Option (String × RuleSetting) := do
  return (entry.1, ← RuleSetting.ofJson? entry.2)

def RuleSettings.ofJson? : Json → Option RuleSettings
  | .object members => (members.mapM entry?).map ofList
  | _ => none

namespace Config

/-- Reads settings from JSON with its members as they are written. -/
def ofJson? (json : Json) : Option Config := do
  match ← Json.recordFields? ["extends", "engine", "rules"] true json with
  | [bases, engine, rules] =>
      return {
        bases := ← Json.fieldOr? (Json.listOf? Json.asString?) [] bases
        engine := ← Json.fieldOr? EngineSettings.ofJson? {} engine
        rules := ← Json.fieldOr? RuleSettings.ofJson? ∅ rules }
  | _ => none

def parseJson (text : String) : Except ConfigError Config :=
  match (Json.parse? text).bind ofJson? with
  | some config => .ok config
  | none => .error .invalidJson

/-! ## Settings in YAML -/

/-- A map with any scalars for keys; where nothing is written, the map is empty. -/
def yamlMembers? (value? : String → Yaml → Option Json) (yaml : Yaml) : Option Json :=
  match yaml with
  | .map entries => do
      let members ← entries.mapM fun (key, value) => do
        let key ← key.text?
        return (key, ← value? key value)
      return .object members
  | yaml => if yaml.isAbsent then some (.object []) else yaml.toJson?

/-- A list of texts, whatever their values would be. -/
def yamlTexts? (yaml : Yaml) : Option Json :=
  match yaml with
  | .list items => (items.mapM fun (item : Yaml) => item.text?.map Json.str).map Json.list
  | yaml => if yaml.isAbsent then some (.list []) else yaml.toJson?

def yamlField? (name : String) (yaml : Yaml) : Option Json :=
  match name with
  | "extends" => yamlTexts? yaml
  | "engine" => yamlMembers? (fun _ value => value.toJson?) yaml
  | "rules" => yamlMembers? (fun _ value => value.toJson?) yaml
  | _ => yaml.toJson?

def parseYaml (text : String) : Except ConfigError Config :=
  match ((Yaml.parse? text).bind (yamlMembers? yamlField?)).bind ofJson? with
  | some config => .ok config
  | none => .error .invalidYaml

/-! ## Layers -/

/-- A layer of settings over another. -/
def merge (config upper : Config) : Config :=
  let jobs := if upper.engine.jobs = 0 then config.engine.jobs else upper.engine.jobs
  { config with
    engine := { parallel := upper.engine.parallel, jobs }
    rules := config.rules.merge upper.rules }

/-- Sets the level of a rule without options. -/
def setRule (config : Config) (rule level : String) : Config :=
  { config with rules := config.rules.put rule (.level level) }

/-- Checks the names and the levels of the rules. -/
def validate (config : Config) : Except ConfigError Unit :=
  config.rules.entries.forM fun (name, setting) =>
    if (RuleSet.info? name).isNone then .error (.unknownRule name)
    else
      match setting.severity name with
      | .ok _ => .ok ()
      | .error e => .error e

/-- The severity of a rule that is set and on. -/
def ruleSeverity? (config : Config) (rule : String) : Option Severity :=
  match config.rules.lookup rule with
  | some setting => (setting.severity rule).toOption.join
  | none => none

/-! ## Presets -/

/-- Settings that turn rules on as errors. -/
def ofNames (names : List String) : Config :=
  { rules := .ofList (names.map fun name => (name, .level "error")) }

def recommendedRules : List String :=
  [ "no-async-subscribe", "no-create", "no-ignored-notifier", "no-ignored-replay-buffer"
  , "no-ignored-takewhile-value", "no-implicit-any-catch", "no-index", "no-internal"
  , "no-nested-subscribe", "no-redundant-notify", "no-sharereplay", "no-subject-unsubscribe"
  , "no-unbound-methods", "no-unsafe-subject-next", "no-unsafe-takeuntil" ]

/-- The recommended rules, or all that are not deprecated. -/
def preset? : String → Option Config
  | "recommended" => some (ofNames recommendedRules)
  | "all" => some (ofNames ((RuleSet.infos.filter (!·.isDeprecated)).map (·.name)))
  | _ => none

end Config

end ReactiveLint
