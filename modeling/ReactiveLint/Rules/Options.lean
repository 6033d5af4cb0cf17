import ReactiveLint.Data.Record
import ReactiveLint.Rule.Basic
import ReactiveLint.Settings.Error

/-!
# Options of rules

A rule of the rule set is made from its options.  Null and the empty list stand for
the defaults, and a list of one item for that item.  Patterns in options are read
when the rule is made, so a rule that exists never meets a bad pattern.
-/

namespace ReactiveLint

/-- A rule of the rule set: its description, and how to make it from options. -/
structure BuiltInRule where
  info : RuleInfo
  make : Json → Except ConfigError Rule
  info_eq : ∀ {options rule}, make options = .ok rule → rule.info = info

namespace Options

/-- The options to be read, `none` for the defaults. -/
def given? : Json → Option Json
  | .null => none
  | .list [] => none
  | .list [item] => some item
  | json => some json

/-- Reads options of a given form. -/
def read {Settings : Type} (rule : String) (read? : Json → Option Settings)
    (default : Settings) (options : Json) : Except ConfigError Settings :=
  match given? options with
  | none => .ok default
  | some json =>
      match read? json with
      | some settings => .ok settings
      | none => .error (.invalidOptions rule)

/-- The options of a rule that takes none. -/
def readNone (rule : String) : Json → Except ConfigError Unit
  | .null => .ok ()
  | .list [] => .ok ()
  | .object [] => .ok ()
  | _ => .error (.takesNoOptions rule)

/-- A rule from the listeners that its options lead to. -/
def makeRule (result : Except SelectorError Rule) : Except ConfigError Rule :=
  match result with
  | .ok rule => .ok rule
  | .error e => .error (.invalidSelector e)

theorem info_eq_of_makeRule {info : RuleInfo} {State : Type} {start : State}
    {handlers : List (String × Handler State)} {rule : Rule}
    (hmake : makeRule (Rule.ofHandlers? info State start handlers) = .ok rule) :
    rule.info = info := by
  rw [Rule.ofHandlers?] at hmake
  split at hmake
  · exact Except.ok.inj hmake ▸ rfl
  · cases hmake

def compile (rule pattern : String) : Except ConfigError Pattern :=
  match Pattern.parse? pattern with
  | some compiled => .ok compiled
  | none => .error (.invalidPattern rule pattern)

/-- Patterns of names, and whether the names that fit are checked. -/
def compileMap (rule : String) (entries : List (String × Bool)) :
    Except ConfigError (List (Pattern × Bool)) :=
  entries.mapM fun (pattern, validate) => do return (← compile rule pattern, validate)

/-- Types whose names need not follow the rules of names. -/
def exemptTypes : List (String × Bool) := [("^EventEmitter$", false)]

end Options

namespace BuiltInRule

/-- A rule without options and without a state. -/
def ofChecks (info : RuleInfo) (checks : List (String × Check)) : BuiltInRule where
  info := info
  make options :=
    match Options.readNone info.name options with
    | .ok () => Options.makeRule (Rule.ofChecks? info checks)
    | .error e => .error e
  info_eq hmake := by
    split at hmake
    · exact Options.info_eq_of_makeRule hmake
    · cases hmake

/-- A rule without options. -/
def ofHandlers (info : RuleInfo) (State : Type) (start : State)
    (handlers : List (String × Handler State)) : BuiltInRule where
  info := info
  make options :=
    match Options.readNone info.name options with
    | .ok () => Options.makeRule (Rule.ofHandlers? info State start handlers)
    | .error e => .error e
  info_eq hmake := by
    split at hmake
    · exact Options.info_eq_of_makeRule hmake
    · cases hmake

/-- A rule without a state whose checks depend on its settings. -/
def ofSettings {Settings : Type} (info : RuleInfo)
    (settings : Json → Except ConfigError Settings) (checks : Settings → List (String × Check)) :
    BuiltInRule where
  info := info
  make options :=
    match settings options with
    | .ok settings => Options.makeRule (Rule.ofChecks? info (checks settings))
    | .error e => .error e
  info_eq hmake := by
    split at hmake
    · exact Options.info_eq_of_makeRule hmake
    · cases hmake

end BuiltInRule

/-- What stands behind a name in a list of bans. -/
inductive Ban
  | enabled (value : Bool)
  | explained (text : String)
deriving DecidableEq, Repr

namespace Ban

def ofJson? : Json → Option Ban
  | .bool value => some (enabled value)
  | .str text => some (explained text)
  | _ => none

/-- What a report adds to the name, `none` when the name is not banned. -/
def explanation? : Ban → Option String
  | enabled false => none
  | enabled true => some ""
  | explained text => some s!": {text}"

end Ban

/-- Banned names as patterns, with explanations. -/
abbrev BanList := List (Pattern × String)

namespace BanList

/-- The pattern of a name that must fit as a whole. -/
def wholeName (name : String) : String := "^" ++ name ++ "$"

/-- Reads the patterns of the entries that ban something, in the order of names. -/
def compile (rule : String) (entries : List (String × Ban)) : Except ConfigError BanList :=
  (entries.filterMap fun (name, ban) => ban.explanation?.map (name, ·)).mapM
    fun (name, explanation) => do return (← Options.compile rule (wholeName name), explanation)

/-- The explanation of the first entry that a name fits. -/
def explanation? (bans : BanList) (name : String) : Option String :=
  (bans.find? fun entry => entry.1.isMatch name).map (·.2)

def read (rule : String) (options : Json) : Except ConfigError BanList := do
  let entries ← Options.read rule (Json.mapOf? Ban.ofJson?) [] options
  compile rule entries

end BanList

end ReactiveLint
