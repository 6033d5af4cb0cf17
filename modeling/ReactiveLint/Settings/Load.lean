import ReactiveLint.Files.Store
import ReactiveLint.Settings.Config

/-!
# Loading settings

The extension of a file says in which format its settings are.  What a file extends
is layered in order, with its own rules on top; the settings of the engine are those
of the file alone.  Files extend each other only so far, which ends cycles.

How a file is read, and which file a name in another file means, is given from outside, so
that layering stands apart from formats and paths.
-/

namespace ReactiveLint.Config

/-- Reads the settings of one file. -/
def readFile (store : FileStore) (path : String) : Except ConfigError Config :=
  match store.read path with
  | .error _ => .error .unreadableFile
  | .ok text =>
      match (Path.extension? path).getD "" with
      | "yaml" | "yml" => parseYaml text
      | "json" => parseJson text
      | extension => .error (.unknownFormat extension)

/-- The path of a base that a file names. -/
def basePath (path base : String) : String := Path.join ((Path.parent? path).getD ".") base

/-- What a base stands for: a preset, or else a file. -/
def loadBase (load : String → Except ConfigError Config) (base : String) :
    Except ConfigError Config :=
  match preset? base with
  | some preset => .ok preset
  | none => load base

/-- Layers bases in order. -/
def layerBases (load : String → Except ConfigError Config) :
    Config → List String → Except ConfigError Config
  | config, [] => .ok config
  | config, base :: bases => do
      let upper ← loadBase load base
      layerBases load (config.merge upper) bases

/-- The settings of a file over those of its bases. -/
def layered (load : String → Except ConfigError Config) (config : Config) :
    Except ConfigError Config :=
  if config.bases.isEmpty then .ok config
  else do
    let below ← layerBases load {} config.bases
    return { below with engine := config.engine, rules := below.rules.merge config.rules }

/-- Loads a file with chains of bases of limited length. -/
def loadWithin (read : String → Except ConfigError Config) (resolve : String → String → String) :
    Nat → String → Except ConfigError Config
  | 0, _ => .error .tooDeep
  | depth + 1, path => do
      let config ← read path
      layered (fun base => loadWithin read resolve depth (resolve path base)) config

/-- The longest chain of files. -/
def depthLimit : Nat := 10

/-- Loads a file, given how files are read and what a name in a file means. -/
def loadFrom (read : String → Except ConfigError Config) (resolve : String → String → String)
    (path : String) : Except ConfigError Config :=
  loadWithin read resolve depthLimit path

def load (store : FileStore) (path : String) : Except ConfigError Config :=
  loadFrom (readFile store) basePath path

end ReactiveLint.Config
