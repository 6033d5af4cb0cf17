import Mathlib.Logic.Relation
import ReactiveLint.Proofs.Data.Result
import ReactiveLint.Proofs.Settings.Layers
import ReactiveLint.Settings.Load

/-!
# Files that extend others

A file is loaded exactly when it and all files that its bases lead to can be read and no chain
of them is too long, so never when a chain of bases runs into a cycle.  Its settings are then
the layers of its bases, each loaded in the same way, with its own rules on top.

Files and names in files are kept apart from their texts: `read` and `resolve` stand for any
way to read a file and to find the file that a name in another one means.
-/

namespace ReactiveLint.Config

variable {read : String → Except ConfigError Config} {resolve : String → String → String}
  {load other : String → Except ConfigError Config} {depth : Nat} {path next : String}
  {own config : Config} {files : Set String}

/-- One file names another among its bases. -/
def Extends (read : String → Except ConfigError Config) (resolve : String → String → String)
    (path next : String) : Prop :=
  ∃ own, read path = .ok own ∧ ∃ base ∈ own.bases, preset? base = none ∧ resolve path base = next

/-! ## The bases of one file -/

theorem layerBases_eq_ok_iff {below : Config} {bases : List String} :
    layerBases load below bases = .ok config ↔
      ∃ layers, List.Forall₂ (fun base layer => loadBase load base = .ok layer) bases layers ∧
        config = layers.foldl merge below := by
  induction bases generalizing below with
  | nil => simp [layerBases, eq_comm]
  | cons base bases ih =>
      simp only [layerBases, bind_eq_ok_iff, ih]
      constructor
      · rintro ⟨layer, hlayer, layers, hlayers, rfl⟩
        exact ⟨layer :: layers, .cons hlayer hlayers, rfl⟩
      · rintro ⟨_, _ | ⟨hlayer, hlayers⟩, rfl⟩
        exact ⟨_, hlayer, _, hlayers, rfl⟩

@[simp]
theorem rules_foldl_merge (layers : List Config) (below : Config) :
    (layers.foldl merge below).rules = (layers.map (·.rules)).foldl .merge below.rules := by
  induction layers generalizing below with
  | nil => rfl
  | cons layer layers ih => exact ih _

@[simp]
theorem bases_foldl_merge (layers : List Config) (below : Config) :
    (layers.foldl merge below).bases = below.bases := by
  induction layers generalizing below with
  | nil => rfl
  | cons layer layers ih => exact ih _

/-- The settings of a file over those of its bases: the rules in layers, the engine its own. -/
def onTop (own : Config) (layers : List Config) : Config :=
  { bases := [], engine := own.engine,
    rules := .ofLayers (layers.map (·.rules) ++ [own.rules]) }

theorem layered_eq_ok_iff :
    layered load own = .ok config ↔
      ∃ layers, List.Forall₂ (fun base layer => loadBase load base = .ok layer) own.bases layers ∧
        config = own.onTop layers := by
  rw [layered]
  split
  next hempty =>
    obtain ⟨bases, engine, rules⟩ := own
    obtain rfl : bases = [] := List.isEmpty_iff.mp hempty
    simp [onTop, RuleSettings.ofLayers_singleton, eq_comm]
  next =>
    simp only [bind_eq_ok_iff, layerBases_eq_ok_iff]
    constructor
    · rintro ⟨_, ⟨layers, hlayers, rfl⟩, hconfig⟩
      refine ⟨layers, hlayers, ?_⟩
      rw [← Except.ok.inj hconfig]
      simp [onTop, RuleSettings.ofLayers]
    · rintro ⟨layers, hlayers, rfl⟩
      refine ⟨_, ⟨layers, hlayers, rfl⟩, congrArg Except.ok ?_⟩
      simp [onTop, RuleSettings.ofLayers]

/-! ## Chains of files -/

theorem loadBase_mono (hload : ∀ base config, load base = .ok config → other base = .ok config)
    {base : String} {layer : Config} (hlayer : loadBase load base = .ok layer) :
    loadBase other base = .ok layer := by
  rw [loadBase] at hlayer ⊢
  split
  next preset hpreset => rwa [hpreset] at hlayer
  next hnone =>
    rw [hnone] at hlayer
    exact hload base layer hlayer

theorem exists_loadBase_iff {base : String} :
    (∃ layer, loadBase load base = .ok layer) ↔
      (preset? base = none → ∃ layer, load base = .ok layer) := by
  rw [loadBase]
  split
  next preset hpreset => simp [hpreset]
  next hnone => simp [hnone]

theorem loadWithin_succ_eq_ok_iff :
    loadWithin read resolve (depth + 1) path = .ok config ↔
      ∃ own, read path = .ok own ∧ ∃ layers, List.Forall₂ (fun base layer =>
        loadBase (fun base => loadWithin read resolve depth (resolve path base)) base = .ok layer)
          own.bases layers ∧ config = own.onTop layers := by
  simp only [loadWithin, bind_eq_ok_iff, layered_eq_ok_iff]

/-- What loads with short chains loads the same when longer ones are allowed. -/
theorem loadWithin_mono {more : Nat} (hle : depth ≤ more)
    (hload : loadWithin read resolve depth path = .ok config) :
    loadWithin read resolve more path = .ok config := by
  induction depth generalizing path config more with
  | zero => cases hload
  | succ depth ih =>
      obtain ⟨more, rfl⟩ := Nat.exists_eq_add_of_le' (Nat.lt_of_lt_of_le depth.succ_pos hle)
      obtain ⟨own, hown, layers, hlayers, rfl⟩ := loadWithin_succ_eq_ok_iff.mp hload
      refine loadWithin_succ_eq_ok_iff.mpr ⟨own, hown, layers, hlayers.imp ?_, rfl⟩
      intro base layer
      exact loadBase_mono fun _ _ => ih (Nat.le_of_succ_le_succ hle)

/-- A file loads when it can be read and all files that it extends load. -/
theorem exists_loadWithin_succ_iff :
    (∃ config, loadWithin read resolve (depth + 1) path = .ok config) ↔
      (∃ own, read path = .ok own) ∧ ∀ next, Extends read resolve path next →
        ∃ config, loadWithin read resolve depth next = .ok config := by
  simp only [loadWithin_succ_eq_ok_iff]
  constructor
  · rintro ⟨config, own, hown, layers, hlayers, -⟩
    refine ⟨⟨own, hown⟩, ?_⟩
    rintro _ ⟨other, hother, base, hbase, hfile, rfl⟩
    obtain rfl : own = other := Except.ok.inj (hown.symm.trans hother)
    have hload := exists_loadBase_iff.mp (exists_forall₂_iff.mp ⟨layers, hlayers⟩ base hbase)
    exact hload hfile
  · rintro ⟨⟨own, hown⟩, hnext⟩
    have hload : ∀ base ∈ own.bases, ∃ layer,
        loadBase (fun base => loadWithin read resolve depth (resolve path base)) base =
          .ok layer := by
      intro base hbase
      refine exists_loadBase_iff.mpr fun hfile => ?_
      exact hnext (resolve path base) ⟨own, hown, base, hbase, hfile, rfl⟩
    obtain ⟨layers, hlayers⟩ := exists_forall₂_iff.mpr hload
    exact ⟨own.onTop layers, own, hown, layers, hlayers, rfl⟩

/-- A file loads exactly when every chain of bases from it is short enough and ends in a file
that can be read. -/
theorem exists_loadWithin_iff :
    (∃ config, loadWithin read resolve depth path = .ok config) ↔
      ∀ chain, List.IsChain (Extends read resolve) (path :: chain) →
        (path :: chain).length ≤ depth ∧
          ∃ own, read ((path :: chain).getLast (List.cons_ne_nil path chain)) = .ok own := by
  induction depth generalizing path with
  | zero =>
      constructor
      · rintro ⟨config, hconfig⟩
        cases hconfig
      · intro hchains
        exact absurd (hchains [] (.singleton path)).1 (Nat.not_succ_le_zero 0)
  | succ depth ih =>
      rw [exists_loadWithin_succ_iff]
      simp only [ih]
      constructor
      · rintro ⟨hown, hnext⟩ chain hchain
        cases chain with
        | nil => exact ⟨Nat.succ_le_succ (Nat.zero_le depth), hown⟩
        | cons next chain =>
            obtain ⟨hextends, hrest⟩ := List.isChain_cons_cons.mp hchain
            obtain ⟨hlength, hlast⟩ := hnext next hextends chain hrest
            exact ⟨Nat.succ_le_succ hlength, hlast⟩
      · intro hchains
        refine ⟨(hchains [] (.singleton path)).2, fun next hextends chain hchain => ?_⟩
        obtain ⟨hlength, hlast⟩ :=
          hchains (next :: chain) (List.isChain_cons_cons.mpr ⟨hextends, hchain⟩)
        exact ⟨Nat.le_of_succ_le_succ hlength, hlast⟩

/-- A file does not load if it is one of some files that all extend one of them. -/
theorem not_exists_of_endless
    (hendless : ∀ file ∈ files, ∃ next ∈ files, Extends read resolve file next)
    (hpath : path ∈ files) : ¬ ∃ config, loadWithin read resolve depth path = .ok config := by
  induction depth generalizing path with
  | zero =>
      rintro ⟨config, hconfig⟩
      cases hconfig
  | succ depth ih =>
      intro hload
      obtain ⟨next, hnext, hextends⟩ := hendless path hpath
      exact ih hnext ((exists_loadWithin_succ_iff.mp hload).2 next hextends)

theorem not_exists_of_cycle {file : String}
    (hreaches : Relation.ReflTransGen (Extends read resolve) path file)
    (hcycle : Relation.TransGen (Extends read resolve) file file) :
    ¬ ∃ config, loadWithin read resolve depth path = .ok config := by
  let files : Set String := { start | Relation.ReflTransGen (Extends read resolve) start file }
  have hendless : ∀ start ∈ files, ∃ next ∈ files, Extends read resolve start next := by
    intro start hstart
    -- from the file itself the way goes once around the cycle
    have hsteps : Relation.TransGen (Extends read resolve) start file :=
      Relation.TransGen.trans_right hstart hcycle
    obtain ⟨next, hnext, hrest⟩ := Relation.TransGen.head'_iff.mp hsteps
    exact ⟨next, hrest, hnext⟩
  exact not_exists_of_endless hendless hreaches

/-- Loading ends with an error when a chain of bases has more files than the limit or leads
into a cycle, and with settings exactly when every chain is short enough and leads to a file
that can be read.  The settings are those of the loaded file on top of what its bases load to,
and extend nothing.  `load` is the case of the files and paths of a store. -/
theorem loadFrom_layers (read : String → Except ConfigError Config)
    (resolve : String → String → String) (path : String) :
    (∀ chain, List.IsChain (Extends read resolve) (path :: chain) →
      depthLimit < (path :: chain).length → ∃ error, loadFrom read resolve path = .error error) ∧
    (∀ file, Relation.ReflTransGen (Extends read resolve) path file →
      Relation.TransGen (Extends read resolve) file file →
        ∃ error, loadFrom read resolve path = .error error) ∧
    ((∃ config, loadFrom read resolve path = .ok config) ↔
      ∀ chain, List.IsChain (Extends read resolve) (path :: chain) →
        (path :: chain).length ≤ depthLimit ∧
          ∃ own, read ((path :: chain).getLast (List.cons_ne_nil path chain)) = .ok own) ∧
    ∀ config, loadFrom read resolve path = .ok config →
      ∃ own layers, read path = .ok own ∧
        List.Forall₂ (fun base layer =>
          loadBase (fun base => loadFrom read resolve (resolve path base)) base = .ok layer)
            own.bases layers ∧
        config.rules = .ofLayers (layers.map (·.rules) ++ [own.rules]) ∧
        config.engine = own.engine ∧ config.bases = [] := by
  refine ⟨fun chain hchain hlength => ?_, fun file hreaches hcycle => ?_, exists_loadWithin_iff,
    fun config hconfig => ?_⟩
  · refine exists_error_iff.mpr fun hload => ?_
    exact Nat.not_le_of_lt hlength (exists_loadWithin_iff.mp hload chain hchain).1
  · exact exists_error_iff.mpr (not_exists_of_cycle hreaches hcycle)
  · obtain ⟨own, hown, layers, hlayers, rfl⟩ := loadWithin_succ_eq_ok_iff.mp hconfig
    refine ⟨own, layers, hown, hlayers.imp ?_, rfl, rfl, rfl⟩
    intro base layer
    exact loadBase_mono fun _ _ => loadWithin_mono (Nat.le_succ _)

end ReactiveLint.Config
