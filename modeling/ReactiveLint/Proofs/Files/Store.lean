import ReactiveLint.Files.Store
import ReactiveLint.Proofs.Data.Lookup

/-!
# Reading and writing files

Where a path leads depends on the places of the files alone, and writing to a file that a
read has found changes the text there and no place.  So all paths lead to the same places, and
the same paths can be read, before and after any number of such writes.
-/

namespace ReactiveLint.FileStore

variable {store other : FileStore} {path text : String} {place : List String} {e : ReadError}

/-- The stores have files at the same places, with any texts. -/
def SharesPlaces (store other : FileStore) : Prop :=
  store.files.map Prod.fst = other.files.map Prod.fst

/-- Whether a path leads to a place. -/
def leadsTo (store : FileStore) (place : List String) (path : String) : Bool :=
  match store.locate path with
  | .ok found => found == place
  | .error _ => false

def isReadable (store : FileStore) (path : String) : Bool := (store.read path).isOk

theorem leadsTo_eq_true_iff : store.leadsTo place path = true ↔ store.locate path = .ok place := by
  rw [leadsTo]
  cases store.locate path <;> simp

theorem read_eq_ok_iff :
    store.read path = .ok text ↔
      ∃ place, store.locate path = .ok place ∧ store.textAt? place = some text := by
  rw [read]
  cases store.locate path with
  | error e => simp
  | ok place => cases htext : store.textAt? place <;> simp [htext]

/-- A path that leads to a place reads the text there. -/
theorem textAt?_of_leadsTo (hleads : store.leadsTo place path = true) :
    store.textAt? place = (store.read path).toOption := by
  rw [read, leadsTo_eq_true_iff.mp hleads]
  cases htext : store.textAt? place <;> simp [htext, Except.toOption]

theorem isSome_textAt?_iff :
    (store.textAt? place).isSome = true ↔ place ∈ store.files.map Prod.fst := by
  rw [textAt?]
  induction store.files with
  | nil => simp
  | cons file files ih =>
      rw [lookup_cons, List.map_cons, List.mem_cons, ← ih]
      split <;> simp [*]

/-! ## Stores with the same places -/

section Places

variable (hshares : store.SharesPlaces other)

include hshares

theorem SharesPlaces.isSome_textAt?_eq (place : List String) :
    (store.textAt? place).isSome = (other.textAt? place).isSome := by
  rw [Bool.eq_iff_iff, isSome_textAt?_iff, isSome_textAt?_iff, hshares]

theorem SharesPlaces.isDirectory_eq (place : List String) :
    store.isDirectory place = other.isDirectory place := by
  have hany (found : FileStore) :
      (found.files.any fun file => place.isPrefixOf file.1 && file.1 != place) =
        (found.files.map Prod.fst).any fun key => place.isPrefixOf key && key != place := by
    rw [List.any_map]
    rfl
  rw [isDirectory, isDirectory, hany, hany, hshares]

theorem SharesPlaces.walk_eq (place : List String) (parts : List PathPart) :
    store.walk place parts = other.walk place parts := by
  induction parts generalizing place with
  | nil => rfl
  | cons part parts ih =>
      simp only [walk, hshares.isDirectory_eq, hshares.isSome_textAt?_eq, ih]

theorem SharesPlaces.locate_eq (path : String) : store.locate path = other.locate path := by
  simp only [locate, hshares.walk_eq, hshares.isDirectory_eq]

theorem SharesPlaces.leadsTo_eq (place : List String) (path : String) :
    store.leadsTo place path = other.leadsTo place path := by
  rw [leadsTo, leadsTo, hshares.locate_eq]

theorem SharesPlaces.read_eq_error_iff :
    store.read path = .error e ↔ other.read path = .error e := by
  rw [read, read, hshares.locate_eq]
  cases other.locate path with
  | error e => rfl
  | ok place =>
      have hsome := hshares.isSome_textAt?_eq place
      cases htext : store.textAt? place <;> cases hother : other.textAt? place <;>
        simp_all

theorem SharesPlaces.isReadable_eq (path : String) :
    store.isReadable path = other.isReadable path := by
  rw [isReadable, isReadable]
  cases hother : other.read path with
  | error e => rw [hshares.read_eq_error_iff.mpr hother]
  | ok text =>
      cases hstore : store.read path with
      | ok text => rfl
      | error e =>
          rw [hshares.read_eq_error_iff, hother] at hstore
          cases hstore

end Places

/-! ## Writing -/

theorem lookup_putAt (place found : List String) (text : String)
    (files : List (List String × String)) :
    (putAt place text files).lookup found =
      if found = place then some text else files.lookup found := by
  induction files with
  | nil => rw [putAt, lookup_cons]
  | cons file files ih =>
      rw [putAt]
      split
      next hfile =>
        rw [lookup_cons, lookup_cons, hfile]
        split <;> rfl
      next hfile =>
        rw [lookup_cons, ih, lookup_cons]
        by_cases hfound : found = file.1
        · rw [if_pos hfound, if_pos hfound, if_neg (hfound ▸ hfile)]
        · rw [if_neg hfound, if_neg hfound]

theorem map_fst_putAt {files : List (List String × String)}
    (hplace : place ∈ files.map Prod.fst) :
    (putAt place text files).map Prod.fst = files.map Prod.fst := by
  induction files with
  | nil => simp at hplace
  | cons file files ih =>
      rw [putAt]
      split
      next hfile => simp [hfile]
      next hfile =>
        have hrest : place ∈ files.map Prod.fst :=
          (List.mem_cons.mp hplace).resolve_left (Ne.symm hfile)
        rw [List.map_cons, List.map_cons, ih hrest]

variable {before : String} (hread : store.read path = .ok before)

include hread

theorem sharesPlaces_write : (store.write path text).SharesPlaces store := by
  obtain ⟨place, hplace, htext⟩ := read_eq_ok_iff.mp hread
  rw [SharesPlaces, write, hplace]
  exact map_fst_putAt (isSome_textAt?_iff.mp (Option.isSome_of_eq_some htext))

theorem textAt?_write (place : List String) :
    (store.write path text).textAt? place =
      if store.leadsTo place path then some text else store.textAt? place := by
  obtain ⟨found, hfound, -⟩ := read_eq_ok_iff.mp hread
  rw [write, leadsTo, hfound]
  simp only [textAt?, lookup_putAt, beq_iff_eq]
  exact if_congr eq_comm rfl rfl

end ReactiveLint.FileStore
