import Mathlib.Data.List.Nodup
import Mathlib.Data.List.Perm.Basic

/-!
# Tables as lists of pairs

What `List.lookup` finds in a table that is written out, changed or computed from its keys.
-/

namespace ReactiveLint

theorem lookup_cons {K V : Type*} [BEq K] [LawfulBEq K] [DecidableEq K] (key : K) (first : K × V)
    (rest : List (K × V)) :
    (first :: rest).lookup key = if key = first.1 then some first.2 else rest.lookup key := by
  rw [List.lookup_cons]
  by_cases hkey : key = first.1
  · simp [hkey]
  · simp [hkey, beq_false_of_ne hkey]

/-- A new entry takes the place of those with its key. -/
theorem lookup_replaced {K V : Type*} [BEq K] [LawfulBEq K] [DecidableEq K] (key other : K)
    (value : V) (entries : List (K × V)) :
    ((key, value) :: entries.filter (·.1 != key)).lookup other =
      if other = key then some value else entries.lookup other := by
  rw [lookup_cons]
  split
  next => rfl
  next hother =>
    induction entries with
    | nil => rfl
    | cons first rest ih =>
        by_cases hfirst : first.1 = key
        · have hne : other ≠ first.1 := hfirst ▸ hother
          rw [List.filter_cons_of_neg (by simpa using hfirst), lookup_cons, if_neg hne]
          exact ih
        · rw [List.filter_cons_of_pos (by simpa using hfirst), lookup_cons, lookup_cons, ih]

theorem lookup_map_key {A K V : Type*} [BEq K] [LawfulBEq K] (keyOf : A → K) (value : K → V)
    (key : K) (items : List A) :
    (items.map fun item => (keyOf item, value (keyOf item))).lookup key =
      if items.any (keyOf · == key) then some (value key) else none := by
  induction items with
  | nil => rfl
  | cons item items ih =>
      rw [List.map_cons, List.lookup_cons, List.any_cons, ih, BEq.comm]
      cases hkey : keyOf item == key with
      | true => simp [eq_of_beq hkey]
      | false => rw [Bool.false_or]

theorem lookup_filterMap_key {K V : Type*} [BEq K] [LawfulBEq K] (value? : K → Option V) (key : K)
    (keys : List K) :
    (keys.filterMap fun key => (value? key).map (key, ·)).lookup key =
      if keys.contains key then value? key else none := by
  induction keys with
  | nil => rfl
  | cons first keys ih =>
      rw [List.contains_cons]
      cases hkey : key == first with
      | true =>
          obtain rfl := eq_of_beq hkey
          cases hvalue : value? key <;> simp [hvalue, ih]
      | false => cases hvalue : value? first <;> simp [hvalue, hkey, ih, List.lookup_cons]

theorem map_fst_filter_filterMap {K V : Type*} [BEq V] [LawfulBEq V] (value? : K → Option V)
    (value : V) (keys : List K) :
    ((keys.filterMap fun key => (value? key).map (key, ·)).filter (·.2 == value)).map (·.1) =
      keys.filter fun key => value? key == some value := by
  induction keys with
  | nil => rfl
  | cons key keys ih =>
      cases hvalue : value? key with
      | none => simp [hvalue, ih]
      | some found => by_cases hfound : found = value <;> simp [hvalue, hfound, ih]

/-- Where keys occur once, a search finds exactly the entries. -/
theorem lookup_eq_some_iff_mem {K V : Type*} [BEq K] [LawfulBEq K] [DecidableEq K]
    {entries : List (K × V)} (hnodup : (entries.map Prod.fst).Nodup) {key : K} {value : V} :
    entries.lookup key = some value ↔ (key, value) ∈ entries := by
  induction entries with
  | nil => simp
  | cons first rest ih =>
      obtain ⟨other, found⟩ := first
      obtain ⟨hother, hnodup⟩ := List.nodup_cons.mp hnodup
      rw [lookup_cons, List.mem_cons]
      split
      next hkey =>
        subst hkey
        have hrest : (key, value) ∉ rest := fun hmem =>
          hother (List.mem_map.mpr ⟨(key, value), hmem, rfl⟩)
        simp [hrest, eq_comm]
      next hkey => simp [ih hnodup, hkey]

/-- A search for all keys finds all entries. -/
theorem perm_filterMap_lookup {K V : Type*} [BEq K] [LawfulBEq K] [DecidableEq K]
    {entries : List (K × V)} (hentries : (entries.map Prod.fst).Nodup) {keys : List K}
    (hkeys : keys.Nodup) (hsubset : ∀ entry ∈ entries, entry.1 ∈ keys) :
    (keys.filterMap fun key => (entries.lookup key).map (key, ·)).Perm entries := by
  have hnodup : (keys.filterMap fun key => (entries.lookup key).map (key, ·)).Nodup := by
    apply hkeys.filterMap
    simp only [Option.mem_def, Option.map_eq_some_iff]
    rintro key key' _ ⟨value, -, rfl⟩ ⟨value', -, heq⟩
    exact (Prod.mk.inj heq).1.symm
  rw [List.perm_ext_iff_of_nodup hnodup (hentries.of_map _)]
  rintro ⟨key, value⟩
  simp only [List.mem_filterMap, Option.map_eq_some_iff, lookup_eq_some_iff_mem hentries]
  constructor
  · rintro ⟨_, -, _, hmem, heq⟩
    rwa [heq] at hmem
  · intro hmem
    exact ⟨key, hsubset _ hmem, value, hmem, rfl⟩

end ReactiveLint
