import Mathlib.Algebra.Ring.Nat
import ReactiveLint.Fix.Batch
import ReactiveLint.Proofs.Files.Path

/-!
# Collecting fixes by file

However the diagnostics arrive, a batch holds those with a fix, each with the file of its
path.  Paths are told apart by their parts, and a file keeps the path that its first
diagnostic has.
-/

namespace ReactiveLint

/-- The diagnostics of a path, in their order. -/
def Diagnostic.ofPath (path : String) (diagnostics : List Diagnostic) : List Diagnostic :=
  diagnostics.filter fun diagnostic => Path.same path diagnostic.location.file

namespace FixBatch

/-- The pending files part the diagnostics by their paths. -/
structure IsCollected (found : List Diagnostic) (pending : List PendingFile) : Prop where
  apart : (pending.map (·.path)).Pairwise fun left right => Path.same left right = false
  diagnostics_eq : ∀ file ∈ pending, file.diagnostics = Diagnostic.ofPath file.path found
  path_eq : ∀ file ∈ pending, ∃ first ∈ file.diagnostics.head?, first.location.file = file.path
  exists_file : ∀ diagnostic ∈ found,
    ∃ file ∈ pending, Path.same file.path diagnostic.location.file = true
  count_eq : (pending.map (·.diagnostics.length)).sum = found.length

variable {found : List Diagnostic} {pending : List PendingFile} {diagnostic : Diagnostic}

theorem isCollected_nil : IsCollected [] [] where
  apart := .nil
  diagnostics_eq _ hfile := nomatch hfile
  path_eq _ hfile := nomatch hfile
  exists_file _ hfound := nomatch hfound
  count_eq := rfl

/-- A diagnostic is added to the first file with its path, or else as a file of its own. -/
theorem addTo_cases (diagnostic : Diagnostic) (pending : List PendingFile) :
    (∃ before file behind, pending = before ++ file :: behind ∧
      Path.same file.path diagnostic.location.file = true ∧
      addTo diagnostic pending =
        before ++ { file with diagnostics := file.diagnostics ++ [diagnostic] } :: behind) ∨
    (∀ file ∈ pending, Path.same file.path diagnostic.location.file = false) ∧
      addTo diagnostic pending = pending ++ [⟨diagnostic.location.file, [diagnostic]⟩] := by
  induction pending with
  | nil => exact .inr ⟨by simp, rfl⟩
  | cons first rest ih =>
      rw [addTo]
      split
      next hsame => exact .inl ⟨[], first, rest, rfl, hsame, rfl⟩
      next hother =>
        rcases ih with ⟨before, file, behind, rfl, hsame, hadded⟩ | ⟨hnone, hadded⟩
        · exact .inl ⟨first :: before, file, behind, rfl, hsame, by rw [hadded]; rfl⟩
        · exact .inr ⟨List.forall_mem_cons.mpr ⟨Bool.eq_false_iff.mpr hother, hnone⟩,
            by rw [hadded]; rfl⟩

theorem ofPath_append_of_same {path : String}
    (hsame : Path.same path diagnostic.location.file = true) :
    Diagnostic.ofPath path (found ++ [diagnostic]) =
      Diagnostic.ofPath path found ++ [diagnostic] := by
  simp [Diagnostic.ofPath, hsame]

theorem ofPath_append_of_apart {path : String}
    (hapart : Path.same path diagnostic.location.file = false) :
    Diagnostic.ofPath path (found ++ [diagnostic]) = Diagnostic.ofPath path found := by
  simp [Diagnostic.ofPath, hapart]

/-- The file of a diagnostic gets it. -/
theorem IsCollected.extend {before behind : List PendingFile} {file : PendingFile}
    (hcollected : IsCollected found (before ++ file :: behind))
    (hsame : Path.same file.path diagnostic.location.file = true) :
    IsCollected (found ++ [diagnostic])
      (before ++ { file with diagnostics := file.diagnostics ++ [diagnostic] } :: behind) := by
  obtain ⟨hapart, hdiagnostics, hpath, hfile, hcount⟩ := hcollected
  have hothers : ∀ other ∈ before ++ behind,
      Path.same other.path diagnostic.location.file = false := by
    rw [List.map_append, List.map_cons, List.pairwise_append, List.pairwise_cons] at hapart
    obtain ⟨-, ⟨hbehind, -⟩, hbefore⟩ := hapart
    intro other hother
    rcases List.mem_append.mp hother with hother | hother
    · have hparted := hbefore _ (List.mem_map_of_mem hother) _ List.mem_cons_self
      rw [Path.same_comm] at hparted
      exact Path.same_eq_false_of_apart hparted hsame
    · exact Path.same_eq_false_of_apart (hbehind _ (List.mem_map_of_mem hother)) hsame
  simp only [List.mem_append, List.mem_cons] at hdiagnostics hpath hfile hothers
  refine ⟨by simpa using hapart, ?diagnostics, ?path, ?file, ?count⟩
  case diagnostics =>
    intro other hother
    rw [List.mem_append, List.mem_cons] at hother
    rcases hother with hother | rfl | hother
    · rw [hdiagnostics other (.inl hother), ofPath_append_of_apart (hothers other (.inl hother))]
    · rw [ofPath_append_of_same hsame, hdiagnostics file (.inr (.inl rfl))]
    · rw [hdiagnostics other (.inr (.inr hother)),
        ofPath_append_of_apart (hothers other (.inr hother))]
  case path =>
    intro other hother
    rw [List.mem_append, List.mem_cons] at hother
    rcases hother with hother | rfl | hother
    · exact hpath other (.inl hother)
    · obtain ⟨first, hfirst, heq⟩ := hpath file (.inr (.inl rfl))
      exact ⟨first, by rw [List.head?_append, hfirst]; rfl, heq⟩
    · exact hpath other (.inr (.inr hother))
  case file =>
    intro other hother
    simp only [List.mem_append, List.mem_cons]
    rcases List.mem_append.mp hother with hother | hother
    · obtain ⟨owner, howner | rfl | howner, howns⟩ := hfile other hother
      · exact ⟨owner, .inl howner, howns⟩
      · exact ⟨_, .inr (.inl rfl), howns⟩
      · exact ⟨owner, .inr (.inr howner), howns⟩
    · obtain rfl := List.mem_singleton.mp hother
      exact ⟨_, .inr (.inl rfl), hsame⟩
  case count =>
    simp only [List.map_append, List.map_cons, List.sum_append, List.sum_cons, List.length_append,
      List.length_singleton] at hcount ⊢
    omega

/-- A diagnostic of a new path is a file of its own. -/
theorem IsCollected.start (hcollected : IsCollected found pending)
    (hnone : ∀ file ∈ pending, Path.same file.path diagnostic.location.file = false) :
    IsCollected (found ++ [diagnostic])
      (pending ++ [⟨diagnostic.location.file, [diagnostic]⟩]) := by
  obtain ⟨hapart, hdiagnostics, hpath, hfile, hcount⟩ := hcollected
  have hnew : Diagnostic.ofPath diagnostic.location.file found = [] := by
    refine List.filter_eq_nil_iff.mpr fun other hother hsame => ?_
    obtain ⟨file, hmem, hfound⟩ := hfile other hother
    have hparted := hnone file hmem
    rw [Path.same_comm] at hparted hfound
    rw [Path.same_comm, Path.same_eq_false_of_apart hparted hsame] at hfound
    cases hfound
  refine ⟨?apart, ?diagnostics, ?path, ?file, ?count⟩
  case apart =>
    rw [List.map_append, List.pairwise_append]
    refine ⟨hapart, List.pairwise_singleton _ _, fun path hold other hother => ?_⟩
    obtain ⟨file, hmem, rfl⟩ := List.mem_map.mp hold
    obtain rfl := List.mem_singleton.mp hother
    exact hnone file hmem
  case diagnostics =>
    intro file hmem
    rcases List.mem_append.mp hmem with hmem | hmem
    · rw [hdiagnostics file hmem, ofPath_append_of_apart (hnone file hmem)]
    · obtain rfl := List.mem_singleton.mp hmem
      rw [ofPath_append_of_same (Path.same_refl _), hnew, List.nil_append]
  case path =>
    intro file hmem
    rcases List.mem_append.mp hmem with hmem | hmem
    · exact hpath file hmem
    · obtain rfl := List.mem_singleton.mp hmem
      exact ⟨diagnostic, rfl, rfl⟩
  case file =>
    intro other hother
    rcases List.mem_append.mp hother with hother | hother
    · obtain ⟨file, hmem, hsame⟩ := hfile other hother
      exact ⟨file, List.mem_append_left _ hmem, hsame⟩
    · obtain rfl := List.mem_singleton.mp hother
      exact ⟨_, List.mem_append_right _ List.mem_cons_self, Path.same_refl _⟩
  case count => simp [hcount]

theorem IsCollected.add (hcollected : IsCollected found pending) (diagnostic : Diagnostic) :
    IsCollected (found ++ [diagnostic]) (addTo diagnostic pending) := by
  rcases addTo_cases diagnostic pending with
    ⟨before, file, behind, rfl, hsame, hadded⟩ | ⟨hnone, hadded⟩
  · rw [hadded]
    exact hcollected.extend hsame
  · rw [hadded]
    exact hcollected.start hnone

theorem IsCollected.addAll (hcollected : IsCollected found pending)
    (diagnostics : List Diagnostic) :
    IsCollected (found ++ diagnostics)
      (diagnostics.foldl (fun pending diagnostic => addTo diagnostic pending) pending) := by
  induction diagnostics generalizing found pending with
  | nil => simpa using hcollected
  | cons diagnostic diagnostics ih =>
      rw [List.foldl_cons, List.append_cons]
      exact ih (hcollected.add diagnostic)

/-! ## Many batches -/

/-- What has been collected after some lists of diagnostics. -/
def ofBatches (mode : FixMode) (batches : List (List Diagnostic)) : FixBatch :=
  batches.foldl collect { mode }

/-- The diagnostics with a fix in the order in which they arrive. -/
def fixable (batches : List (List Diagnostic)) : List Diagnostic :=
  batches.flatten.filter (·.hasFix)

theorem isCollected_foldl_collect {batch : FixBatch} (hcollected : IsCollected found batch.pending)
    (batches : List (List Diagnostic)) :
    IsCollected (found ++ fixable batches) (batches.foldl collect batch).pending ∧
      (batches.foldl collect batch).mode = batch.mode := by
  induction batches generalizing found batch with
  | nil => simpa [fixable] using hcollected
  | cons diagnostics batches ih =>
      have hmore : IsCollected (found ++ diagnostics.filter (·.hasFix))
          (batch.collect diagnostics).pending :=
        hcollected.addAll (diagnostics.filter (·.hasFix))
      have hnext := ih hmore
      rw [fixable, List.flatten_cons, List.filter_append, ← List.append_assoc]
      exact hnext

theorem isCollected_ofBatches (mode : FixMode) (batches : List (List Diagnostic)) :
    IsCollected (fixable batches) (ofBatches mode batches).pending := by
  have hnone : IsCollected [] ({ mode } : FixBatch).pending := isCollected_nil
  exact (isCollected_foldl_collect hnone batches).1

theorem mode_ofBatches (mode : FixMode) (batches : List (List Diagnostic)) :
    (ofBatches mode batches).mode = mode := by
  have hnone : IsCollected [] ({ mode } : FixBatch).pending := isCollected_nil
  exact (isCollected_foldl_collect hnone batches).2

theorem pendingCount_eq (batch : FixBatch) :
    batch.pendingCount = (batch.pending.map (·.diagnostics.length)).sum := by
  rw [pendingCount]
  induction batch.pending with
  | nil => rfl
  | cons file files ih => rw [List.foldr_cons, ih, List.map_cons, List.sum_cons]

end FixBatch

end ReactiveLint
