import ReactiveLint.Proofs.Files.Store
import ReactiveLint.Proofs.Fix.Collected
import ReactiveLint.Proofs.Fix.Reread
import ReactiveLint.Proofs.Order.StableSort

/-!
# Fixing the files of a batch

A run takes the pending files one after another, in the order of their paths.  What it makes
of a file depends on the text there and on the fixes of the paths that lead to it, and what it
counts and reports is put together from the pending files one by one.  Where one path leads to
a file, the file is fixed as it would be alone.
-/

namespace ReactiveLint

/-! ## One text -/

section Text

variable {source : String} {diagnostics : List Diagnostic}

/-- Where no fix is applied, the text is as before. -/
theorem output_applyFixes_of_not_isChanged
    (hsame : (applyFixes source diagnostics).isChanged = false) :
    (applyFixes source diagnostics).output = source := by
  have hnone : (fixPass source diagnostics).applied = [] := by
    simpa [FixOutput.isChanged, applyFixes] using hsame
  rw [← String.toList_inj, toList_output_applyFixes, appliedEdits, hnone]
  exact Fix.onward_zero _

theorem FixPass.length_foldl_step (cs : List Char) (size : Nat) (offers : List OfferedFix)
    (pass : FixPass) :
    (offers.foldl (step cs size) pass).applied.length +
        (offers.foldl (step cs size) pass).skipped.length =
      pass.applied.length + pass.skipped.length + offers.length := by
  induction offers generalizing pass with
  | nil => rfl
  | cons offered offers ih =>
      rw [List.foldl_cons, ih, List.length_cons]
      rcases step_cases cs size pass offered with hskip | ⟨-, -, htake⟩
      · simp only [hskip, List.length_append, List.length_singleton]
        omega
      · simp only [htake, List.length_append, List.length_singleton]
        omega

/-- Every fix is applied or skipped. -/
theorem length_applied_add_skipped (source : String) (diagnostics : List Diagnostic) :
    (applyFixes source diagnostics).applied.length + (applyFixes source diagnostics).skipped =
      diagnostics.countP (·.hasFix) := by
  have hpass := FixPass.length_foldl_step source.toList (Text.byteLength source.toList)
    (offeredFixes diagnostics) {}
  rw [← length_offers, ← (perm_offeredFixes diagnostics).length_eq, applyFixes, List.length_map]
  rw [List.length_nil, Nat.zero_add] at hpass
  exact hpass

end Text

/-- A summary with these errors in the place of its own. -/
def FixSummary.withErrors (summary : FixSummary) (errors : List String) : FixSummary :=
  { summary with errors }

namespace FixBatch

variable {mode : FixMode} {store start : FileStore} {summary : FixSummary} {file : PendingFile}
  {files done : List PendingFile} {state : FileStore × FixSummary}

/-! ## What one file comes to -/

/-- What some pending files make of the text of the file that they lead to, one after another. -/
def rewritten (files : List PendingFile) (source : String) : String :=
  files.foldl (fun source file => (applyFixes source file.diagnostics).output) source

/-- The pending files that lead to a place. -/
def leading (store : FileStore) (place : List String) (files : List PendingFile) :
    List PendingFile :=
  files.filter fun file => store.leadsTo place file.path

/-- The pending files that can be read. -/
def readable (store : FileStore) (files : List PendingFile) : List PendingFile :=
  files.filter fun file => store.isReadable file.path

/-- The error of a file that cannot be read. -/
def failure? (store : FileStore) (file : PendingFile) : Option String :=
  match store.read file.path with
  | .error e => some s!"Failed to read {file.path}: {e.message}"
  | .ok _ => none

/-- The difference that the fixes of a file make, if any is applied. -/
def difference? (store : FileStore) (file : PendingFile) : Option (String × String) :=
  match store.read file.path with
  | .error _ => none
  | .ok source =>
      let fixed := applyFixes source file.diagnostics
      if fixed.isChanged then some (file.path, unifiedDiff file.path source fixed.output)
      else none

/-- The number of fixes of some files. -/
def fixCount (files : List PendingFile) : Nat :=
  (files.map (·.diagnostics.countP (·.hasFix))).sum

theorem runFile_of_error {e : ReadError} (hread : store.read file.path = .error e) :
    runFile mode (store, summary) file =
      (store, { summary with
        errors := summary.errors ++ [s!"Failed to read {file.path}: {e.message}"] }) := by
  simp only [runFile, hread]

theorem sharesPlaces_runFile (mode : FixMode) (state : FileStore × FixSummary)
    (file : PendingFile) : (runFile mode state file).1.SharesPlaces state.1 := by
  obtain ⟨store, summary⟩ := state
  cases hread : store.read file.path with
  | error e => rw [runFile_of_error hread]; rfl
  | ok source =>
      simp only [runFile, hread]
      split
      · rfl
      · cases mode with
        | apply => exact FileStore.sharesPlaces_write hread
        | diff => rfl

@[simp]
theorem rewritten_nil (source : String) : rewritten [] source = source := rfl

theorem rewritten_append (first second : List PendingFile) (source : String) :
    rewritten (first ++ second) source = rewritten second (rewritten first source) :=
  List.foldl_append

theorem leading_append (store : FileStore) (place : List String) (first second : List PendingFile) :
    leading store place (first ++ second) =
      leading store place first ++ leading store place second :=
  List.filter_append ..

theorem readable_cons (store : FileStore) (file : PendingFile) (files : List PendingFile) :
    readable store (file :: files) =
      if store.isReadable file.path then file :: readable store files else readable store files :=
  List.filter_cons

theorem leading_singleton (store : FileStore) (place : List String) (file : PendingFile) :
    leading store place [file] = if store.leadsTo place file.path then [file] else [] := by
  rw [leading]
  split <;> simp [*]

/-- The text at a place after one file is fixed. -/
theorem textAt?_runFile (place : List String) :
    (runFile .apply (store, summary) file).1.textAt? place =
      (store.textAt? place).map (rewritten (leading store place [file])) := by
  rw [leading_singleton]
  cases hleads : store.leadsTo place file.path with
  | false =>
      rw [if_neg Bool.false_ne_true, show rewritten [] = id from rfl, Option.map_id, id]
      cases hread : store.read file.path with
      | error e => rw [runFile_of_error hread]
      | ok source =>
          simp only [runFile, hread]
          split
          · rfl
          · rw [FileStore.textAt?_write hread, hleads, if_neg Bool.false_ne_true]
  | true =>
      rw [if_pos rfl, FileStore.textAt?_of_leadsTo hleads]
      cases hread : store.read file.path with
      | error e => rw [runFile_of_error hread, FileStore.textAt?_of_leadsTo hleads, hread]; rfl
      | ok source =>
          simp only [runFile, hread]
          split
          next hsame =>
            rw [Bool.not_eq_true'] at hsame
            rw [FileStore.textAt?_of_leadsTo hleads, hread]
            exact congrArg some (output_applyFixes_of_not_isChanged hsame).symm
          next hchanged => rw [FileStore.textAt?_write hread, hleads, if_pos rfl]; rfl

theorem store_runFile_diff : (runFile .diff (store, summary) file).1 = store := by
  rw [runFile]
  cases store.read file.path with
  | error e => rfl
  | ok source => simp only; split <;> rfl

theorem errors_runFile :
    (runFile mode (store, summary) file).2.errors =
      summary.errors ++ (failure? store file).toList := by
  rw [runFile, failure?]
  cases store.read file.path with
  | error e => rfl
  | ok source =>
      simp only [Option.toList_none, List.append_nil]
      split
      · rfl
      · cases mode <;> rfl

theorem diffs_runFile_apply : (runFile .apply (store, summary) file).2.diffs = summary.diffs := by
  rw [runFile]
  cases store.read file.path with
  | error e => rfl
  | ok source => simp only; split <;> rfl

theorem diffs_runFile_diff :
    (runFile .diff (store, summary) file).2.diffs =
      summary.diffs ++ (difference? store file).toList := by
  rw [runFile, difference?]
  cases store.read file.path with
  | error e => simp
  | ok source =>
      cases hchanged : (applyFixes source file.diagnostics).isChanged <;> simp [hchanged]

theorem count_runFile :
    (runFile mode (store, summary) file).2.applied +
        (runFile mode (store, summary) file).2.skipped =
      summary.applied + summary.skipped + fixCount (readable store [file]) := by
  cases hread : store.read file.path with
  | error e =>
      rw [runFile_of_error hread, readable_cons, FileStore.isReadable, hread]
      rfl
  | ok source =>
      have hone : readable store [file] = [file] := by
        rw [readable_cons, FileStore.isReadable, hread]
        rfl
      have hcount : fixCount [file] = file.diagnostics.countP (·.hasFix) := by simp [fixCount]
      have hfixes := length_applied_add_skipped source file.diagnostics
      rw [hone, hcount, ← hfixes]
      simp only [runFile, hread]
      split
      · simp only; omega
      · cases mode <;> (simp only; omega)

section Places

variable (hshares : store.SharesPlaces start)

include hshares

theorem leading_congr (place : List String) (files : List PendingFile) :
    leading store place files = leading start place files :=
  List.filter_congr fun _ _ => hshares.leadsTo_eq place _

theorem readable_congr (files : List PendingFile) : readable store files = readable start files :=
  List.filter_congr fun _ _ => hshares.isReadable_eq _

theorem failure?_congr (file : PendingFile) : failure? store file = failure? start file := by
  rw [failure?, failure?]
  cases hread : start.read file.path with
  | error e => rw [hshares.read_eq_error_iff.mpr hread]
  | ok source =>
      cases hother : store.read file.path with
      | ok other => rfl
      | error e =>
          rw [hshares.read_eq_error_iff, hread] at hother
          cases hother

end Places

/-! ## A run -/

/-- A run from a store has come to this state after some pending files. -/
structure Follows (mode : FixMode) (start : FileStore) (done : List PendingFile)
    (state : FileStore × FixSummary) : Prop where
  sharesPlaces : state.1.SharesPlaces start
  store_eq : mode = .diff → state.1 = start
  textAt?_eq : mode = .apply → ∀ place,
    state.1.textAt? place = (start.textAt? place).map (rewritten (leading start place done))
  errors_eq : state.2.errors = done.filterMap (failure? start)
  diffs_eq_nil : mode = .apply → state.2.diffs = []
  diffs_eq : mode = .diff → state.2.diffs = done.filterMap (difference? start)
  count_eq : state.2.applied + state.2.skipped = fixCount (readable start done)

theorem follows_start (mode : FixMode) (start : FileStore) : Follows mode start [] (start, {}) where
  sharesPlaces := rfl
  store_eq _ := rfl
  textAt?_eq _ _ := Option.map_id'.symm
  errors_eq := rfl
  diffs_eq_nil _ := rfl
  diffs_eq _ := rfl
  count_eq := rfl

/-- A file adds to the summary what it comes to in the store of the start. -/
theorem Follows.runFile (hfollows : Follows mode start done state) (file : PendingFile) :
    Follows mode start (done ++ [file]) (runFile mode state file) := by
  obtain ⟨store, summary⟩ := state
  obtain ⟨hshares, hstore, htext, herrors, hnodiffs, hdiffs, hcount⟩ := hfollows
  simp only at hshares hstore htext herrors hnodiffs hdiffs hcount
  refine ⟨(sharesPlaces_runFile mode _ file).trans hshares,
    ?store, ?text, ?errors, ?nodiffs, ?diffs, ?count⟩
  case store =>
    rintro rfl
    rw [store_runFile_diff, hstore rfl]
  case text =>
    rintro rfl place
    rw [textAt?_runFile, htext rfl, Option.map_map, leading_append]
    refine congrArg (Option.map · (start.textAt? place)) (funext fun source => ?_)
    rw [rewritten_append, leading_congr hshares]
    rfl
  case errors =>
    rw [errors_runFile, herrors, failure?_congr hshares, List.filterMap_append]
    rfl
  case nodiffs =>
    rintro rfl
    rw [diffs_runFile_apply, hnodiffs rfl]
  case diffs =>
    rintro rfl
    obtain rfl := hstore rfl
    rw [diffs_runFile_diff, hdiffs rfl, List.filterMap_append]
    rfl
  case count =>
    rw [count_runFile, hcount, readable_congr hshares, readable, readable, readable,
      List.filter_append, fixCount, fixCount, fixCount, List.map_append, List.sum_append]

theorem Follows.foldl_runFile (hfollows : Follows mode start done state)
    (files : List PendingFile) :
    Follows mode start (done ++ files) (files.foldl (FixBatch.runFile mode) state) := by
  induction files generalizing done state with
  | nil => simpa using hfollows
  | cons file files ih =>
      rw [List.foldl_cons, List.append_cons]
      exact ih (hfollows.runFile file)

/-- A file that can be read is fixed alike whatever errors there were. -/
theorem runFile_withErrors {source : String} (hread : store.read file.path = .ok source)
    (errors : List String) :
    runFile mode (store, summary.withErrors errors) file =
      ((runFile mode (store, summary) file).1,
        (runFile mode (store, summary) file).2.withErrors errors) := by
  simp only [runFile, hread]
  split
  · rfl
  · cases mode <;> rfl

/-- The files that cannot be read make no difference but for the errors. -/
theorem foldl_runFile_readable (hshares : state.1.SharesPlaces start) (errors : List String) :
    (readable start files).foldl (runFile mode) (state.1, state.2.withErrors errors) =
      ((files.foldl (runFile mode) state).1,
        (files.foldl (runFile mode) state).2.withErrors errors) := by
  induction files generalizing state with
  | nil => rfl
  | cons file files ih =>
      obtain ⟨store, summary⟩ := state
      rw [List.foldl_cons, ← ih ((sharesPlaces_runFile mode _ file).trans hshares), readable_cons]
      cases hread : store.read file.path with
      | error e =>
          have hnone : start.isReadable file.path = false := by
            rw [FileStore.isReadable, hshares.read_eq_error_iff.mp hread]
            rfl
          rw [hnone, runFile_of_error hread]
          rfl
      | ok source =>
          have hone : start.isReadable file.path = true := by
            rw [← hshares.isReadable_eq, FileStore.isReadable, hread]
            rfl
          rw [hone, if_pos rfl, List.foldl_cons, runFile_withErrors hread]

/-! ## The files of a batch -/

/-- The pending files that can be read, as a batch. -/
def onlyReadable (batch : FixBatch) (store : FileStore) : FixBatch :=
  { batch with pending := readable store batch.pending }

/-- A run treats the files of a batch one by one. -/
structure TreatsApart (batch : FixBatch) (store : FileStore) : Prop where
  sharesPlaces : (batch.run store).1.SharesPlaces store
  /-- A file to which no pending path leads keeps its text. -/
  kept : ∀ place, leading store place batch.pending = [] →
    (batch.run store).1.textAt? place = store.textAt? place
  /-- A file to which one pending path leads is fixed as it would be alone. -/
  fixed : batch.mode = .apply → ∀ place file, leading store place batch.pending = [file] →
    (batch.run store).1.textAt? place =
      (store.textAt? place).map fun source => (applyFixes source file.diagnostics).output
  /-- Where several pending paths lead, each fixes what those before it have left. -/
  rewritten : batch.mode = .apply → ∀ place, (batch.run store).1.textAt? place =
    (store.textAt? place).map (rewritten (leading store place batch.orderedFiles))
  store_eq : batch.mode = .diff → (batch.run store).1 = store
  diffs_eq_nil : batch.mode = .apply → (batch.run store).2.diffs = []
  mem_diffs_iff : batch.mode = .diff → ∀ path diff, (path, diff) ∈ (batch.run store).2.diffs ↔
    ∃ file ∈ batch.pending, ∃ source, store.read file.path = .ok source ∧
      (applyFixes source file.diagnostics).applied ≠ [] ∧ path = file.path ∧
      diff = unifiedDiff path source (applyFixes source file.diagnostics).output
  diffs_inOrder : (batch.run store).2.diffs.Pairwise fun left right =>
    Path.before left.1 right.1 = true
  /-- Each file that cannot be read adds its error. -/
  errors_eq : (batch.run store).2.errors = batch.orderedFiles.filterMap (failure? store)
  run_onlyReadable : (batch.onlyReadable store).run store =
    ((batch.run store).1, (batch.run store).2.withErrors [])
  count_eq : (batch.run store).2.applied + (batch.run store).2.skipped =
    (batch.onlyReadable store).pendingCount

variable {found : List Diagnostic} {batch : FixBatch}

theorem follows_run (batch : FixBatch) (store : FileStore) :
    Follows batch.mode store batch.orderedFiles (batch.run store) :=
  (follows_start batch.mode store).foldl_runFile batch.orderedFiles

theorem perm_orderedFiles (batch : FixBatch) : batch.orderedFiles.Perm batch.pending :=
  StableSort.perm_sort _ _

theorem notAfter_trans (first second third : PendingFile)
    (hfirst : (!Path.before second.path first.path) = true)
    (hsecond : (!Path.before third.path second.path) = true) :
    (!Path.before third.path first.path) = true :=
  Path.not_before_trans hfirst hsecond

theorem orderedFiles_onlyReadable (batch : FixBatch) (store : FileStore) :
    (batch.onlyReadable store).orderedFiles = readable store batch.orderedFiles :=
  (StableSort.filter_sort notAfter_trans (fun _ _ => Path.not_before_total _ _) _ _).symm

/-- The files of a batch are in the order of their paths, no two at the same place in it. -/
theorem pairwise_orderedFiles (hcollected : IsCollected found batch.pending) :
    batch.orderedFiles.Pairwise fun left right => Path.before left.path right.path = true := by
  have hsorted := StableSort.pairwise_sort notAfter_trans (fun _ _ => Path.not_before_total _ _)
    batch.pending
  have hapart : batch.orderedFiles.Pairwise fun left right =>
      Path.same left.path right.path = false :=
    (List.pairwise_map.mp hcollected.apart).perm (perm_orderedFiles batch).symm
      fun hpair => by rwa [Path.same_comm]
  refine (hsorted.and hapart).imp fun {left right} ⟨hnotAfter, hother⟩ => ?_
  rw [Bool.not_eq_true'] at hnotAfter
  by_contra hnotBefore
  rw [Path.same_of_not_before (Bool.eq_false_iff.mpr hnotBefore) hnotAfter] at hother
  cases hother

theorem difference?_eq_some_iff {path diff : String} :
    difference? store file = some (path, diff) ↔
      ∃ source, store.read file.path = .ok source ∧
        (applyFixes source file.diagnostics).applied ≠ [] ∧ path = file.path ∧
        diff = unifiedDiff path source (applyFixes source file.diagnostics).output := by
  rw [difference?]
  cases store.read file.path with
  | error e => simp
  | ok source =>
      simp only [FixOutput.isChanged, Bool.not_eq_true', List.isEmpty_eq_false_iff,
        Option.ite_none_right_eq_some, Option.some.injEq, Prod.mk.injEq, Except.ok.injEq,
        exists_eq_left']
      refine and_congr_right fun _ => ?_
      constructor
      · rintro ⟨rfl, rfl⟩
        exact ⟨rfl, rfl⟩
      · rintro ⟨rfl, rfl⟩
        exact ⟨rfl, rfl⟩

theorem fixCount_eq (hfix : ∀ file ∈ files, ∀ diagnostic ∈ file.diagnostics,
    diagnostic.hasFix = true) : fixCount files = (files.map (·.diagnostics.length)).sum := by
  rw [fixCount, List.map_congr_left fun file hfile => List.countP_eq_length.mpr (hfix file hfile)]

theorem IsCollected.treatsApart (hcollected : IsCollected found batch.pending)
    (hfound : ∀ diagnostic ∈ found, diagnostic.hasFix = true) (store : FileStore) :
    batch.TreatsApart store := by
  have hfollows := follows_run batch store
  have hperm := perm_orderedFiles batch
  have hleading (place : List String) :
      (leading store place batch.orderedFiles).Perm (leading store place batch.pending) :=
    hperm.filter _
  have hreadable : (readable store batch.orderedFiles).Perm (readable store batch.pending) :=
    hperm.filter _
  exact {
    sharesPlaces := hfollows.sharesPlaces
    kept := by
      intro place hnone
      have hempty := List.perm_nil.mp (hnone ▸ hleading place)
      cases hmode : batch.mode with
      | diff => rw [hfollows.store_eq hmode]
      | apply =>
          rw [hfollows.textAt?_eq hmode, hempty]
          exact Option.map_id'
    fixed := by
      intro hmode place file hone
      have halone : leading store place batch.orderedFiles = [file] :=
        List.perm_singleton.mp (hone ▸ hleading place)
      rw [hfollows.textAt?_eq hmode, halone]
      rfl
    rewritten := hfollows.textAt?_eq
    store_eq := hfollows.store_eq
    diffs_eq_nil := hfollows.diffs_eq_nil
    mem_diffs_iff := by
      intro hmode path diff
      rw [hfollows.diffs_eq hmode, List.mem_filterMap]
      simp only [hperm.mem_iff, difference?_eq_some_iff]
    diffs_inOrder := by
      cases hmode : batch.mode with
      | apply => rw [hfollows.diffs_eq_nil hmode]; exact .nil
      | diff =>
          rw [hfollows.diffs_eq hmode]
          refine (pairwise_orderedFiles hcollected).filterMap _ ?_
          rintro left right hbefore ⟨path, diff⟩ hleft ⟨other, difference⟩ hright
          obtain ⟨-, -, -, rfl, -⟩ := difference?_eq_some_iff.mp hleft
          obtain ⟨-, -, -, rfl, -⟩ := difference?_eq_some_iff.mp hright
          exact hbefore
    errors_eq := hfollows.errors_eq
    run_onlyReadable := by
      rw [run, orderedFiles_onlyReadable]
      have hplaces : ((store, {}) : FileStore × FixSummary).1.SharesPlaces store := rfl
      exact foldl_runFile_readable hplaces []
    count_eq := by
      have hfix : ∀ file ∈ readable store batch.pending, ∀ diagnostic ∈ file.diagnostics,
          diagnostic.hasFix = true := by
        intro file hfile diagnostic hdiagnostic
        rw [hcollected.diagnostics_eq file (List.mem_filter.mp hfile).1] at hdiagnostic
        exact hfound diagnostic (List.mem_filter.mp hdiagnostic).1
      rw [hfollows.count_eq, pendingCount_eq, onlyReadable, ← fixCount_eq hfix]
      exact (hreadable.map _).sum_nat }

/-- Of any batches of diagnostics, those with a fix are collected by the paths of their files.
A run then treats the files one by one, in whichever mode. -/
theorem treatsApart_ofBatches (mode : FixMode) (batches : List (List Diagnostic))
    (store : FileStore) :
    (ofBatches mode batches).mode = mode ∧
      IsCollected (fixable batches) (ofBatches mode batches).pending ∧
      (ofBatches mode batches).pendingCount = (fixable batches).length ∧
      (ofBatches mode batches).TreatsApart store := by
  have hcollected := isCollected_ofBatches mode batches
  refine ⟨mode_ofBatches mode batches, hcollected, ?_, hcollected.treatsApart ?_ store⟩
  · rw [pendingCount_eq, hcollected.count_eq]
  · exact fun diagnostic hmem => (List.mem_filter.mp hmem).2

/-- Every file gets the fixes of all diagnostics whose paths lead to it at once. -/
def FixesByFile (batches : List (List Diagnostic)) (store : FileStore) : Prop :=
  ∀ place, ((ofBatches .apply batches).run store).1.textAt? place =
    (store.textAt? place).map fun source =>
      (applyFixes source ((fixable batches).filter fun diagnostic =>
        store.leadsTo place diagnostic.location.file)).output

/-- The file of every pending path gets the fixes of that path alone. -/
def FixesByPath (batches : List (List Diagnostic)) (store : FileStore) : Prop :=
  ∀ file ∈ (ofBatches .apply batches).pending, ∀ place, store.leadsTo place file.path = true →
    ((ofBatches .apply batches).run store).1.textAt? place =
      (store.textAt? place).map fun source => (applyFixes source file.diagnostics).output

/-- A diagnostic of a file with a fix of one edit. -/
def editing (path : String) (edit : Edit) : Diagnostic :=
  { ruleId := "just", messageId := "forbidden", severity := .warning
    message := "Use just alias.", location := ⟨path, 1, 1, 1, 1, ⟨0, 0⟩⟩, fix := some ⟨[edit]⟩ }

/-- One file under two paths. -/
def twicePath : List Diagnostic :=
  [editing "./a.ts" ⟨⟨0, 2⟩, "just"⟩, editing "a.ts" ⟨⟨3, 4⟩, "bcd"⟩]

/-- The second path meets the text that the first one has left, so the file has neither the
fixes of both nor those of one. -/
theorem not_forall_fixesByFile :
    (¬ ∀ batches store, FixesByFile batches store) ∧
      ¬ ∀ batches store, FixesByPath batches store := by
  have hafter : ((ofBatches .apply [twicePath]).run (.ofList [("a.ts", "of(a);")])).1.textAt?
      ["a.ts"] = some "jusbcd(a);" := by decide +kernel
  constructor
  · intro hfixes
    have hclaimed := hfixes [twicePath] (.ofList [("a.ts", "of(a);")]) ["a.ts"]
    rw [hafter] at hclaimed
    revert hclaimed
    decide +kernel
  · intro hfixes
    have hclaimed := hfixes [twicePath] (.ofList [("a.ts", "of(a);")])
      ⟨"./a.ts", [editing "./a.ts" ⟨⟨0, 2⟩, "just"⟩]⟩ (.head _) ["a.ts"] (by decide +kernel)
    rw [hafter] at hclaimed
    revert hclaimed
    decide +kernel

end FixBatch

end ReactiveLint
