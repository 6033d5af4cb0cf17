import ReactiveLint.Proofs.Fix.Kept
import ReactiveLint.Proofs.Fix.Merged
import ReactiveLint.Proofs.Fix.Verdict
import ReactiveLint.Proofs.Report.Json

/-!
# Fixes that were read back

A fix that is made of edits has them in order and apart, a fix that is read from JSON has
them as they stand there.  A pass takes both alike.  It then writes the gaps that all
edits of the applied fixes leave, one after another, and where these run backward it
writes bytes again.  It never loses one that no applied edit covers.
-/

namespace ReactiveLint

open Text

variable {source : String} {diagnostics : List Diagnostic}

/-! ## Where fixes come from -/

namespace Fix

/-- A fix with some edits, in the order of their spans and apart from each other. -/
structure IsOrderly (fix : Fix) : Prop where
  ne_nil : fix.edits ≠ []
  ordered : fix.edits.Pairwise fun left right => left.span.before right.span = true
  apart : fix.edits.Pairwise Edit.IsApartFrom

/-- A fix that was made of edits to some text. -/
def IsMade (fix : Fix) : Prop := ∃ edits size, ofEdits? edits size = .ok fix

/-- A fix that was made, or read from JSON by itself or as a part of a diagnostic. -/
inductive IsObtained : Fix → Prop
  | made {fix : Fix} (hmade : fix.IsMade) : IsObtained fix
  | read {json : Json} {fix : Fix} (hread : ofJson? json = some fix) : IsObtained fix
  | readWith {json : Json} {diagnostic : Diagnostic} {fix : Fix}
      (hread : Diagnostic.ofJson? json = some diagnostic)
      (hfix : diagnostic.fix = some fix) : IsObtained fix
  | suggested {json : Json} {diagnostic : Diagnostic} {suggestion : Suggestion}
      (hread : Diagnostic.ofJson? json = some diagnostic)
      (hmem : suggestion ∈ diagnostic.suggestions) : IsObtained suggestion.fix

variable {fix : Fix} {size : Nat}

theorem IsMade.exists_inOrder (hmade : fix.IsMade) :
    fix.edits ≠ [] ∧ ∃ size, InOrder size fix.edits := by
  obtain ⟨edits, size, hok⟩ := hmade
  exact ⟨edits_ne_nil_of_ofEdits? hok, size, (ofEdits?_eq_ok_iff.mp hok).2.1⟩

theorem IsMade.isOrderly (hmade : fix.IsMade) : fix.IsOrderly where
  ne_nil := hmade.exists_inOrder.1
  ordered := by
    obtain ⟨edits, size, hok⟩ := hmade
    rw [(ofEdits?_eq_ok_iff.mp hok).2.2]
    exact (isStableSort_ordered edits).ordered
  apart := by
    obtain ⟨-, size, horder⟩ := hmade.exists_inOrder
    exact horder.apart.imp Or.inl

/-- Edits in order that end inside a shorter text are in order there. -/
theorem InOrder.of_range (horder : InOrder size fix.edits) {length : Nat}
    (hrange : fix.range.stop ≤ length) : InOrder length fix.edits where
  fitsIn edit hedit :=
    ⟨(horder.fitsIn edit hedit).1, Nat.le_trans (stop_le_range_stop horder hedit) hrange⟩
  apart := horder.apart

end Fix

/-! ## The pass over any fixes -/

namespace FixPass

variable {cs : List Char} {offers : List OfferedFix} {offered : OfferedFix} {pass : FixPass}
  {size : Nat}

theorem step_cases (cs : List Char) (size : Nat) (pass : FixPass) (offered : OfferedFix) :
    step cs size pass offered = { pass with skipped := pass.skipped ++ [offered] } ∨
      conflicts pass.lastEnd offered.fix.range = false ∧ offered.fix.range.stop ≤ size ∧
        step cs size pass offered = { pass with
          output := pass.output ++ Fix.edited cs pass.cursor offered.fix.edits
          cursor := Fix.cursorAfter pass.cursor offered.fix.edits
          lastEnd := some offered.fix.range.stop
          applied := pass.applied ++ [offered] } := by
  rw [step]
  split
  next => exact .inl rfl
  next htaken =>
    rw [Bool.or_eq_true, decide_eq_true_eq, not_or, Bool.not_eq_true, Nat.not_lt] at htaken
    exact .inr ⟨htaken.1, htaken.2, rfl⟩

/-- What a step keeps holds of a run. -/
theorem run_induction {motive : FixPass → Prop} (hstart : motive {})
    (hstep : ∀ pass, ∀ offered ∈ offers, motive pass →
      motive (step cs (byteLength cs) pass offered)) : motive (run cs offers) :=
  List.foldlRecOn offers _ hstart fun pass hpass offered hoffered =>
    hstep pass offered hoffered hpass

theorem Written.step (hwritten : Written cs pass) (size : Nat) (offered : OfferedFix) :
    Written cs (step cs size pass offered) := by
  rcases step_cases cs size pass offered with hskip | ⟨-, -, htake⟩
  · rw [hskip]
    exact ⟨hwritten.output_eq, hwritten.cursor_eq⟩
  · rw [htake]
    exact hwritten.take offered

theorem written_run (cs : List Char) (offers : List OfferedFix) : Written cs (run cs offers) :=
  run_induction ⟨rfl, rfl⟩ fun _ offered _ hwritten => hwritten.step _ offered

/-- A pass over fixes that were made: the applied edits are in order, and end before the
end of the last applied range. -/
structure Ascends (size : Nat) (pass : FixPass) : Prop where
  inOrder : Fix.InOrder size (merge pass.applied)
  ends : ∀ edit ∈ merge pass.applied, ∃ stop, pass.lastEnd = some stop ∧ edit.span.stop ≤ stop

theorem Ascends.step (hascends : Ascends size pass) (hmade : offered.fix.IsMade) :
    Ascends size (step cs size pass offered) := by
  rcases step_cases cs size pass offered with hskip | ⟨hfree, hstop, htake⟩
  · rw [hskip]
    exact ⟨hascends.inOrder, hascends.ends⟩
  · obtain ⟨hne, length, horder⟩ := hmade.exists_inOrder
    have hmerge : merge (pass.applied ++ [offered]) = merge pass.applied ++ offered.fix.edits := by
      simp [merge]
    have hbefore : ∀ edit ∈ merge pass.applied,
        edit.span.stop ≤ offered.fix.range.start := by
      intro edit hedit
      obtain ⟨stop, hlast, hle⟩ := hascends.ends edit hedit
      rw [hlast, conflicts, Bool.or_eq_false_iff, decide_eq_false_iff_not, Nat.not_lt] at hfree
      exact Nat.le_trans hle hfree.1
    rw [htake]
    constructor
    · rw [hmerge]
      apply hascends.inOrder.append (horder.of_range hstop)
      intro left hleft right hright
      exact Nat.le_trans (hbefore left hleft) (Fix.range_start_le horder hright)
    · rw [hmerge]
      intro edit hedit
      refine ⟨offered.fix.range.stop, rfl, ?_⟩
      rcases List.mem_append.mp hedit with hedit | hedit
      · exact Nat.le_trans (hbefore edit hedit) (Fix.range_fitsIn horder hne).1
      · exact Fix.stop_le_range_stop horder hedit

theorem ascends_run (hmade : ∀ offered ∈ offers, offered.fix.IsMade) :
    Ascends (byteLength cs) (run cs offers) :=
  run_induction ⟨⟨by simp [merge], .nil⟩, by simp [merge]⟩ fun _ offered hoffered hascends =>
    hascends.step (hmade offered hoffered)

end FixPass

/-- The edits of the fixes that are applied, one fix after another. -/
def appliedEdits (source : String) (diagnostics : List Diagnostic) : List Edit :=
  FixPass.merge (fixPass source diagnostics).applied

theorem toList_output_applyFixes (source : String) (diagnostics : List Diagnostic) :
    (applyFixes source diagnostics).output.toList =
      Fix.editedFrom source.toList 0 (appliedEdits source diagnostics) := by
  have hwritten := FixPass.written_run source.toList (offeredFixes diagnostics)
  rw [applyFixes, String.toList_ofList, fixPass, hwritten.output_eq, hwritten.cursor_eq]
  rfl

theorem inOrder_appliedEdits
    (hmade : ∀ diagnostic ∈ diagnostics, ∀ fix, diagnostic.fix = some fix → fix.IsMade) :
    Fix.InOrder (byteLength source.toList) (appliedEdits source diagnostics) := by
  apply (FixPass.ascends_run _).inOrder
  intro offered hoffered
  obtain ⟨diagnostic, hmem, hoffer⟩ := mem_offeredFixes_iff.mp hoffered
  obtain ⟨fix, hfix, rfl⟩ := Diagnostic.offer?_eq_some_iff.mp hoffer
  exact hmade diagnostic hmem fix hfix

/-- What becomes of the bytes of a text when the fixes of diagnostics are applied to it. -/
structure BytesPassed (source : String) (diagnostics : List Diagnostic) : Prop where
  /-- The output is the gaps that the applied edits leave, with the replacements. -/
  output_eq : bytes (applyFixes source diagnostics).output =
    Fix.editedBytes (bytes source) 0 (appliedEdits source diagnostics)
  /-- Nothing is lost outside the applied edits. -/
  kept : ∀ offset < byteLength source.toList,
    (∀ edit ∈ appliedEdits source diagnostics, edit.span.covers offset = false) →
      1 ≤ Fix.passes (byteLength source.toList) 0 (appliedEdits source diagnostics) offset
  once_iff : (∀ offset < byteLength source.toList,
      Fix.passes (byteLength source.toList) 0 (appliedEdits source diagnostics) offset ≤ 1) ↔
    ∀ offset < byteLength source.toList,
      Fix.stepsBack (byteLength source.toList) 0 (appliedEdits source diagnostics) offset ≤
        Fix.covering (appliedEdits source diagnostics) offset
  once_of_isMade :
    (∀ diagnostic ∈ diagnostics, ∀ fix, diagnostic.fix = some fix → fix.IsMade) →
      ∀ offset < byteLength source.toList,
        Fix.passes (byteLength source.toList) 0 (appliedEdits source diagnostics) offset ≤ 1

/-- A fix that is made is orderly, and one that is read has the edits that were written.
Where the applied edits end between characters, the output of applying the fixes of any
diagnostics has every byte that no applied edit covers.  It has none twice exactly when no
byte is stepped back over more often than applied edits cover it, and so when all fixes
were made. -/
theorem applyFixes_passes
    (hends : Fix.OnBoundaries source.toList (appliedEdits source diagnostics)) :
    (∀ fix : Fix, fix.IsMade → fix.IsOrderly) ∧
      (∀ fix : Fix, fix.FitsWord → Fix.ofJson? fix.toJson = some fix) ∧
      (∀ diagnostic : Diagnostic, diagnostic.FitsWord → Diagnostic.ofJson? diagnostic.toJson =
        some { diagnostic with data := Diagnostic.orderedData diagnostic.data }) ∧
      BytesPassed source diagnostics := by
  refine ⟨fun _ => Fix.IsMade.isOrderly, fun _ => Fix.ofJson?_toJson,
    fun _ => Diagnostic.ofJson?_toJson, ?output, ?kept, ?once, ?made⟩
  case output =>
    rw [bytes_eq_encode, bytes_eq_encode, toList_output_applyFixes]
    exact Fix.encode_editedFrom (Fix.isKept_gaps hends (isBoundary_zero _))
  case kept =>
    intro offset hoffset houtside
    exact Fix.one_le_passes hoffset houtside
  case once =>
    apply forall₂_congr
    intro offset hoffset
    exact Fix.passes_le_one_iff hoffset
  case made =>
    intro hmade offset hoffset
    have horder : Fix.InOrder (byteLength source.toList) (appliedEdits source diagnostics) :=
      inOrder_appliedEdits hmade
    rw [Fix.passes_le_one_iff hoffset,
      horder.stepsBack_eq_zero (fun _ _ => Nat.zero_le _) (Nat.zero_le _)]
    exact Nat.zero_le _

/-- A diagnostic with a fix of some edits, as they are given. -/
def diagnosticWith (edits : List Edit) : Diagnostic :=
  { ruleId := "just", messageId := "forbidden", severity := .warning
    message := "Use just alias.", location := ⟨"a.ts", 1, 1, 1, 1, ⟨0, 0⟩⟩, fix := some ⟨edits⟩ }

theorem diagnosticWith_fitsWord {edits : List Edit} (hword : (Fix.mk edits).FitsWord) :
    (diagnosticWith edits).FitsWord where
  location := by constructor <;> simp [diagnosticWith, Span.FitsWord]
  fix fix hfix := by rwa [← Option.some.inj hfix]
  suggestions := by simp [diagnosticWith]

/-- An edit inside another one steps back over bytes that were covered, which are then
written once. -/
theorem applyFixes_passes_nested :
    Fix.OnBoundaries "abcdef".toList
        (appliedEdits "abcdef" [diagnosticWith [⟨⟨0, 5⟩, "x"⟩, ⟨⟨2, 3⟩, "y"⟩]]) ∧
      BytesPassed "abcdef" [diagnosticWith [⟨⟨0, 5⟩, "x"⟩, ⟨⟨2, 3⟩, "y"⟩]] ∧
      ∀ offset < 6, Fix.passes 6 0
        (appliedEdits "abcdef" [diagnosticWith [⟨⟨0, 5⟩, "x"⟩, ⟨⟨2, 3⟩, "y"⟩]]) offset ≤ 1 :=
  have hends : Fix.OnBoundaries "abcdef".toList
      (appliedEdits "abcdef" [diagnosticWith [⟨⟨0, 5⟩, "x"⟩, ⟨⟨2, 3⟩, "y"⟩]]) := by decide
  have hpassed := (applyFixes_passes hends).2.2.2
  ⟨hends, hpassed, hpassed.once_iff.mpr (by decide)⟩

/-- Two insertions that are read in the wrong order make a fix that is not orderly, and
applying it writes the text before them twice. -/
theorem not_forall_isObtained :
    (¬ ∀ fix : Fix, fix.IsObtained → fix.IsOrderly) ∧
      ¬ ∀ (source : String) (diagnostics : List Diagnostic),
        (∀ diagnostic ∈ diagnostics, ∃ json, Diagnostic.ofJson? json = some diagnostic) →
        Fix.OnBoundaries source.toList (appliedEdits source diagnostics) →
        ∀ offset < byteLength source.toList,
          Fix.passes (byteLength source.toList) 0 (appliedEdits source diagnostics) offset ≤ 1 := by
  have hword : (Fix.mk [⟨⟨2, 2⟩, "x"⟩, ⟨⟨0, 0⟩, "y"⟩]).FitsWord := by
    simp [Fix.FitsWord, Span.FitsWord]
  have hread := Diagnostic.ofJson?_toJson (diagnosticWith_fitsWord hword)
  constructor
  · intro horderly
    have hordered := (horderly _ (.readWith hread rfl)).ordered
    revert hordered
    decide
  · intro honce
    have htwice := honce "abc" [diagnosticWith [⟨⟨2, 2⟩, "x"⟩, ⟨⟨0, 0⟩, "y"⟩]]
      (List.forall_mem_singleton.mpr ⟨_, hread⟩) (by decide) 0 (by decide)
    revert htwice
    decide

example :
    (applyFixes "abc" [diagnosticWith [⟨⟨2, 2⟩, "x"⟩, ⟨⟨0, 0⟩, "y"⟩]]).output = "abxyabc" := by
  decide

end ReactiveLint
