import ReactiveLint.Proofs.Fix.Merged

/-!
# Replacements one by one

Edits that rewrite a text in one splice can also be offered as fixes of one edit each.  Where no
edit is a mere insertion, a pass over these fixes takes them all, in whatever order they are
offered, and its output is that of the splice.
-/

namespace ReactiveLint

namespace Text

variable {before before' after after' : List Char}

/-- A text is cut in one way only at a number of bytes. -/
theorem append_inj_of_byteLength (hparts : before ++ after = before' ++ after')
    (hlength : byteLength before = byteLength before') : before = before' ∧ after = after' := by
  have hcut := cut?_byteLength_append before after
  rw [hparts, hlength, cut?_byteLength_append] at hcut
  obtain ⟨hbefore, hafter⟩ := Prod.mk.inj (Option.some.inj hcut)
  exact ⟨hbefore.symm, hafter.symm⟩

end Text

namespace Fix.Splice

open Text

variable {cursor : Nat} {text more out out' rest before source : List Char}
  {edits others : List Edit}

/-- Text in front of all edits stays. -/
theorem keep (before : List Char)
    (hsplice : Splice (cursor + byteLength before) text edits out) :
    Splice cursor (before ++ text) edits (before ++ out) := by
  cases hsplice with
  | done => exact .done cursor (before ++ text)
  | edit kept removed hstart hstop hrest =>
      rw [← List.append_assoc, ← List.append_assoc before]
      refine .edit (before ++ kept) removed ?_ hstop hrest
      rw [hstart, byteLength_append, Nat.add_assoc]

/-- One edit replaces a whole text. -/
theorem singleton {edit : Edit} (hstart : edit.span.start = cursor)
    (hstop : edit.span.stop = cursor + byteLength text) :
    Splice cursor text [edit] edit.replacement.toList := by
  have hsplice :
      Splice cursor ([] ++ (text ++ [])) [edit] ([] ++ (edit.replacement.toList ++ [])) :=
    .edit [] text hstart (by rw [hstop, hstart]) (.done edit.span.stop [])
  simpa using hsplice

/-- Splices of two texts are one splice of the texts together. -/
theorem append (hfirst : Splice cursor text edits out)
    (hsecond : Splice (cursor + byteLength text) more others rest) :
    Splice cursor (text ++ more) (edits ++ others) (out ++ rest) := by
  induction hfirst with
  | done cursor text => exact hsecond.keep text
  | @edit cursor edit edits text out kept removed hstart hstop _ ih =>
      have hcursor : cursor + byteLength (kept ++ (removed ++ text)) =
          edit.span.stop + byteLength text := by
        rw [byteLength_append, byteLength_append, hstop, hstart]
        omega
      rw [hcursor] at hsecond
      simp only [List.append_assoc]
      exact .edit kept removed hstart hstop (ih hsecond)

/-- Edits make one text of another. -/
theorem unique (hleft : Splice cursor text edits out) (hright : Splice cursor text edits out') :
    out = out' := by
  induction hleft generalizing out' with
  | done =>
      cases hright
      rfl
  | @edit cursor edit edits text out kept removed hstart hstop _ ih =>
      generalize htext : kept ++ (removed ++ text) = whole at hright
      cases hright with
      | @edit _ _ _ text' out' kept' removed' hstart' hstop' hrest' =>
          obtain ⟨rfl, hbehind⟩ := append_inj_of_byteLength htext (by omega)
          obtain ⟨rfl, rfl⟩ := append_inj_of_byteLength hbehind (by omega)
          rw [ih hrest']

/-- The edits of a splice lie in its text, from the cursor on, and are in order. -/
theorem inOrder (hsplice : Splice cursor text edits out) :
    InOrder (cursor + byteLength text) edits ∧ ∀ edit ∈ edits, cursor ≤ edit.span.start := by
  induction hsplice with
  | done => exact ⟨⟨by simp, .nil⟩, by simp⟩
  | @edit cursor edit edits text out kept removed hstart hstop _ ih =>
      obtain ⟨horder, hahead⟩ := ih
      have hsize : cursor + byteLength (kept ++ (removed ++ text)) =
          edit.span.stop + byteLength text := by
        rw [byteLength_append, byteLength_append, hstop, hstart]
        omega
      rw [hsize]
      refine ⟨⟨List.forall_mem_cons.mpr ⟨⟨by omega, by omega⟩, horder.fitsIn⟩,
        List.pairwise_cons.mpr ⟨hahead, horder.apart⟩⟩, List.forall_mem_cons.mpr ⟨by omega, ?_⟩⟩
      intro other hother
      have hother := hahead other hother
      omega

/-- The edits of a splice end between characters. -/
theorem onBoundaries (hsplice : Splice cursor text edits out)
    (hbefore : byteLength before = cursor) : OnBoundaries (before ++ text) edits := by
  induction hsplice generalizing before with
  | done => simp [OnBoundaries]
  | @edit cursor edit edits text out kept removed hstart hstop _ ih =>
      have hkept : byteLength (before ++ kept) = edit.span.start := by
        rw [byteLength_append, hbefore, hstart]
      have hremoved : byteLength (before ++ kept ++ removed) = edit.span.stop := by
        rw [byteLength_append, hkept, hstop]
      have hrest := ih hremoved
      simp only [List.append_assoc] at hrest hkept hremoved
      refine List.forall_mem_cons.mpr ⟨⟨?_, ?_⟩, hrest⟩
      · exact isBoundary_iff.mpr ⟨before ++ kept, removed ++ text, by simp, hkept⟩
      · exact isBoundary_iff.mpr ⟨before ++ (kept ++ removed), text, by simp, hremoved⟩

end Fix.Splice

/-! ## Fixes of one edit -/

/-- A diagnostic whose fix is one edit. -/
def Diagnostic.Makes (edit : Edit) (diagnostic : Diagnostic) : Prop :=
  diagnostic.fix = some ⟨[edit]⟩

variable {source : String} {edits given : List Edit} {out : List Char}
  {diagnostics : List Diagnostic}

/-- Ranges of which neither blocks the other. -/
def Fix.AreFree (left right : Fix) : Prop :=
  ¬ left.range.Blocks right.range ∧ ¬ right.range.Blocks left.range

/-- Edits that are no insertions are free of each other when one ends before the other starts. -/
theorem Fix.areFree_singleton {left right : Edit} (hapart : left.span.stop ≤ right.span.start)
    (hleft : left.span.start < left.span.stop) (hright : right.span.start < right.span.stop) :
    AreFree ⟨[left]⟩ ⟨[right]⟩ := by
  change ¬ left.span.Blocks right.span ∧ ¬ right.span.Blocks left.span
  simp only [Span.Blocks, Span.isEmpty, decide_eq_true_eq, decide_eq_false_iff_not]
  omega

theorem Fix.AreFree.symm {left right : Fix} (hfree : left.AreFree right) : right.AreFree left :=
  And.symm hfree

theorem Diagnostic.Makes.offer?_eq {edit : Edit} {diagnostic : Diagnostic}
    (hmakes : diagnostic.Makes edit) :
    diagnostic.offer? = some ⟨diagnostic.ruleId, ⟨[edit]⟩⟩ := by
  rw [Diagnostic.offer?, hmakes]
  rfl

theorem offers_of_makes (hmakes : List.Forall₂ Diagnostic.Makes given diagnostics) :
    (diagnostics.filterMap (·.offer?)).map (·.fix) = given.map (fun edit => ⟨[edit]⟩) ∧
      (diagnostics.filterMap (·.offer?)).map (·.ruleId) = diagnostics.map (·.ruleId) := by
  induction hmakes with
  | nil => exact ⟨rfl, rfl⟩
  | @cons edit diagnostic given diagnostics hmake _ ih =>
      have hoffers : (diagnostic :: diagnostics).filterMap (·.offer?) =
          ⟨diagnostic.ruleId, ⟨[edit]⟩⟩ :: diagnostics.filterMap (·.offer?) :=
        List.filterMap_cons_some hmake.offer?_eq
      simp only [hoffers, List.map_cons, ih.1, ih.2, and_self]

section Splice

variable (hsplice : Fix.Splice 0 source.toList edits out)
  (hforward : ∀ edit ∈ edits, edit.span.start < edit.span.stop) (hgiven : given.Perm edits)
  (hmakes : List.Forall₂ Diagnostic.Makes given diagnostics)

include hsplice

theorem Fix.Splice.inOrder_source : Fix.InOrder (Text.byteLength source.toList) edits := by
  have horder := hsplice.inOrder.1
  rwa [Nat.zero_add] at horder

theorem Fix.Splice.onBoundaries_source : Fix.OnBoundaries source.toList edits := by
  have hlength : Text.byteLength [] = 0 := rfl
  exact hsplice.onBoundaries hlength

/-- Each edit of a splice makes a fix of its own. -/
theorem Fix.Splice.inOrder_singleton {edit : Edit} (hedit : edit ∈ edits) :
    Fix.InOrder (Text.byteLength source.toList) [edit] :=
  ⟨List.forall_mem_singleton.mpr (hsplice.inOrder_source.fitsIn edit hedit),
    List.pairwise_singleton _ _⟩

include hgiven hmakes

theorem fixesFit_of_makes : FixesFit source diagnostics := by
  intro diagnostic hdiagnostic fix hfix
  have hoffer : fix ∈ (diagnostics.filterMap (·.offer?)).map (·.fix) :=
    List.mem_map.mpr ⟨⟨diagnostic.ruleId, fix⟩, List.mem_filterMap.mpr
      ⟨diagnostic, hdiagnostic, Diagnostic.offer?_eq_some_iff.mpr ⟨fix, hfix, rfl⟩⟩, rfl⟩
  rw [(offers_of_makes hmakes).1] at hoffer
  obtain ⟨edit, hedit, rfl⟩ := List.mem_map.mp hoffer
  have hedit := hgiven.subset hedit
  have horder := hsplice.inOrder_singleton hedit
  refine ⟨⟨[edit], horder.ofEdits? (by simp)⟩, List.forall_mem_singleton.mpr ?_⟩
  exact hsplice.onBoundaries_source edit hedit

/-- The edits of the fixes that a pass has seen are those of the splice. -/
theorem perm_fixes_of_makes :
    (((fixPass source diagnostics).applied ++ (fixPass source diagnostics).skipped).map
      (·.fix)).Perm (edits.map fun edit => ⟨[edit]⟩) := by
  have hfits := fixesFit_of_makes hsplice hgiven hmakes
  have hperm := hfits.accepted.perm_offers.map (·.fix)
  rw [(offers_of_makes hmakes).1] at hperm
  exact hperm.trans (hgiven.map _)

include hforward

/-- Nothing is skipped, as two edits of a splice are apart. -/
theorem skipped_of_makes : (fixPass source diagnostics).skipped = [] := by
  have hfree : (edits.map fun edit => ⟨[edit]⟩).Pairwise Fix.AreFree := by
    refine List.pairwise_map.mpr ((List.Pairwise.and_mem.mp hsplice.inOrder_source.apart).imp ?_)
    rintro left right ⟨hleft, hright, hapart⟩
    exact Fix.areFree_singleton hapart (hforward left hleft) (hforward right hright)
  rw [← (perm_fixes_of_makes hsplice hgiven hmakes).pairwise_iff Fix.AreFree.symm,
    List.pairwise_map, List.pairwise_append] at hfree
  have hfits := fixesFit_of_makes hsplice hgiven hmakes
  rw [List.eq_nil_iff_forall_not_mem]
  intro skipped hskipped
  obtain ⟨taken, htaken, hblocks⟩ := hfits.accepted.blocked hskipped
  exact (hfree.2.2 taken htaken skipped hskipped).1 hblocks

theorem merge_of_makes : FixPass.merge (fixPass source diagnostics).applied = edits := by
  have hfits := fixesFit_of_makes hsplice hgiven hmakes
  have hperm : (FixPass.merge (fixPass source diagnostics).applied).Perm edits := by
    have hfixes := perm_fixes_of_makes hsplice hgiven hmakes
    rw [skipped_of_makes hsplice hforward hgiven hmakes, List.append_nil] at hfixes
    have hmerge := hfixes.flatMap_right Fix.edits
    simpa [FixPass.merge, List.flatMap_map] using hmerge
  refine hperm.eq_of_pairwise ?_ hfits.accepted.inOrder.apart hsplice.inOrder_source.apart
  intro left right hleft hright hle hge
  have hleft := hforward left (hperm.subset hleft)
  have hright := hforward right hright
  omega

/-- Fixes of one edit each are all applied, in any order, if the edits rewrite the text in one
splice and none of them is an insertion; and the output is that of the splice. -/
theorem applyFixes_of_makes :
    (applyFixes source diagnostics).skipped = 0 ∧
      (applyFixes source diagnostics).applied.Perm (diagnostics.map (·.ruleId)) ∧
      (applyFixes source diagnostics).output = String.ofList out := by
  have hfits := fixesFit_of_makes hsplice hgiven hmakes
  have hskipped := skipped_of_makes hsplice hforward hgiven hmakes
  refine ⟨?_, ?_, ?_⟩
  · rw [applyFixes, hskipped]
    rfl
  · have hperm := hfits.accepted.perm_offers.map (·.ruleId)
    rw [hskipped, List.append_nil, (offers_of_makes hmakes).2] at hperm
    exact hperm
  · have hmerge := merge_of_makes hsplice hforward hgiven hmakes
    have hmade : Fix.Splice 0 source.toList edits ((Fix.mk edits).apply source).toList :=
      Fix.splice_apply hsplice.inOrder_source hsplice.onBoundaries_source
    rw [hfits.accepted.output_eq, hmerge, hsplice.unique hmade, String.ofList_toList]

end Splice

end ReactiveLint
