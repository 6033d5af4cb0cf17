import Mathlib.Data.List.Nodup
import Mathlib.Data.List.Perm.Basic
import ReactiveLint.Proofs.Fix.Pass

/-!
# The fixes of one text as one fix

Applying the fixes of diagnostics makes one fix of those it takes: their edits, in the
order of application, are accepted together, and the output is the source with that
fix applied.
-/

namespace ReactiveLint

variable {source : String} {diagnostics other : List Diagnostic}

/-- The ranges of the fixes of diagnostics. -/
def fixRanges (diagnostics : List Diagnostic) : List Span :=
  (diagnostics.filterMap (·.offer?)).map (·.fix.range)

theorem perm_offeredFixes (diagnostics : List Diagnostic) :
    (offeredFixes diagnostics).Perm (diagnostics.filterMap (·.offer?)) :=
  StableSort.perm_sort _ _

theorem pairwise_offeredFixes (diagnostics : List Diagnostic) :
    (offeredFixes diagnostics).Pairwise fun left right =>
      left.fix.range.before right.fix.range = true := by
  refine StableSort.pairwise_sort ?_ ?_ _
  · exact fun _ _ _ => Span.before_trans
  · exact fun left right => Span.before_total left.fix.range right.fix.range

theorem mem_offeredFixes_iff {offered : OfferedFix} :
    offered ∈ offeredFixes diagnostics ↔
      ∃ diagnostic ∈ diagnostics, diagnostic.offer? = some offered := by
  rw [(perm_offeredFixes diagnostics).mem_iff, List.mem_filterMap]

theorem Diagnostic.offer?_eq_some_iff {diagnostic : Diagnostic} {offered : OfferedFix} :
    diagnostic.offer? = some offered ↔
      ∃ fix, diagnostic.fix = some fix ∧ offered = ⟨diagnostic.ruleId, fix⟩ := by
  rw [Diagnostic.offer?, Option.map_eq_some_iff]
  simp only [eq_comm]

theorem offeredFixes_eq_nil_iff :
    offeredFixes diagnostics = [] ↔ ∀ diagnostic ∈ diagnostics, diagnostic.fix = none := by
  rw [← List.length_eq_zero_iff, (perm_offeredFixes diagnostics).length_eq,
    List.length_eq_zero_iff, List.filterMap_eq_nil_iff]
  simp [Diagnostic.offer?]

theorem length_offers (diagnostics : List Diagnostic) :
    (diagnostics.filterMap (·.offer?)).length = diagnostics.countP (·.hasFix) := by
  induction diagnostics with
  | nil => rfl
  | cons diagnostic diagnostics ih =>
      cases hfix : diagnostic.fix <;>
        simpa [Diagnostic.offer?, Diagnostic.hasFix, hfix] using ih

/-- Where the ranges differ, their order alone decides the order of the fixes. -/
theorem offeredFixes_eq_of_perm (hperm : diagnostics.Perm other)
    (hranges : (fixRanges diagnostics).Nodup) : offeredFixes other = offeredFixes diagnostics := by
  have hoffers : (offeredFixes other).Perm (offeredFixes diagnostics) :=
    ((perm_offeredFixes other).trans (hperm.symm.filterMap _)).trans
      (perm_offeredFixes diagnostics).symm
  refine hoffers.eq_of_pairwise ?_ (pairwise_offeredFixes other) (pairwise_offeredFixes diagnostics)
  intro left right hleft hright hbefore hbefore'
  have hmem : left ∈ diagnostics.filterMap (·.offer?) :=
    ((perm_offeredFixes other).trans (hperm.symm.filterMap _)).subset hleft
  have hmem' := (perm_offeredFixes diagnostics).subset hright
  exact List.inj_on_of_nodup_map hranges hmem hmem' (Span.eq_of_before hbefore hbefore')

/-- Every fix of some diagnostics was accepted for a text. -/
def FixesAccepted (source : String) (diagnostics : List Diagnostic) : Prop :=
  ∀ diagnostic ∈ diagnostics, ∀ fix, diagnostic.fix = some fix → fix.IsAccepted source.toList

namespace FixPass

variable {offers : List OfferedFix} {pass : FixPass}

/-- A pass that was offered a fix has applied one: the first to be skipped would be
blocked by an applied one. -/
theorem Sound.applied_ne_nil {cs : List Char} (hsound : Sound cs offers pass)
    (hne : offers ≠ []) : pass.applied ≠ [] := by
  intro hnone
  cases hskipped : pass.skipped with
  | nil => exact hne (by simpa [hnone, hskipped] using hsound.perm.symm)
  | cons skipped _ =>
      obtain ⟨taken, htaken, -⟩ := hsound.blocked skipped (by simp [hskipped])
      simp [hnone] at htaken

end FixPass

namespace FixesAccepted

variable (haccepted : FixesAccepted source diagnostics)

include haccepted

theorem offered : ∀ offered ∈ offeredFixes diagnostics, offered.fix.IsAccepted source.toList := by
  intro offered hoffered
  obtain ⟨diagnostic, hmem, hoffer⟩ := mem_offeredFixes_iff.mp hoffered
  obtain ⟨fix, hfix, rfl⟩ := Diagnostic.offer?_eq_some_iff.mp hoffer
  exact haccepted diagnostic hmem fix hfix

/-- The pass over the fixes of diagnostics is sound for all of them. -/
theorem sound :
    FixPass.Sound source.toList (offeredFixes diagnostics) (fixPass source diagnostics) :=
  FixPass.sound_run haccepted.offered (pairwise_offeredFixes diagnostics)

/-- The output of a pass is the source with the edits of its applied fixes made. -/
theorem output_eq :
    (applyFixes source diagnostics).output =
      (Fix.mk (FixPass.merge (fixPass source diagnostics).applied)).apply source := by
  have hsound := haccepted.sound
  rw [applyFixes, Fix.apply, hsound.output_eq, hsound.cursor_eq]

theorem applied :
    ∀ taken ∈ (fixPass source diagnostics).applied, taken.fix.IsAccepted source.toList :=
  fun taken htaken => haccepted.offered taken (haccepted.sound.mem_offers htaken)

theorem inOrder :
    Fix.InOrder (Text.byteLength source.toList)
      (FixPass.merge (fixPass source diagnostics).applied) :=
  FixPass.inOrder_merge haccepted.applied haccepted.sound.clears

theorem merge_ne_nil (hne : (fixPass source diagnostics).applied ≠ []) :
    FixPass.merge (fixPass source diagnostics).applied ≠ [] := by
  obtain ⟨taken, htaken⟩ := List.exists_mem_of_ne_nil _ hne
  obtain ⟨edit, hedit⟩ :=
    List.exists_mem_of_ne_nil _ (haccepted.applied taken htaken).edits_ne_nil
  exact List.ne_nil_of_mem (List.mem_flatMap.mpr ⟨taken, htaken, hedit⟩)

/-- No fix is lost and none is taken twice. -/
theorem perm_offers :
    ((fixPass source diagnostics).applied ++ (fixPass source diagnostics).skipped).Perm
      (diagnostics.filterMap (·.offer?)) :=
  haccepted.sound.perm.trans (perm_offeredFixes diagnostics)

theorem blocked {skipped : OfferedFix} (hskipped : skipped ∈ (fixPass source diagnostics).skipped) :
    ∃ taken ∈ (fixPass source diagnostics).applied,
      taken.fix.range.Blocks skipped.fix.range := by
  obtain ⟨taken, htaken, -, hblocks⟩ := haccepted.sound.blocked skipped hskipped
  exact ⟨taken, htaken, hblocks⟩

end FixesAccepted

/-- Every fix of some diagnostics was accepted for a text, and its edits end between
characters. -/
def FixesFit (source : String) (diagnostics : List Diagnostic) : Prop :=
  ∀ diagnostic ∈ diagnostics, ∀ fix, diagnostic.fix = some fix →
    fix.IsAccepted source.toList ∧ Fix.OnBoundaries source.toList fix.edits

theorem FixesFit.accepted (hfits : FixesFit source diagnostics) :
    FixesAccepted source diagnostics :=
  fun diagnostic hmem fix hfix => (hfits diagnostic hmem fix hfix).1

theorem FixesFit.onBoundaries (hfits : FixesFit source diagnostics) :
    Fix.OnBoundaries source.toList (FixPass.merge (fixPass source diagnostics).applied) := by
  intro edit hedit
  obtain ⟨taken, htaken, hedit⟩ := List.mem_flatMap.mp hedit
  have hoffered := hfits.accepted.sound.mem_offers htaken
  obtain ⟨diagnostic, hmem, hoffer⟩ := mem_offeredFixes_iff.mp hoffered
  obtain ⟨fix, hfix, rfl⟩ := Diagnostic.offer?_eq_some_iff.mp hoffer
  exact (hfits diagnostic hmem fix hfix).2 edit hedit

/-- What applying the fixes of diagnostics to a source comes to. -/
structure FixesMerge (source : String) (diagnostics : List Diagnostic) (pass : FixPass)
    (out : FixOutput) : Prop where
  applied_eq : out.applied = pass.applied.map (·.ruleId)
  /-- No fix is lost and none is taken twice. -/
  perm : (pass.applied ++ pass.skipped).Perm (diagnostics.filterMap (·.offer?))
  count : out.applied.length + out.skipped = diagnostics.countP (·.hasFix)
  unfixed : (∀ diagnostic ∈ diagnostics, diagnostic.fix = none) → out.output = source
  fixed : (∃ diagnostic ∈ diagnostics, diagnostic.fix ≠ none) → pass.applied ≠ [] ∧
    ∃ merged : Fix, merged.edits = FixPass.merge pass.applied ∧
      Fix.ofEdits? (FixPass.merge pass.applied) (Text.byteLength source.toList) = .ok merged ∧
      out.output = merged.apply source ∧
      Fix.Splice 0 source.toList merged.edits out.output.toList
  blocked : ∀ skipped ∈ pass.skipped, ∃ taken ∈ pass.applied,
    taken.fix.range.Blocks skipped.fix.range

/-- The fixes that a pass applies act on the source as one accepted fix, each skipped fix
is blocked by an applied one, and the order of the diagnostics matters only between fixes
of one range. -/
theorem applyFixes_merges (hfits : FixesFit source diagnostics) :
    FixesMerge source diagnostics (fixPass source diagnostics) (applyFixes source diagnostics) ∧
      ∀ other, diagnostics.Perm other → (fixRanges diagnostics).Nodup →
        applyFixes source other = applyFixes source diagnostics := by
  have haccepted := hfits.accepted
  have hsound := haccepted.sound
  refine ⟨⟨rfl, haccepted.perm_offers, ?count, fun hnone => ?unfixed, fun hsome => ?fixed,
    fun skipped => haccepted.blocked⟩, fun other hother hranges => ?permuted⟩
  case count =>
    rw [← length_offers, ← haccepted.perm_offers.length_eq]
    simp [applyFixes]
  case unfixed =>
    have hnil := (offeredFixes_eq_nil_iff.mpr hnone ▸ hsound.perm).eq_nil
    rw [haccepted.output_eq, (List.append_eq_nil_iff.mp hnil).1]
    simp [Fix.apply, FixPass.merge, Fix.edited, Fix.onward_zero]
  case fixed =>
    have hne : offeredFixes diagnostics ≠ [] := by
      rw [Ne, offeredFixes_eq_nil_iff]
      rintro hnone
      obtain ⟨diagnostic, hmem, hfix⟩ := hsome
      exact hfix (hnone diagnostic hmem)
    have happlied := hsound.applied_ne_nil hne
    refine ⟨happlied, _, rfl, haccepted.inOrder.ofEdits? (haccepted.merge_ne_nil happlied),
      haccepted.output_eq, ?_⟩
    rw [haccepted.output_eq]
    exact Fix.splice_apply haccepted.inOrder hfits.onBoundaries
  case permuted =>
    rw [applyFixes, applyFixes, fixPass, fixPass, offeredFixes_eq_of_perm hother hranges]

/-- A replacement, an insertion at its end, and one behind it. -/
def touchingFixes : List Diagnostic :=
  [⟨⟨1, 1⟩, "in "⟩, ⟨⟨0, 1⟩, "just"⟩, ⟨⟨2, 2⟩, "!"⟩].map fun edit =>
    { (default : Diagnostic) with fix := some ⟨[edit]⟩ }

theorem fixesFit_touchingFixes : FixesFit "of" touchingFixes := by
  intro diagnostic hmem fix hfix
  obtain ⟨edit, hedit, rfl⟩ := List.mem_map.mp hmem
  obtain rfl : ⟨[edit]⟩ = fix := Option.some.inj hfix
  refine ⟨⟨[edit], ?_⟩, ?_⟩ <;> clear hmem hfix <;> revert edit <;> decide

theorem applyFixes_touchingFixes :
    FixesFit "of" touchingFixes ∧
      FixesMerge "of" touchingFixes (fixPass "of" touchingFixes) (applyFixes "of" touchingFixes) ∧
      (fixPass "of" touchingFixes).applied ≠ [] ∧
      applyFixes "of" touchingFixes.reverse = applyFixes "of" touchingFixes :=
  have ⟨hmerge, hpermuted⟩ := applyFixes_merges fixesFit_touchingFixes
  ⟨fixesFit_touchingFixes, hmerge, (hmerge.fixed (by decide)).1,
    hpermuted _ (List.reverse_perm _).symm (by decide)⟩

end ReactiveLint
