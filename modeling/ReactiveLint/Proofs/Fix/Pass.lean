import ReactiveLint.Fix.Apply
import ReactiveLint.Proofs.Fix.Splice

/-!
# One pass over offered fixes

A pass takes the offered fixes in the order of their ranges.  It skips a fix exactly
when the range of an applied one blocks it, and what it has written is the source with
the edits of the applied fixes made.  `FixPass.Sound` is the invariant.
-/

namespace ReactiveLint

namespace Span

/-- A taken range blocks one that starts inside it, one that starts with it when it is
not empty, and an insertion at its end. -/
def Blocks (taken wanted : Span) : Prop :=
  taken.start < wanted.start ∧ wanted.start < taken.stop ∨
    wanted.start = taken.start ∧ taken.isEmpty = false ∨
    wanted.start = taken.stop ∧ wanted.isEmpty = true

instance (taken wanted : Span) : Decidable (taken.Blocks wanted) :=
  inferInstanceAs (Decidable (_ ∨ _ ∨ _))

/-- A range that stands before another and leaves it free. -/
def Clears (left right : Span) : Prop := left.before right = true ∧ ¬ left.Blocks right

variable {left middle right : Span}

theorem clears_iff (hforward : left.start ≤ left.stop) (hbefore : left.before right = true) :
    left.Clears right ↔
      left.stop ≤ right.start ∧ (right.start = left.stop → right.start < right.stop) := by
  have hstart := start_le_of_before hbefore
  simp only [Clears, hbefore, true_and, Blocks, isEmpty, decide_eq_true_eq,
    decide_eq_false_iff_not]
  omega

theorem Clears.stop_le (hforward : left.start ≤ left.stop) (hclears : left.Clears right) :
    left.stop ≤ right.start :=
  ((clears_iff hforward hclears.1).mp hclears).1

theorem Clears.trans (hleft : left.start ≤ left.stop) (hmiddle : middle.start ≤ middle.stop)
    (hfirst : left.Clears middle) (hsecond : middle.Clears right) : left.Clears right := by
  have hbefore := before_trans hfirst.1 hsecond.1
  rw [clears_iff hleft hfirst.1] at hfirst
  rw [clears_iff hmiddle hsecond.1] at hsecond
  rw [clears_iff hleft hbefore]
  omega

end Span

/-- A fix that was made of edits to a text. -/
def Fix.IsAccepted (source : List Char) (fix : Fix) : Prop :=
  ∃ edits, Fix.ofEdits? edits (Text.byteLength source) = .ok fix

namespace Fix.IsAccepted

variable {source : List Char} {fix : Fix}

theorem inOrder (haccepted : fix.IsAccepted source) :
    InOrder (Text.byteLength source) fix.edits :=
  let ⟨_, hedits⟩ := haccepted
  (ofEdits?_eq_ok_iff.mp hedits).2.1

theorem edits_ne_nil (haccepted : fix.IsAccepted source) : fix.edits ≠ [] := by
  obtain ⟨edits, haccepted⟩ := haccepted
  exact edits_ne_nil_of_ofEdits? haccepted

theorem range_fitsIn (haccepted : fix.IsAccepted source) :
    fix.range.FitsIn (Text.byteLength source) :=
  Fix.range_fitsIn haccepted.inOrder haccepted.edits_ne_nil

end Fix.IsAccepted

namespace FixPass

variable {source : List Char} {offers : List OfferedFix} {offered : OfferedFix} {pass : FixPass}

/-- The edits of fixes, one fix after another. -/
def merge (taken : List OfferedFix) : List Edit := taken.flatMap (·.fix.edits)

theorem merge_append (first second : List OfferedFix) :
    merge (first ++ second) = merge first ++ merge second := List.flatMap_append

/-- A pass that has written what the edits of the applied fixes make of the text. -/
structure Written (source : List Char) (pass : FixPass) : Prop where
  output_eq : pass.output = Fix.edited source 0 (merge pass.applied)
  cursor_eq : pass.cursor = Fix.cursorAfter 0 (merge pass.applied)

theorem Written.take (hwritten : Written source pass) (offered : OfferedFix) :
    Written source { pass with
      output := pass.output ++ Fix.edited source pass.cursor offered.fix.edits
      cursor := Fix.cursorAfter pass.cursor offered.fix.edits
      lastEnd := some offered.fix.range.stop
      applied := pass.applied ++ [offered] } where
  output_eq := by
    rw [merge_append, Fix.edited_append, ← hwritten.output_eq, ← hwritten.cursor_eq]
    simp [merge]
  cursor_eq := by
    rw [merge_append, Fix.cursorAfter_append, ← hwritten.cursor_eq]
    simp [merge]

/-- Fixes whose ranges clear one another merge into edits in order. -/
theorem inOrder_merge {taken : List OfferedFix}
    (haccepted : ∀ fix ∈ taken, fix.fix.IsAccepted source)
    (hclears : taken.Pairwise fun left right => left.fix.range.Clears right.fix.range) :
    Fix.InOrder (Text.byteLength source) (merge taken) := by
  induction taken with
  | nil => exact ⟨by simp [merge], .nil⟩
  | cons first taken ih =>
      obtain ⟨hfirst, hclears⟩ := List.pairwise_cons.mp hclears
      obtain ⟨hfirst', haccepted⟩ := List.forall_mem_cons.mp haccepted
      refine hfirst'.inOrder.append (ih haccepted hclears) fun left hleft right hright => ?_
      obtain ⟨second, hsecond, hright⟩ := List.mem_flatMap.mp hright
      have hsecond' := haccepted second hsecond
      calc left.span.stop
        _ ≤ first.fix.range.stop := Fix.stop_le_range_stop hfirst'.inOrder hleft
        _ ≤ second.fix.range.start := (hfirst second hsecond).stop_le hfirst'.range_fitsIn.1
        _ ≤ right.span.start := Fix.range_start_le hsecond'.inOrder hright

/-- What holds of a pass that has seen `offers`. -/
structure Sound (source : List Char) (offers : List OfferedFix) (pass : FixPass) : Prop where
  perm : (pass.applied ++ pass.skipped).Perm offers
  clears : pass.applied.Pairwise fun left right => left.fix.range.Clears right.fix.range
  blocked : ∀ skipped ∈ pass.skipped, ∃ taken ∈ pass.applied,
    taken.fix.range.before skipped.fix.range = true ∧ taken.fix.range.Blocks skipped.fix.range
  output_eq : pass.output = Fix.edited source 0 (merge pass.applied)
  cursor_eq : pass.cursor = Fix.cursorAfter 0 (merge pass.applied)
  lastEnd_eq : pass.lastEnd = pass.applied.getLast?.map (·.fix.range.stop)

theorem sound_start (source : List Char) : Sound source [] {} :=
  ⟨.nil, .nil, by simp, rfl, rfl, rfl⟩

theorem Sound.written (hsound : Sound source offers pass) : Written source pass :=
  ⟨hsound.output_eq, hsound.cursor_eq⟩

theorem Sound.mem_offers (hsound : Sound source offers pass) (happlied : offered ∈ pass.applied) :
    offered ∈ offers :=
  hsound.perm.subset (List.mem_append_left _ happlied)

/-- Against the last applied range, a conflict is being blocked by it. -/
theorem conflicts_iff {taken wanted : Span} (hforward : taken.start ≤ taken.stop)
    (hbefore : taken.before wanted = true) :
    conflicts (some taken.stop) wanted = true ↔ taken.Blocks wanted := by
  have hstart := Span.start_le_of_before hbefore
  simp only [conflicts, Span.Blocks, Span.isEmpty, Bool.or_eq_true, Bool.and_eq_true,
    decide_eq_true_eq, decide_eq_false_iff_not, beq_iff_eq]
  omega

/-- A fix that the last applied range leaves free is free of all applied ranges. -/
theorem Sound.clears_of_last (hsound : Sound source offers pass)
    (haccepted : ∀ fix ∈ offers, fix.fix.IsAccepted source) {last : OfferedFix}
    (hlast : pass.applied.getLast? = some last) {range : Span}
    (hclears : last.fix.range.Clears range) :
    ∀ taken ∈ pass.applied, taken.fix.range.Clears range := by
  obtain ⟨front, hfront⟩ := List.getLast?_eq_some_iff.mp hlast
  have hforward : ∀ taken ∈ pass.applied, taken.fix.range.start ≤ taken.fix.range.stop :=
    fun taken htaken => (haccepted taken (hsound.mem_offers htaken)).range_fitsIn.1
  have hpairs := hsound.clears
  rw [hfront] at hforward hpairs ⊢
  intro taken htaken
  rcases List.mem_append.mp htaken with hin | hin
  · have hpair := (List.pairwise_append.mp hpairs).2.2 taken hin last (by simp)
    exact hpair.trans (hforward taken htaken) (hforward last (by simp)) hclears
  · rw [List.mem_singleton.mp hin]
    exact hclears

theorem Sound.skip (hsound : Sound source offers pass) {taken : OfferedFix}
    (htaken : taken ∈ pass.applied)
    (hbefore : taken.fix.range.before offered.fix.range = true)
    (hblocks : taken.fix.range.Blocks offered.fix.range) :
    Sound source (offers ++ [offered]) { pass with skipped := pass.skipped ++ [offered] } where
  perm := by
    rw [← List.append_assoc]
    exact hsound.perm.append_right [offered]
  clears := hsound.clears
  blocked skipped hskipped := by
    rcases List.mem_append.mp hskipped with hin | hin
    · exact hsound.blocked skipped hin
    · rw [List.mem_singleton.mp hin]
      exact ⟨taken, htaken, hbefore, hblocks⟩
  output_eq := hsound.output_eq
  cursor_eq := hsound.cursor_eq
  lastEnd_eq := hsound.lastEnd_eq

theorem Sound.take (hsound : Sound source offers pass)
    (hclears : ∀ taken ∈ pass.applied, taken.fix.range.Clears offered.fix.range) :
    Sound source (offers ++ [offered]) { pass with
      output := pass.output ++ Fix.edited source pass.cursor offered.fix.edits
      cursor := Fix.cursorAfter pass.cursor offered.fix.edits
      lastEnd := some offered.fix.range.stop
      applied := pass.applied ++ [offered] } where
  perm := by
    refine List.Perm.trans ?_ (hsound.perm.append_right [offered])
    rw [List.append_assoc, List.append_assoc]
    exact List.perm_append_comm.append_left pass.applied
  clears := List.pairwise_append.mpr ⟨hsound.clears, List.pairwise_singleton _ _,
    fun taken htaken other hother => List.mem_singleton.mp hother ▸ hclears taken htaken⟩
  blocked skipped hskipped :=
    let ⟨taken, htaken, hblocks⟩ := hsound.blocked skipped hskipped
    ⟨taken, List.mem_append_left _ htaken, hblocks⟩
  output_eq := (hsound.written.take offered).output_eq
  cursor_eq := (hsound.written.take offered).cursor_eq
  lastEnd_eq := by simp

theorem Sound.step (hsound : Sound source offers pass)
    (haccepted : ∀ fix ∈ offers ++ [offered], fix.fix.IsAccepted source)
    (hbefore : ∀ earlier ∈ offers, earlier.fix.range.before offered.fix.range = true) :
    Sound source (offers ++ [offered])
      (step source (Text.byteLength source) pass offered) := by
  have hinside := (haccepted offered (by simp)).range_fitsIn
  have haccepted' : ∀ fix ∈ offers, fix.fix.IsAccepted source := fun fix hfix =>
    haccepted fix (List.mem_append_left _ hfix)
  simp only [FixPass.step, Nat.not_lt.mpr hinside.2, decide_false, Bool.or_false]
  cases hlast : pass.applied.getLast? with
  | none =>
      have hend : pass.lastEnd = none := by rw [hsound.lastEnd_eq, hlast]; rfl
      rw [hend]
      refine hsound.take ?_
      simp [List.getLast?_eq_none_iff.mp hlast]
  | some last =>
      have hend : pass.lastEnd = some last.fix.range.stop := by rw [hsound.lastEnd_eq, hlast]; rfl
      have hmem : last ∈ pass.applied := List.mem_of_getLast? hlast
      have hforward := (haccepted' last (hsound.mem_offers hmem)).range_fitsIn.1
      have hbefore' := hbefore last (hsound.mem_offers hmem)
      have hconflicts := hend ▸ conflicts_iff hforward hbefore'
      split
      next hconflict => exact hsound.skip hmem hbefore' (hconflicts.mp hconflict)
      next hfree =>
        exact hsound.take (hsound.clears_of_last haccepted' hlast
          ⟨hbefore', fun hblocks => hfree (hconflicts.mpr hblocks)⟩)

/-- A pass applies an offered fix exactly when no other applied fix comes before it and
blocks it. -/
theorem Sound.mem_applied_iff (hsound : Sound source offers pass)
    (haccepted : ∀ fix ∈ offers, fix.fix.IsAccepted source) (hoffered : offered ∈ offers) :
    offered ∈ pass.applied ↔ ¬ ∃ taken ∈ pass.applied, taken ≠ offered ∧
      taken.fix.range.before offered.fix.range = true ∧
        taken.fix.range.Blocks offered.fix.range := by
  constructor
  · rintro happlied ⟨taken, htaken, hne, hbefore, hblocks⟩
    have hpairs := hsound.clears
    rw [List.pairwise_iff_forall_sublist] at hpairs
    rcases StableSort.pair_sublist_or_swap hne htaken happlied with hpair | hpair
    · exact (hpairs hpair).2 hblocks
    · -- ranges that stand before each other are one range, which would have to be a point
      have hclears := hpairs hpair
      have hrange := Span.eq_of_before hclears.1 hbefore
      have hforward := (haccepted offered hoffered).range_fitsIn.1
      have hpoint := (Span.clears_iff hforward hclears.1).mp hclears
      rw [← hrange] at hpoint
      omega
  · intro hfree
    by_contra hmissing
    have hskipped : offered ∈ pass.skipped :=
      (List.mem_append.mp (hsound.perm.symm.subset hoffered)).resolve_left hmissing
    obtain ⟨taken, htaken, hblocks⟩ := hsound.blocked offered hskipped
    exact hfree ⟨taken, htaken, fun heq => hmissing (heq ▸ htaken), hblocks⟩

/-- A pass over fixes in the order of their ranges is sound for all of them. -/
theorem sound_run (haccepted : ∀ fix ∈ offers, fix.fix.IsAccepted source)
    (hsorted : offers.Pairwise fun left right =>
      left.fix.range.before right.fix.range = true) :
    Sound source offers (run source offers) := by
  suffices hrest : ∀ seen rest pass, seen ++ rest = offers → Sound source seen pass →
      Sound source offers (rest.foldl (FixPass.step source (Text.byteLength source)) pass) from
    hrest [] offers {} rfl (sound_start source)
  intro seen rest
  induction rest generalizing seen with
  | nil =>
      rintro pass rfl hsound
      rwa [List.append_nil]
  | cons offered rest ih =>
      rintro pass rfl hsound
      refine ih (seen ++ [offered]) _ (by simp) (hsound.step (fun fix hfix => ?_) ?_)
      · exact haccepted fix (by simp at hfix ⊢; tauto)
      · exact fun earlier hearlier =>
          (List.pairwise_append.mp hsorted).2.2 earlier hearlier offered (by simp)

end FixPass

end ReactiveLint
