import ReactiveLint.Proofs.Directive.Reading
import ReactiveLint.Proofs.Text.Characters

/-!
# Names and reasons

The text of a directive is split at the first place of a separator, and the part before it at
commas.  Blanks around the pieces do not count.
-/

namespace ReactiveLint.Directive

open Text (isBlank trim trimStart)

variable {separator before after rest cs piece : List Char} {c : Char}

/-! ## Separators -/

/-- A character of another kind keeps the places of a separator apart. -/
theorem infix_append_cons_iff (hc : c ∉ separator) :
    separator <:+: before ++ c :: after ↔ separator <:+: before ∨ separator <:+: after := by
  constructor
  · intro hfound
    rcases List.infix_append_iff.mp hfound with hbefore | hafter | ⟨left, right, rfl, hleft, hright⟩
    · exact .inl hbefore
    · rcases List.infix_cons_iff.mp hafter with hstarts | hafter
      · rcases List.prefix_cons_iff.mp hstarts with rfl | ⟨tail, rfl, -⟩
        · exact .inl (List.nil_infix)
        · exact absurd List.mem_cons_self hc
      · exact .inr hafter
    · rcases List.prefix_cons_iff.mp hright with rfl | ⟨tail, rfl, -⟩
      · rw [List.append_nil]
        exact .inl hleft.isInfix
      · exact absurd (List.mem_append_right _ List.mem_cons_self) hc
  · rintro (hbefore | hafter)
    · exact hbefore.trans (List.prefix_append _ _).isInfix
    · exact hafter.trans ((List.suffix_cons c after).trans (List.suffix_append _ _)).isInfix

theorem infix_cons_iff_of_not_mem (hne : separator ≠ []) (hc : c ∉ separator) :
    separator <:+: c :: after ↔ separator <:+: after := by
  have happend := @infix_append_cons_iff separator [] after c hc
  rwa [List.nil_append, List.infix_nil, or_iff_right hne] at happend

theorem after?_eq_none_iff : after? separator cs = none ↔ ¬ separator <+: cs := by
  rw [after?, ite_eq_right_iff, List.isPrefixOf_iff_prefix]
  simp

theorem splitAtFirst?_eq_none_iff (hne : separator ≠ []) :
    splitAtFirst? separator cs = none ↔ ¬ separator <:+: cs := by
  induction cs with
  | nil =>
      have hempty : separator.isEmpty = false := by simpa using hne
      simp [splitAtFirst?, hempty, hne]
  | cons c cs ih =>
      rw [splitAtFirst?, List.infix_cons_iff, not_or, ← ih, ← after?_eq_none_iff]
      cases after? separator (c :: cs) with
      | none => simp
      | some rest => simp

theorem isPrefix_append_dropLast (before separator rest : List Char) :
    before ++ separator.dropLast <+: before ++ (separator ++ rest) :=
  (List.prefix_append_right_inj before).mpr
    ((List.dropLast_prefix separator).trans (List.prefix_append separator rest))

/-- A separator that is not met before its last character is not where a text starts. -/
theorem not_isPrefix_of_first (hfirst : ¬ separator <:+: c :: before ++ separator.dropLast)
    (rest : List Char) :
    ¬ separator <+: c :: before ++ (separator ++ rest) := by
  intro hstarts
  have hlength : separator.length ≤ (c :: before ++ separator.dropLast).length := by
    rw [List.length_append, List.length_dropLast, List.length_cons]
    omega
  exact hfirst (List.prefix_of_prefix_length_le hstarts
    (isPrefix_append_dropLast (c :: before) separator rest) hlength).isInfix

/-- A text is split at the first place of a separator. -/
theorem splitAtFirst?_eq_some_iff (hne : separator ≠ []) :
    splitAtFirst? separator cs = some (before, rest) ↔
      cs = before ++ (separator ++ rest) ∧ ¬ separator <:+: before ++ separator.dropLast := by
  induction cs generalizing before rest with
  | nil =>
      have hempty : separator.isEmpty = false := by simpa using hne
      simp [splitAtFirst?, hempty, hne]
  | cons c cs ih =>
      rw [splitAtFirst?]
      cases hafter : after? separator (c :: cs) with
      | some found =>
          -- the separator stands here, so nothing is before it
          have hhere := after?_eq_some_iff.mp hafter
          simp only [Option.some_inj, Prod.mk.injEq]
          constructor
          · rintro ⟨rfl, rfl⟩
            refine ⟨hhere, fun hfound => ?_⟩
            have hlength := hfound.length_le
            have hpos := List.length_pos_iff.mpr hne
            rw [List.nil_append, List.length_dropLast] at hlength
            omega
          · rintro ⟨hparts, hfirst⟩
            cases before with
            | nil => exact ⟨rfl, List.append_cancel_left (hhere.symm.trans hparts)⟩
            | cons d before =>
                refine absurd ?_ (not_isPrefix_of_first hfirst rest)
                exact hparts ▸ hhere ▸ List.prefix_append separator found
      | none =>
          have hnone := after?_eq_none_iff.mp hafter
          simp only [Option.map_eq_some_iff, Prod.exists, Prod.mk.injEq]
          constructor
          · rintro ⟨tail, rest, hsplit, rfl, rfl⟩
            obtain ⟨rfl, hfirst⟩ := ih.mp hsplit
            refine ⟨rfl, fun hfound => ?_⟩
            rcases List.infix_cons_iff.mp hfound with hstarts | hfound
            · exact hnone (hstarts.trans (isPrefix_append_dropLast (c :: tail) separator rest))
            · exact hfirst hfound
          · rintro ⟨hparts, hfirst⟩
            cases before with
            | nil => exact absurd (hparts ▸ List.prefix_append separator rest) hnone
            | cons d before =>
                obtain ⟨rfl, htail⟩ := List.cons.inj hparts
                refine ⟨before, rest, ih.mpr ⟨htail, fun hfound => ?_⟩, rfl, rfl⟩
                exact hfirst (hfound.trans (List.suffix_cons c _).isInfix)

/-! ## Names -/

/-- The names in the part of a directive before its reason. -/
def namesIn (cs : List Char) : List (List Char) :=
  ((splitCommas cs).map trim).filter (!·.isEmpty)

theorem splitCommas_ne_nil (cs : List Char) : splitCommas cs ≠ [] := by
  cases cs with
  | nil => exact List.cons_ne_nil _ _
  | cons c cs =>
      rw [splitCommas]
      split
      next => exact List.cons_ne_nil _ _
      next => split <;> exact List.cons_ne_nil _ _

theorem splitCommas_cons (hc : c ≠ ',') :
    ∃ piece rest, splitCommas cs = piece :: rest ∧ splitCommas (c :: cs) = (c :: piece) :: rest := by
  obtain ⟨piece, rest, hsplit⟩ := List.exists_cons_of_ne_nil (splitCommas_ne_nil cs)
  refine ⟨piece, rest, hsplit, ?_⟩
  rw [splitCommas, if_neg hc, hsplit]

theorem splitCommas_piece (hpiece : ',' ∉ piece) : splitCommas piece = [piece] := by
  induction piece with
  | nil => rfl
  | cons c piece ih =>
      rw [List.mem_cons, not_or] at hpiece
      rw [splitCommas, if_neg (Ne.symm hpiece.1), ih hpiece.2]

theorem splitCommas_append (hpiece : ',' ∉ piece) (rest : List Char) :
    splitCommas (piece ++ ',' :: rest) = piece :: splitCommas rest := by
  induction piece with
  | nil => rfl
  | cons c piece ih =>
      rw [List.mem_cons, not_or] at hpiece
      rw [List.cons_append, splitCommas, if_neg (Ne.symm hpiece.1), ih hpiece.2]

theorem namesIn_piece (hpiece : ',' ∉ piece) (hne : trim piece ≠ []) :
    namesIn piece = [trim piece] := by
  rw [namesIn, splitCommas_piece hpiece, List.map_singleton]
  exact List.filter_cons_of_pos (by simpa using hne)

theorem namesIn_append (hpiece : ',' ∉ piece) (hne : trim piece ≠ []) (rest : List Char) :
    namesIn (piece ++ ',' :: rest) = trim piece :: namesIn rest := by
  rw [namesIn, splitCommas_append hpiece, List.map_cons]
  exact List.filter_cons_of_pos (by simpa using hne)

theorem namesIn_cons_of_blank (hblank : isBlank c = true) : namesIn (c :: cs) = namesIn cs := by
  have hc : c ≠ ',' := by
    rintro rfl
    cases (Text.IsVisible.isBlank_eq_false (by decide)).symm.trans hblank
  obtain ⟨piece, rest, hcs, hcons⟩ := @splitCommas_cons cs c hc
  rw [namesIn, namesIn, hcs, hcons, List.map_cons, List.map_cons, Text.trim_cons_of_blank hblank]

theorem namesIn_trimStart (cs : List Char) : namesIn (trimStart cs) = namesIn cs := by
  induction cs with
  | nil => rfl
  | cons c cs ih =>
      by_cases hblank : isBlank c = true
      · rw [namesIn_cons_of_blank hblank, ← ih, trimStart, List.dropWhile_cons_of_pos hblank]
        rfl
      · rw [Text.trimStart_cons (Bool.eq_false_iff.mpr hblank)]

theorem exists_mem_splitCommas (hmem : c ∈ cs) (hc : c ≠ ',') :
    ∃ piece ∈ splitCommas cs, c ∈ piece := by
  induction cs with
  | nil => cases hmem
  | cons d cs ih =>
      by_cases hd : d = ','
      · obtain ⟨piece, hpiece, hin⟩ := ih ((List.mem_cons.mp hmem).resolve_left (hd ▸ hc))
        rw [splitCommas, if_pos hd]
        exact ⟨piece, List.mem_cons_of_mem _ hpiece, hin⟩
      · obtain ⟨first, rest, hcs, hcons⟩ := @splitCommas_cons cs d hd
        rw [hcons]
        rcases List.mem_cons.mp hmem with rfl | hmem
        · exact ⟨_, List.mem_cons_self, List.mem_cons_self⟩
        · obtain ⟨piece, hpiece, hin⟩ := ih hmem
          rw [hcs] at hpiece
          rcases List.mem_cons.mp hpiece with rfl | hpiece
          · exact ⟨_, List.mem_cons_self, List.mem_cons_of_mem _ hin⟩
          · exact ⟨piece, List.mem_cons_of_mem _ hpiece, hin⟩

/-- A character that is neither blank nor a comma is in one of the names. -/
theorem exists_mem_namesIn (hmem : c ∈ cs) (hc : c ≠ ',') (hblank : isBlank c = false) :
    ∃ name ∈ namesIn cs, c ∈ name := by
  obtain ⟨piece, hpiece, hin⟩ := exists_mem_splitCommas hmem hc
  have hname := Text.mem_trim hin hblank
  refine ⟨trim piece, List.mem_filter.mpr ⟨List.mem_map_of_mem hpiece, ?_⟩, hname⟩
  simpa using List.ne_nil_of_mem hname

/-- What the text of a directive says, once it is known where it is split. -/
theorem splitReason_eq {body names reason : List Char}
    (hsplit : (splitAtFirst? ['-', '-'] (trim body)).or (splitAtFirst? [':'] (trim body)) =
      some (names, reason)) :
    splitReason body = ((namesIn names).map String.ofList,
      if (trim reason).isEmpty then none else some (String.ofList (trim reason))) := by
  rw [splitReason]
  simp only [hsplit]
  rfl

end ReactiveLint.Directive
