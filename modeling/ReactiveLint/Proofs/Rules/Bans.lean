import ReactiveLint.Proofs.Data.Result
import ReactiveLint.Proofs.Pattern.Anchored
import ReactiveLint.Rules.Options

/-!
# Banned names

A list of bans explains a name by the first of its entries whose key, read between anchors,
is found in the name.  A key with one alternative that leaves its flags as they are at the
end is found where it describes the name as a whole.  A key with several alternatives is
held at the start by the first and at the end by the last of them only, so that it also
catches longer names.
-/

namespace ReactiveLint

open Pattern (GroupState parse? readText?)

theorem Ban.explanation?_eq_none_iff {ban : Ban} :
    ban.explanation? = none ↔ ban = .enabled false := by
  cases ban with
  | enabled value => cases value <;> simp [explanation?]
  | explained text => simp [explanation?]

theorem Ban.ne_of_explanation? {ban : Ban} {explanation : String}
    (hban : ban.explanation? = some explanation) : ban ≠ .enabled false := by
  rintro rfl
  cases hban

namespace BanList

variable {rule : String} {entries rest : List (String × Ban)} {bans : BanList}
  {key name explanation : String} {ban : Ban} {applies : String → Prop}

/-- A key, read as a pattern, describes a name as a whole. -/
def MatchesWhole (key name : String) : Prop :=
  ∃ pattern, parse? key = some pattern ∧
    Pattern.Matches name.toList.toArray pattern 0 name.toList.toArray.size

instance : Decidable (MatchesWhole key name) :=
  match hparse : parse? key with
  | none => .isFalse (by simp [MatchesWhole, hparse])
  | some pattern =>
      decidable_of_iff
        (Pattern.Matches name.toList.toArray pattern 0 name.toList.toArray.size)
        (by simp [MatchesWhole, hparse])

/-- A key, read between anchors, is found in a name. -/
def Fits (key name : String) : Prop :=
  ∃ pattern, parse? (wholeName key) = some pattern ∧ pattern.isMatch name = true

/-- The explanation of the first entry that bans something and whose key applies. -/
inductive FirstBan (applies : String → Prop) : List (String × Ban) → String → Prop
  | here {key : String} {ban : Ban} {rest : List (String × Ban)} {explanation : String}
      (hban : ban.explanation? = some explanation) (happlies : applies key) :
      FirstBan applies ((key, ban) :: rest) explanation
  | later {key : String} {ban : Ban} {rest : List (String × Ban)} {explanation : String}
      (hskip : ban = .enabled false ∨ ¬applies key) (hrest : FirstBan applies rest explanation) :
      FirstBan applies ((key, ban) :: rest) explanation

namespace FirstBan

theorem cons_iff : FirstBan applies ((key, ban) :: rest) explanation ↔
    (ban.explanation? = some explanation ∧ applies key) ∨
      ((ban = .enabled false ∨ ¬applies key) ∧ FirstBan applies rest explanation) := by
  constructor
  · intro hfirst
    cases hfirst with
    | here hban happlies => exact .inl ⟨hban, happlies⟩
    | later hskip hrest => exact .inr ⟨hskip, hrest⟩
  · rintro (⟨hban, happlies⟩ | ⟨hskip, hrest⟩)
    · exact .here hban happlies
    · exact .later hskip hrest

/-- Only the keys of entries that ban something count. -/
theorem congr {other : String → Prop}
    (hkeys : ∀ entry ∈ entries, entry.2 ≠ .enabled false → (applies entry.1 ↔ other entry.1)) :
    FirstBan applies entries explanation ↔ FirstBan other entries explanation := by
  induction entries with
  | nil => constructor <;> intro hfirst <;> cases hfirst
  | cons entry rest ih =>
      obtain ⟨key, ban⟩ := entry
      have hrest := ih fun entry hmem => hkeys entry (List.mem_cons_of_mem _ hmem)
      rw [cons_iff, cons_iff, hrest]
      by_cases hfalse : ban = .enabled false
      · simp [hfalse, Ban.explanation?]
      · rw [hkeys (key, ban) List.mem_cons_self hfalse]

theorem exists_of_applies (hbans : ban ≠ .enabled false) (happlies : applies key) :
    ∃ explanation, FirstBan applies ((key, ban) :: rest) explanation := by
  obtain ⟨explanation, hban⟩ :=
    Option.ne_none_iff_exists'.mp (mt Ban.explanation?_eq_none_iff.mp hbans)
  exact ⟨explanation, .here hban happlies⟩

theorem exists_iff : (∃ explanation, FirstBan applies entries explanation) ↔
    ∃ entry ∈ entries, entry.2 ≠ .enabled false ∧ applies entry.1 := by
  constructor
  · rintro ⟨explanation, hfirst⟩
    induction hfirst with
    | here hban happlies =>
        exact ⟨_, List.mem_cons_self, Ban.ne_of_explanation? hban, happlies⟩
    | later _ _ ih =>
        obtain ⟨entry, hmem, hentry⟩ := ih
        exact ⟨entry, List.mem_cons_of_mem _ hmem, hentry⟩
  · rintro ⟨entry, hmem, hbans, happlies⟩
    induction hmem with
    | head rest => exact exists_of_applies hbans happlies
    | tail first hmem ih =>
        by_cases hfirst : first.2 ≠ .enabled false ∧ applies first.1
        · exact exists_of_applies hfirst.1 hfirst.2
        · obtain ⟨explanation, hrest⟩ := ih
          rw [not_and_or, not_not] at hfirst
          exact ⟨explanation, .later hfirst hrest⟩

end FirstBan

/-! ## Reading bans -/

theorem compile_eq_ok_iff {text : String} {pattern : Pattern} :
    Options.compile rule text = .ok pattern ↔ parse? text = some pattern := by
  rw [Options.compile]
  cases parse? text <;> simp

theorem compile_cons_of_none (hban : ban.explanation? = none) :
    compile rule ((key, ban) :: rest) = compile rule rest := by
  rw [compile, List.filterMap_cons_none (by simp [hban])]
  rfl

theorem compile_cons_eq_ok_iff (hban : ban.explanation? = some explanation) :
    compile rule ((key, ban) :: rest) = .ok bans ↔
      ∃ pattern others, parse? (wholeName key) = some pattern ∧
        compile rule rest = .ok others ∧ (pattern, explanation) :: others = bans := by
  rw [compile, List.filterMap_cons_some (by simp [hban]; rfl), List.mapM_cons, bind_eq_ok_iff]
  simp only [bind_eq_ok_iff, pure, Except.pure, Except.ok.injEq, compile_eq_ok_iff]
  constructor
  · rintro ⟨_, ⟨pattern, hparse, rfl⟩, others, hothers, hbans⟩
    exact ⟨pattern, others, hparse, hothers, hbans⟩
  · rintro ⟨pattern, others, hparse, hothers, hbans⟩
    exact ⟨_, ⟨pattern, hparse, rfl⟩, others, hothers, hbans⟩

theorem explanation?_cons (pattern : Pattern) (text : String) (others : BanList) :
    explanation? ((pattern, text) :: others) name =
      if pattern.isMatch name then some text else others.explanation? name := by
  rw [explanation?, List.find?_cons]
  cases pattern.isMatch name <;> rfl

/-- The first entry whose pattern is found in a name explains it. -/
theorem explanation?_eq_some_iff_fits (hcompile : compile rule entries = .ok bans) :
    bans.explanation? name = some explanation ↔ FirstBan (Fits · name) entries explanation := by
  induction entries generalizing bans with
  | nil =>
      cases hcompile
      constructor <;> intro hfirst <;> cases hfirst
  | cons entry rest ih =>
      obtain ⟨key, ban⟩ := entry
      rw [FirstBan.cons_iff]
      cases hban : ban.explanation? with
      | none =>
          rw [compile_cons_of_none hban] at hcompile
          simp [ih hcompile, Ban.explanation?_eq_none_iff.mp hban]
      | some text =>
          obtain ⟨pattern, others, hparse, hothers, rfl⟩ :=
            (compile_cons_eq_ok_iff hban).mp hcompile
          have hfits : Fits key name ↔ pattern.isMatch name = true := by
            simp [Fits, hparse]
          have hbans : ban ≠ .enabled false := Ban.ne_of_explanation? hban
          rw [explanation?_cons, ← ih hothers, hfits]
          by_cases hmatch : pattern.isMatch name = true <;> simp [hmatch, hbans]

theorem exists_parse?_of_compile (hcompile : compile rule entries = .ok bans) :
    ∀ entry ∈ entries, entry.2 ≠ .enabled false →
      ∃ pattern, parse? (wholeName entry.1) = some pattern := by
  intro entry hmem hbans
  induction hmem generalizing bans with
  | head rest =>
      obtain ⟨explanation, hban⟩ :=
        Option.ne_none_iff_exists'.mp (mt Ban.explanation?_eq_none_iff.mp hbans)
      obtain ⟨pattern, _, hparse, _⟩ := (compile_cons_eq_ok_iff hban).mp hcompile
      exact ⟨pattern, hparse⟩
  | tail first _ ih =>
      cases hban : first.2.explanation? with
      | none => exact ih ((compile_cons_of_none hban).symm.trans hcompile)
      | some explanation =>
          obtain ⟨_, others, _, hothers, _⟩ := (compile_cons_eq_ok_iff hban).mp hcompile
          exact ih hothers

/-! ## What a key catches -/

/-- A group that anchors hold at both ends: one alternative, at whose end lines and layout
do not count. -/
structure IsHeld (state : GroupState) : Prop where
  fits : state.close.size ≤ Pattern.sizeLimit
  single : state.before = []
  lines : state.flags.multiLine = false
  layout : state.flags.extended = false

/-- A key that is a pattern of its own and is held at both ends by anchors. -/
def IsUndivided (key : String) : Prop := ∃ state, readText? key = some state ∧ IsHeld state

instance : Decidable (IsUndivided key) :=
  match hread : readText? key with
  | none => .isFalse (by simp [IsUndivided, hread])
  | some state =>
      decidable_of_iff
        (state.close.size ≤ Pattern.sizeLimit ∧ state.before = [] ∧
          state.flags.multiLine = false ∧ state.flags.extended = false)
        ⟨fun ⟨hfits, hsingle, hlines, hlayout⟩ =>
            ⟨state, hread, hfits, hsingle, hlines, hlayout⟩,
          fun ⟨_, hstate, hheld⟩ =>
            Option.some.inj (hread.symm.trans hstate) ▸
              ⟨hheld.fits, hheld.single, hheld.lines, hheld.layout⟩⟩

/-- A key that does not leave out layout at its end. -/
def IsPlain (key : String) : Prop :=
  ∃ state, readText? key = some state ∧ state.flags.extended = false

/-- A key catches what its alternatives describe, held at the start by the first and at the
end by the last of them. -/
def Catches (key name : String) : Prop :=
  ∃ state, readText? key = some state ∧ ∃ i j, state.Catches name.toList.toArray i j

theorem fits_iff_catches {pattern : Pattern} (hplain : IsPlain key)
    (hparse : parse? (wholeName key) = some pattern) : Fits key name ↔ Catches key name := by
  obtain ⟨state, hread, hlayout⟩ := hplain
  calc Fits key name
      ↔ pattern.isMatch name = true := by simp [Fits, hparse]
    _ ↔ ∃ i j, state.Catches name.toList.toArray i j :=
        Pattern.isMatch_anchored_iff hread hlayout hparse
    _ ↔ Catches key name := by simp [Catches, hread]

/-- Anchors lose no name that the key describes as a whole. -/
theorem catches_of_matchesWhole (hwhole : MatchesWhole key name) : Catches key name := by
  obtain ⟨pattern, hparse, hmatches⟩ := hwhole
  rw [parse?] at hparse
  cases hread : readText? key with
  | none =>
      rw [hread] at hparse
      cases hparse
  | some state =>
      rw [hread] at hparse
      dsimp only at hparse
      split at hparse <;> cases hparse
      exact ⟨state, hread, 0, _, state.catches_of_matches_close hmatches⟩

theorem catches_iff_matchesWhole (hkey : IsUndivided key) :
    Catches key name ↔ MatchesWhole key name := by
  obtain ⟨state, hread, hheld⟩ := hkey
  have hparse : parse? key = some state.close := by
    rw [parse?, hread]
    exact if_pos hheld.fits
  calc Catches key name
      ↔ ∃ i j, state.Catches name.toList.toArray i j := by simp [Catches, hread]
    _ ↔ Pattern.Matches name.toList.toArray state.close 0 name.toList.toArray.size :=
        Pattern.GroupState.exists_catches_iff hheld.single hheld.lines
    _ ↔ MatchesWhole key name := by simp [MatchesWhole, hparse]

/-- The first entry that catches a name explains it. -/
theorem explanation?_eq_some_iff_catches (hcompile : compile rule entries = .ok bans)
    (hkeys : ∀ entry ∈ entries, entry.2 ≠ .enabled false → IsPlain entry.1) :
    bans.explanation? name = some explanation ↔
      FirstBan (Catches · name) entries explanation := by
  rw [explanation?_eq_some_iff_fits hcompile]
  apply FirstBan.congr
  intro entry hmem hbans
  obtain ⟨pattern, hparse⟩ := exists_parse?_of_compile hcompile entry hmem hbans
  exact fits_iff_catches (hkeys entry hmem hbans) hparse

end BanList

end ReactiveLint
