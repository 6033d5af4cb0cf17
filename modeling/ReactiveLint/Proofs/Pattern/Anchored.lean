import ReactiveLint.Proofs.Pattern.Matching
import ReactiveLint.Proofs.Pattern.Readers

/-!
# Anchors around a text

The text of a pattern between `^` and `$` is read as that text, with the start of the text
before its first alternative and an end behind its last one.  The alternatives between
them, and the other side of these two, stay open.  A text that leaves out layout at its
end is another matter: the dollar sign may be part of a comment.
-/

namespace ReactiveLint.Pattern

variable {text : Array Char} {first rest : Pattern} {state next : GroupState} {step : Step}
  {flags : Flags} {names : List String} {c : Char} {cs after : List Char} {fuel more i j k : Nat}

/-! ## What a group describes -/

theorem matches_lead_iff :
    Matches text (lead first rest) i k ↔ ∃ j, Matches text first i j ∧ Matches text rest j k := by
  cases rest with
  | empty =>
      constructor
      · intro hmatches
        exact ⟨k, hmatches, .empty k hmatches.bounds.2⟩
      · rintro ⟨j, hfirst, hempty⟩
        cases hempty
        exact hfirst
  | _ => exact matches_seq_iff

theorem matches_sequenceBefore_iff (elements : List Element) (rest : Pattern) :
    Matches text (sequenceBefore rest elements) i k ↔
      ∃ j, Matches text (sequence elements) i j ∧ Matches text rest j k := by
  induction elements generalizing rest k with
  | nil =>
      constructor
      · intro hmatches
        exact ⟨i, .empty i (Nat.le_trans hmatches.bounds.1 hmatches.bounds.2), hmatches⟩
      · rintro ⟨j, hempty, hmatches⟩
        cases hempty
        exact hmatches
  | cons element elements ih =>
      cases element with
      | flags => exact ih rest
      | pattern pattern =>
          have hfront : ∀ {j}, Matches text (sequence (.pattern pattern :: elements)) i j ↔
              ∃ m, Matches text (sequence elements) i m ∧ Matches text pattern m j := ih pattern
          calc Matches text (sequenceBefore (lead pattern rest) elements) i k
              ↔ ∃ m, Matches text (sequence elements) i m ∧
                  ∃ j, Matches text pattern m j ∧ Matches text rest j k := by
                simp only [ih (lead pattern rest), matches_lead_iff]
            _ ↔ ∃ j, (∃ m, Matches text (sequence elements) i m ∧ Matches text pattern m j) ∧
                  Matches text rest j k := by
                constructor
                · rintro ⟨m, helements, j, hpattern, hrest⟩
                  exact ⟨j, ⟨m, helements, hpattern⟩, hrest⟩
                · rintro ⟨j, ⟨m, helements, hpattern⟩, hrest⟩
                  exact ⟨m, helements, j, hpattern, hrest⟩
            _ ↔ _ := by simp only [hfront]

theorem sequenceBefore_append (elements : List Element) (first rest : Pattern) :
    sequenceBefore rest (elements ++ [.pattern first]) =
      lead first (sequenceBefore rest elements) := by
  induction elements generalizing rest with
  | nil => rfl
  | cons element elements ih =>
      cases element with
      | pattern pattern => exact ih (lead pattern rest)
      | flags => exact ih rest

theorem matches_foldl_either_iff (others : List Pattern) (first : Pattern) :
    Matches text (others.foldl .either first) i j ↔
      ∃ alternative ∈ first :: others, Matches text alternative i j := by
  induction others generalizing first with
  | nil => simp
  | cons other others ih =>
      rw [List.foldl_cons, ih]
      simp only [List.mem_cons, exists_eq_or_imp, matches_either_iff, or_assoc]

namespace GroupState

/-- The alternatives of a group, the current one at last. -/
def alternatives (state : GroupState) : List Pattern :=
  state.before ++ [sequence state.elements]

theorem matches_close_iff : Matches text state.close i j ↔
    ∃ alternative ∈ state.alternatives, Matches text alternative i j := by
  rw [close, alternatives]
  cases state.before with
  | nil => simp
  | cons first others =>
      simp only [matches_either_iff, matches_foldl_either_iff, List.mem_append,
        List.mem_singleton, or_and_right, exists_or, exists_eq_left]

/-! ## A pattern before a group -/

/-- The state with a pattern before all that has been read. -/
def leadBy (state : GroupState) (first : Pattern) : GroupState :=
  match state.before with
  | [] => { state with elements := state.elements ++ [.pattern first] }
  | alternative :: others => { state with before := lead first alternative :: others }

theorem flags_leadBy (state : GroupState) (first : Pattern) :
    (state.leadBy first).flags = state.flags := by
  rw [leadBy]
  split <;> rfl

theorem names_leadBy (state : GroupState) (first : Pattern) :
    (state.leadBy first).names = state.names := by
  rw [leadBy]
  split <;> rfl

theorem divide_leadBy (state : GroupState) (first : Pattern) :
    (state.leadBy first).divide = state.divide.leadBy first := by
  obtain ⟨flags, names, before, elements⟩ := state
  cases before with
  | nil => simp [divide, leadBy, sequence, sequenceBefore_append]
  | cons alternative others => rfl

theorem repeatLast?_leadBy (first : Pattern) {bounds : Nat × Option Nat}
    (hrepeat : state.repeatLast? bounds = some next) :
    (state.leadBy first).repeatLast? bounds = some (next.leadBy first) := by
  obtain ⟨flags, names, before, elements⟩ := state
  cases elements with
  | nil => cases hrepeat
  | cons element elements =>
      cases element with
      | flags => cases hrepeat
      | pattern pattern =>
          cases hrepeat
          cases before <;> rfl

/-- A step goes the same way with a pattern before the group. -/
theorem take?_leadBy (first : Pattern) (htake : state.take? step = some next) :
    (state.leadBy first).take? step = some (next.leadBy first) := by
  cases step with
  | divide =>
      cases htake
      exact congrArg some (divide_leadBy state first)
  | repeated bounds => exact repeatLast?_leadBy first htake
  | _ =>
      cases htake
      obtain ⟨flags, names, before, elements⟩ := state
      cases before <;> rfl

end GroupState

/-! ## A dollar sign behind a group -/

/-- The flags behind a step. -/
def Step.flagsAfter (flags : Flags) : Step → Flags
  | .setFlags flags => flags
  | _ => flags

theorem GroupState.flags_of_take? (htake : state.take? step = some next) :
    next.flags = step.flagsAfter state.flags := by
  cases step with
  | repeated bounds =>
      rw [take?, repeatLast?] at htake
      split at htake <;> cases htake
      rfl
  | _ =>
      cases htake
      rfl

section

variable {readInner? readMore? : GroupState → List Char → Read GroupState}

/-- A reader of groups takes with a dollar sign at the end of the text what another takes
without it. -/
def Follows (readMore? readInner? : GroupState → List Char → Read GroupState) : Prop :=
  ∀ ⦃state cs inner after⦄, readInner? state cs = some (inner, after) →
    readMore? state (cs ++ ['$']) = some (inner, after ++ ['$'])

theorem readParenthesis?_append (hinner : Follows readMore? readInner?)
    (hread : readParenthesis? readInner? flags names cs = some (step, after)) :
    readParenthesis? readMore? flags names (cs ++ ['$']) = some (step, after ++ ['$']) := by
  rw [readParenthesis?] at hread ⊢
  obtain ⟨⟨opening, behind⟩, hopening, hgroup⟩ := Option.bind_eq_some_iff.mp hread
  rw [isLocal_readOpening flags hopening, Option.bind_some]
  cases opening with
  | setFlags flags => exact isLocal_some _ hgroup
  | group flags name =>
      dsimp only at hgroup ⊢
      split at hgroup
      next => cases hgroup
      next hname =>
        rw [if_neg hname]
        obtain ⟨⟨inner, rest⟩, hwithin, hpair⟩ := Option.map_eq_some_iff.mp hgroup
        cases hpair
        rw [hinner hwithin]
        rfl

theorem readBracket?_append {set : CharSet} (hfuel : fuel ≤ more)
    (hread : readBracket? flags fuel cs = some (set, after)) :
    readBracket? flags more (cs ++ ['$']) = some (set, after ++ ['$']) := by
  rw [readBracket?] at hread ⊢
  have hopening : (readClassOpening flags cs).2.2 ≠ [] := by
    intro hempty
    dsimp only at hread
    rw [hempty, readClass?_nil] at hread
    cases hread
  rw [readClassOpening_append hopening]
  exact readClass?_append hfuel hread

theorem dropLazy_append (cs : List Char) : dropLazy (cs ++ ['$']) = dropLazy cs ++ ['$'] := by
  cases cs with
  | nil => rfl
  | cons c cs =>
      rw [List.cons_append, dropLazy, dropLazy]
      split <;> rfl

/-- Layout behind a counted repetition must not go on to the end of the text. -/
theorem readBrace?_append {bounds : Nat × Option Nat}
    (hread : readBrace? flags cs = some (bounds, after))
    (hend : after = [] → flags.extended = false) :
    readBrace? flags (cs ++ ['$']) = some (bounds, after ++ ['$']) := by
  rw [readBrace?] at hread ⊢
  obtain ⟨⟨_, behind⟩, hbounds, hpair⟩ := Option.map_eq_some_iff.mp hread
  cases hpair
  have hlayout : layout flags (behind ++ ['$']) = layout flags behind ++ ['$'] := by
    cases hfront : layout flags behind with
    | nil =>
        have hflags : flags.extended = false := hend (by rw [hfront]; rfl)
        rw [layout_of_not_extended hflags] at hfront ⊢
        rw [hfront]
    | cons c rest => exact layout_append hfront
  rw [isLocal_readBounds flags hbounds, Option.map_some]
  dsimp only
  rw [hlayout, dropLazy_append]

/-- A step is the same with a dollar sign at the end of the text, unless it is the last one
and leaves out layout. -/
theorem readStep?_append (hinner : Follows readMore? readInner?) (hfuel : fuel ≤ more)
    (hread : readStep? readInner? fuel flags names c cs = some (step, after))
    (hend : after = [] → (step.flagsAfter flags).extended = false) :
    readStep? readMore? more flags names c (cs ++ ['$']) = some (step, after ++ ['$']) := by
  rw [readStep?] at hread ⊢
  by_cases hbar : c = '|'
  · rw [if_pos hbar] at hread ⊢
    exact isLocal_some _ hread
  rw [if_neg hbar] at hread ⊢
  by_cases hparenthesis : c = '('
  · rw [if_pos hparenthesis] at hread ⊢
    exact readParenthesis?_append hinner hread
  rw [if_neg hparenthesis] at hread ⊢
  by_cases hbracket : c = '['
  · rw [if_pos hbracket] at hread ⊢
    obtain ⟨⟨set, behind⟩, hclass, hpair⟩ := Option.map_eq_some_iff.mp hread
    cases hpair
    rw [readBracket?_append hfuel hclass]
    rfl
  rw [if_neg hbracket] at hread ⊢
  by_cases hbrace : c = '\x7b'
  · rw [if_pos hbrace] at hread ⊢
    obtain ⟨⟨bounds, behind⟩, hbounds, hpair⟩ := Option.map_eq_some_iff.mp hread
    cases hpair
    rw [readBrace?_append hbounds hend]
    rfl
  rw [if_neg hbrace] at hread ⊢
  cases hbounds : bounds? c with
  | some bounds =>
      rw [hbounds] at hread
      cases hread
      rw [dropLazy_append]
  | none =>
      rw [hbounds] at hread
      have hpattern : ∀ primitive : Primitive,
          IsLocal fun cs => (primitive.toPattern? flags).map (Step.pattern ·, cs) :=
        fun _ => isLocal_map _ _
      exact ((isLocal_readPrimitive flags).cons c).bind hpattern hread

end

theorem readGroup?_nil (nested : Bool) (fuel : Nat) (state : GroupState) :
    readGroup? nested (fuel + 1) state [] = if nested then none else some (state, []) := by
  rw [readGroup?, layout_nil]

theorem follows_readGroup (hfuel : fuel ≤ more) :
    Follows (readGroup? true more) (readGroup? true fuel) := by
  induction fuel generalizing more with
  | zero =>
      intro state cs next after hread
      cases hread
  | succ fuel ih =>
      intro state cs next after hread
      obtain ⟨more, rfl⟩ := Nat.exists_eq_add_one_of_ne_zero (Nat.ne_zero_of_lt hfuel)
      have hle : fuel ≤ more := Nat.le_of_succ_le_succ hfuel
      rw [readGroup?] at hread ⊢
      cases hfront : layout state.flags cs with
      | nil =>
          rw [hfront] at hread
          cases hread
      | cons c behind =>
          rw [hfront] at hread
          rw [layout_append hfront]
          dsimp only at hread ⊢
          split at hread
          next hclose =>
            rw [if_pos hclose]
            exact isLocal_some _ hread
          next hclose =>
            rw [if_neg hclose]
            obtain ⟨⟨step, rest⟩, hstep, hgroup⟩ := Option.bind_eq_some_iff.mp hread
            obtain ⟨taken, htake, hrest⟩ := Option.bind_eq_some_iff.mp hgroup
            -- a group within goes on up to its parenthesis, so no step ends the text
            have hend : rest = [] → (step.flagsAfter state.flags).extended = false := by
              rintro rfl
              cases fuel with
              | zero => cases hrest
              | succ fuel => cases (readGroup?_nil true fuel taken).symm.trans hrest
            rw [readStep?_append (ih hle) hle hstep hend, Option.bind_some]
            dsimp only
            rw [htake]
            exact ih hle hrest

/-- A group at the top, with a pattern before it and a dollar sign behind it. -/
theorem readGroup?_leadBy (first : Pattern) (hfuel : fuel < more)
    (hread : readGroup? false fuel state cs = some (next, after))
    (hflags : next.flags.extended = false) :
    readGroup? false more (state.leadBy first) (cs ++ ['$']) =
      some ((next.leadBy first).push (.anchor (endAnchor next.flags)), []) := by
  induction fuel generalizing more state cs with
  | zero => cases hread
  | succ fuel ih =>
      obtain ⟨more, rfl⟩ := Nat.exists_eq_add_one_of_ne_zero (Nat.ne_zero_of_lt hfuel)
      have hlt : fuel < more := Nat.lt_of_succ_lt_succ hfuel
      rw [readGroup?] at hread ⊢
      rw [GroupState.flags_leadBy, GroupState.names_leadBy]
      cases hfront : layout state.flags cs with
      | nil =>
          rw [hfront] at hread
          cases hread
          -- nothing is left but the dollar sign, which no comment can take
          rw [layout_of_not_extended hflags] at hfront ⊢
          subst hfront
          obtain ⟨more, rfl⟩ := Nat.exists_eq_add_one_of_ne_zero (Nat.ne_zero_of_lt hlt)
          exact readGroup?_nil false more _
      | cons c behind =>
          rw [hfront] at hread
          rw [layout_append hfront]
          dsimp only at hread ⊢
          split at hread
          next => cases hread
          next hclose =>
            rw [if_neg hclose]
            obtain ⟨⟨step, rest⟩, hstep, hgroup⟩ := Option.bind_eq_some_iff.mp hread
            obtain ⟨taken, htake, hrest⟩ := Option.bind_eq_some_iff.mp hgroup
            -- the flags behind the last step are those of the whole text
            have hend : rest = [] → (step.flagsAfter state.flags).extended = false := by
              rintro rfl
              cases fuel with
              | zero => cases hrest
              | succ fuel =>
                  cases (readGroup?_nil false fuel taken).symm.trans hrest
                  rw [← GroupState.flags_of_take? htake, hflags]
            have hle : fuel ≤ more := Nat.le_of_lt hlt
            rw [readStep?_append (follows_readGroup hle) hle hstep hend, Option.bind_some]
            dsimp only
            rw [GroupState.take?_leadBy first htake]
            exact ih hlt hrest

/-- A text between anchors is read as the text, with an anchor at each end. -/
theorem readText?_anchored {key : String} (hread : readText? key = some state)
    (hflags : state.flags.extended = false) :
    readText? ("^" ++ key ++ "$") =
      some ((state.leadBy (.anchor .textStart)).push (.anchor (endAnchor state.flags))) := by
  have htext : ("^" ++ key ++ "$").toList = '^' :: (key.toList ++ ['$']) := by
    simp [String.toList_append]
  obtain ⟨⟨state, after⟩, hgroup, rfl⟩ := Option.map_eq_some_iff.mp hread
  have hanchored := readGroup?_leadBy (.anchor .textStart)
    (Nat.lt_succ_self (key.toList.length + 1)) hgroup hflags
  rw [readText?, htext, List.length_cons, List.length_append]
  exact congrArg (Option.map (·.1)) hanchored

/-! ## What an anchored text describes -/

/-- The pieces that a text describes between anchors: the first alternative from the start
of the text, the last one up to an end, and those between them anywhere. -/
def GroupState.Catches (state : GroupState) (text : Array Char) (i j : Nat) : Prop :=
  match state.before with
  | [] =>
      i = 0 ∧ Matches text (sequence state.elements) i j ∧
        (endAnchor state.flags).holds text j = true
  | first :: others =>
      (i = 0 ∧ Matches text first i j) ∨ (∃ other ∈ others, Matches text other i j) ∨
        (Matches text (sequence state.elements) i j ∧
          (endAnchor state.flags).holds text j = true)

theorem matches_textStart_iff :
    Matches text (lead (.anchor .textStart) rest) i j ↔ i = 0 ∧ Matches text rest i j := by
  rw [matches_lead_iff]
  constructor
  · rintro ⟨k, hstart, hrest⟩
    cases hstart with
    | anchor hbound hholds => exact ⟨beq_iff_eq.mp hholds, hrest⟩
  · rintro ⟨rfl, hrest⟩
    exact ⟨0, .anchor (Nat.zero_le _) rfl, hrest⟩

theorem matches_sequence_anchor_iff {condition : Anchor} (elements : List Element) :
    Matches text (sequence (.pattern (.anchor condition) :: elements)) i j ↔
      Matches text (sequence elements) i j ∧ condition.holds text j = true := by
  rw [sequence, sequenceBefore, lead, matches_sequenceBefore_iff]
  constructor
  · rintro ⟨k, helements, hend⟩
    cases hend with
    | anchor hbound hholds => exact ⟨helements, hholds⟩
  · rintro ⟨helements, hholds⟩
    exact ⟨j, helements, .anchor helements.bounds.2 hholds⟩

theorem matches_anchored_iff (state : GroupState) :
    Matches text ((state.leadBy (.anchor .textStart)).push (.anchor (endAnchor state.flags))).close
      i j ↔ state.Catches text i j := by
  rw [GroupState.matches_close_iff, GroupState.leadBy, GroupState.Catches]
  cases state.before with
  | nil =>
      simp only [GroupState.alternatives, GroupState.push, List.nil_append, List.mem_singleton,
        exists_eq_left]
      rw [matches_sequence_anchor_iff, sequence, sequenceBefore_append, matches_textStart_iff,
        and_assoc]
      rfl
  | cons first others =>
      simp only [GroupState.alternatives, GroupState.push, List.cons_append, List.mem_cons,
        List.mem_append, List.not_mem_nil, or_false, or_and_right, exists_or, exists_eq_left,
        matches_textStart_iff, matches_sequence_anchor_iff]

theorem holds_endAnchor_size (flags : Flags) (text : Array Char) :
    (endAnchor flags).holds text text.size = true := by
  rw [endAnchor]
  split
  · simp [Anchor.holds]
  · split <;> simp [Anchor.holds]

theorem holds_endAnchor_iff (hlines : flags.multiLine = false) :
    (endAnchor flags).holds text j = true ↔ j = text.size := by
  simp [endAnchor, hlines, Anchor.holds]

namespace GroupState

/-- Anchors around a text lose nothing that it describes as a whole. -/
theorem catches_of_matches_close (hmatches : Matches text state.close 0 text.size) :
    state.Catches text 0 text.size := by
  rw [matches_close_iff, alternatives] at hmatches
  have hend := holds_endAnchor_size state.flags text
  rw [Catches]
  cases hbefore : state.before with
  | nil =>
      rw [hbefore, List.nil_append] at hmatches
      obtain ⟨alternative, hmem, hmatches⟩ := hmatches
      cases List.mem_singleton.mp hmem
      exact ⟨rfl, hmatches, hend⟩
  | cons first others =>
      rw [hbefore, List.cons_append] at hmatches
      obtain ⟨alternative, hmem, hmatches⟩ := hmatches
      cases List.mem_cons.mp hmem with
      | inl hfirst => exact .inl ⟨rfl, hfirst ▸ hmatches⟩
      | inr hothers =>
          cases List.mem_append.mp hothers with
          | inl hother => exact .inr (.inl ⟨alternative, hother, hmatches⟩)
          | inr hlast =>
              cases List.mem_singleton.mp hlast
              exact .inr (.inr ⟨hmatches, hend⟩)

/-- A text without alternatives is held at both ends. -/
theorem exists_catches_iff (hbefore : state.before = [])
    (hlines : state.flags.multiLine = false) :
    (∃ i j, state.Catches text i j) ↔ Matches text state.close 0 text.size := by
  constructor
  · rintro ⟨i, j, hcatches⟩
    rw [Catches, hbefore] at hcatches
    obtain ⟨rfl, hmatches, hend⟩ := hcatches
    rw [holds_endAnchor_iff hlines] at hend
    rw [close, hbefore]
    exact hend ▸ hmatches
  · intro hmatches
    exact ⟨0, text.size, catches_of_matches_close hmatches⟩

end GroupState

/-- A search for a text between anchors. -/
theorem isMatch_anchored_iff {key name : String} {pattern : Pattern}
    (hread : readText? key = some state) (hflags : state.flags.extended = false)
    (hparse : parse? ("^" ++ key ++ "$") = some pattern) :
    pattern.isMatch name = true ↔ ∃ i j, state.Catches name.toList.toArray i j := by
  rw [parse?, readText?_anchored hread hflags] at hparse
  dsimp only at hparse
  split at hparse
  · cases hparse
    simp only [isMatch_iff, matches_anchored_iff]
  · cases hparse

end ReactiveLint.Pattern
