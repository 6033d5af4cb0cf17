import Mathlib.Data.List.DropRight
import Mathlib.Data.Set.Function
import ReactiveLint.Proofs.Fix.Splice
import ReactiveLint.Proofs.Text.Listing
import ReactiveLint.Proofs.Text.Positions

/-!
# The numbering of places

A line and a column number a place between two characters.  The position of an offset counts
the line feeds before it and the characters since the last one, so every place of a text has
a position of its own, and `offset?` finds the place of a position.
-/

namespace ReactiveLint.Text

variable {source : String} {cs before after line : List Char} {texts : List (List Char)}
  {origin position : Position} {offset start stop : Nat}

/-! ## Passing characters -/

/-- The position behind characters. -/
def Position.past (origin : Position) (cs : List Char) : Position := cs.foldl Position.next origin

theorem positionFrom_append (hle : byteLength before ≤ offset) :
    positionFrom origin (before ++ after) offset =
      positionFrom (origin.past before) after (offset - byteLength before) := by
  induction before generalizing origin offset with
  | nil => rfl
  | cons c before ih =>
      rw [byteLength] at hle
      have hpos := c.utf8Size_pos
      rw [List.cons_append, positionFrom, if_neg (by omega), ih (by omega), byteLength,
        Nat.sub_sub]
      rfl

/-- The position of a place is the one behind the characters before it. -/
theorem position_byteLength (hparts : source.toList = before ++ after) :
    Text.position source (byteLength before) = Position.first.past before := by
  rw [Text.position, hparts, positionFrom_append (Nat.le_refl _), Nat.sub_self, positionFrom_zero]

theorem position_of_le (hle : byteLength source.toList ≤ offset) :
    Text.position source offset = Position.first.past source.toList := by
  have happend : positionFrom .first (source.toList ++ []) offset = _ := positionFrom_append hle
  rwa [List.append_nil] at happend

namespace Position

theorem past_append (origin : Position) (before after : List Char) :
    origin.past (before ++ after) = (origin.past before).past after :=
  List.foldl_append

theorem past_of_feed_not_mem (hline : '\n' ∉ line) :
    origin.past line = ⟨origin.line, origin.column + line.length⟩ := by
  induction line generalizing origin with
  | nil => rfl
  | cons c line ih =>
      rw [List.mem_cons, not_or] at hline
      have hnext : origin.next c = ⟨origin.line, origin.column + 1⟩ := if_neg (Ne.symm hline.1)
      rw [past, List.foldl_cons, hnext, ← past, ih hline.2, List.length_cons, Nat.add_assoc,
        Nat.add_comm 1]

theorem past_unlines (htexts : ∀ line ∈ texts, '\n' ∉ line) (number : Nat) :
    (⟨number, 1⟩ : Position).past (unlines texts) = ⟨number + texts.length, 1⟩ := by
  induction texts generalizing number with
  | nil => rfl
  | cons line texts ih =>
      obtain ⟨hline, htexts⟩ := List.forall_mem_cons.mp htexts
      have hfeed : (⟨number, 1 + line.length⟩ : Position).past ['\n'] = ⟨number + 1, 1⟩ := rfl
      rw [unlines, List.flatMap_cons, ← unlines, past_append, past_append,
        past_of_feed_not_mem hline, hfeed, ih htexts, List.length_cons, Nat.add_assoc,
        Nat.add_comm 1]

/-- A position counts line feeds, and the characters since the last one. -/
theorem first_past (cs : List Char) :
    first.past cs =
      ⟨1 + cs.count '\n', 1 + (cs.rtakeWhile fun c => decide (c ≠ '\n')).length⟩ := by
  induction cs using List.reverseRecOn with
  | nil => rfl
  | append_singleton cs c ih =>
      rw [past_append, ih, List.count_append, List.rtakeWhile_concat]
      by_cases hfeed : c = '\n'
      · subst hfeed
        rfl
      · rw [if_pos (decide_eq_true hfeed), List.length_append, List.count_singleton,
          if_neg (by simpa using hfeed)]
        exact if_neg hfeed

end Position

/-! ## Places and lines -/

theorem unlines_lines (cs : List Char) : unlines (lines cs) = cs ++ ['\n'] := by
  induction cs with
  | nil => rfl
  | cons c cs ih =>
      rw [lines]
      split
      next hfeed =>
        rw [unlines, List.flatMap_cons, ← unlines, ih, hfeed]
        rfl
      next =>
        split
        next line rest hlines =>
          rw [hlines, unlines, List.flatMap_cons] at ih
          rw [unlines, List.flatMap_cons, List.cons_append, List.cons_append, ih]
          rfl
        next hlines => exact absurd hlines (lines_ne_nil cs)

theorem lines_unlines_append (htexts : ∀ line ∈ texts, '\n' ∉ line) (cs : List Char) :
    lines (unlines texts ++ cs) = texts ++ lines cs := by
  induction texts with
  | nil => rfl
  | cons line texts ih =>
      obtain ⟨hline, htexts⟩ := List.forall_mem_cons.mp htexts
      rw [unlines, List.flatMap_cons, List.append_assoc, List.append_assoc,
        List.singleton_append, lines_append_feed hline, ← unlines, ih htexts, List.cons_append]

theorem exists_lines_append (hline : '\n' ∉ line) (cs : List Char) :
    ∃ first rest, lines (line ++ cs) = (line ++ first) :: rest := by
  induction line with
  | nil => exact List.exists_cons_of_ne_nil (lines_ne_nil cs)
  | cons c line ih =>
      rw [List.mem_cons, not_or] at hline
      obtain ⟨first, rest, hlines⟩ := ih hline.2
      refine ⟨first, rest, ?_⟩
      rw [List.cons_append, lines, if_neg (Ne.symm hline.1), hlines]
      rfl

/-- Every text is whole lines and the start of one more. -/
theorem exists_unlines (cs : List Char) :
    ∃ texts line, cs = unlines texts ++ line ∧ (∀ text ∈ texts, '\n' ∉ text) ∧ '\n' ∉ line := by
  have hsplit := List.dropLast_append_getLast (lines_ne_nil cs)
  have hfeeds := feed_not_mem_lines cs
  have hunlines := unlines_lines cs
  generalize (lines cs).dropLast = texts, (lines cs).getLast _ = line at hsplit
  rw [← hsplit] at hfeeds hunlines
  rw [unlines, List.flatMap_append, List.flatMap_singleton, ← List.append_assoc] at hunlines
  rw [List.forall_mem_append, List.forall_mem_singleton] at hfeeds
  exact ⟨texts, line, (List.append_cancel_right hunlines).symm, hfeeds⟩

theorem lineStart_append (texts rest : List (List Char)) :
    lineStart (texts ++ rest) texts.length = byteLength (unlines texts) := by
  induction texts with
  | nil => cases rest <;> rfl
  | cons line texts ih =>
      rw [List.cons_append, List.length_cons, lineStart, ih]
      simp only [unlines, List.flatMap_cons, byteLength_append]
      rfl

/-- The part of a text before one of its lines, and a part of that line. -/
theorem exists_append_of_lines {rest : List (List Char)} (hlines : lines cs = texts ++ line :: rest)
    (column : Nat) : ∃ after, cs = unlines texts ++ line.take column ++ after := by
  have hunlines := unlines_lines cs
  -- a line feed before each of some lines is one behind each, but for the last
  have hfeeds : ∀ rest : List (List Char), ∃ tail, '\n' :: unlines rest = tail ++ ['\n'] := by
    intro rest
    cases rest using List.reverseRecOn with
    | nil => exact ⟨[], rfl⟩
    | append_singleton rest last =>
        exact ⟨'\n' :: (unlines rest ++ last), by simp [unlines]⟩
  obtain ⟨tail, htail⟩ := hfeeds rest
  have hparts : cs ++ ['\n'] =
      unlines texts ++ line.take column ++ (line.drop column ++ tail) ++ ['\n'] := by
    rw [← hunlines, hlines, unlines, List.flatMap_append, List.flatMap_cons, ← unlines, ← unlines]
    simp only [List.append_assoc, ← htail, List.singleton_append]
    rw [← List.append_assoc (line.take column), List.take_append_drop]
  exact ⟨line.drop column ++ tail, List.append_cancel_right hparts⟩

/-! ## Offsets of positions -/

theorem offset?_past (hparts : source.toList = before ++ after) :
    offset? source (Position.first.past before) = some (byteLength before) := by
  obtain ⟨texts, line, rfl, htexts, hline⟩ := exists_unlines before
  obtain ⟨first, rest, hfirst⟩ := exists_lines_append hline after
  have hlines : lines source.toList = texts ++ (line ++ first) :: rest := by
    rw [hparts, List.append_assoc, lines_unlines_append htexts, hfirst]
  have hpast : Position.first.past (unlines texts ++ line) =
      ⟨texts.length + 1, line.length + 1⟩ := by
    rw [Position.past_append, Position.first, Position.past_unlines htexts,
      Position.past_of_feed_not_mem hline, Nat.add_comm, Nat.add_comm 1]
  rw [hpast, offset?]
  simp only [hlines, List.getElem?_append_right (Nat.le_refl _), Nat.sub_self,
    List.getElem?_cons_zero, List.length_append, Nat.le_add_right, if_true, List.take_left,
    lineStart_append, byteLength_append]

theorem exists_of_offset? (hoffset : offset? source position = some offset) :
    ∃ before after, source.toList = before ++ after ∧ byteLength before = offset ∧
      Position.first.past before = position := by
  obtain ⟨_ | index, _ | column⟩ := position
  · cases hoffset
  · cases hoffset
  · cases hoffset
  simp only [offset?] at hoffset
  split at hoffset
  next line hline =>
    obtain ⟨hindex, hget⟩ := List.getElem?_eq_some_iff.mp hline
    have hlines : lines source.toList =
        (lines source.toList).take index ++ line :: (lines source.toList).drop (index + 1) := by
      rw [← hget, ← List.drop_eq_getElem_cons hindex, List.take_append_drop]
    have hlength : ((lines source.toList).take index).length = index :=
      List.length_take_of_le (Nat.le_of_lt hindex)
    have hfeeds := feed_not_mem_lines source.toList
    generalize (lines source.toList).take index = texts,
      (lines source.toList).drop (index + 1) = rest at hlines hlength
    subst hlength
    rw [hlines, lineStart_append, Option.ite_none_right_eq_some, Option.some.injEq] at hoffset
    rw [hlines, List.forall_mem_append, List.forall_mem_cons] at hfeeds
    obtain ⟨after, hparts⟩ := exists_append_of_lines hlines column
    refine ⟨_, after, hparts, (byteLength_append ..).trans hoffset.2, ?_⟩
    have htake : '\n' ∉ line.take column := fun hmem => hfeeds.2.1 (List.mem_of_mem_take hmem)
    rw [Position.past_append, Position.first, Position.past_unlines hfeeds.1,
      Position.past_of_feed_not_mem htake, List.length_take_of_le hoffset.1, Nat.add_comm,
      Nat.add_comm 1]
  next => cases hoffset

theorem offset?_position (hoffset : IsBoundary source.toList offset) :
    offset? source (Text.position source offset) = some offset := by
  obtain ⟨before, after, hparts, rfl⟩ := isBoundary_iff.mp hoffset
  rw [position_byteLength hparts, offset?_past hparts]

theorem position_of_offset? (hoffset : offset? source position = some offset) :
    IsBoundary source.toList offset ∧ Text.position source offset = position := by
  obtain ⟨before, after, hparts, rfl, rfl⟩ := exists_of_offset? hoffset
  exact ⟨isBoundary_iff.mpr ⟨before, after, hparts, rfl⟩, position_byteLength hparts⟩

theorem bijOn_position (source : String) :
    Set.BijOn (Text.position source) {offset | IsBoundary source.toList offset}
      {position | (offset? source position).isSome} := by
  refine ⟨fun offset hoffset => ?_, fun start hstart stop hstop hsame => ?_,
    fun position hposition => ?_⟩
  · change (offset? source _).isSome = true
    rw [offset?_position hoffset, Option.isSome_some]
  · have hfound := offset?_position hstart
    rw [hsame, offset?_position hstop] at hfound
    exact (Option.some.inj hfound).symm
  · obtain ⟨offset, hoffset⟩ := Option.isSome_iff_exists.mp hposition
    obtain ⟨hboundary, hback⟩ := position_of_offset? hoffset
    exact ⟨offset, hboundary, hback⟩

/-- The strict order in which a text is read. -/
def Position.Before (left right : Position) : Prop :=
  left.line < right.line ∨ left.line = right.line ∧ left.column < right.column

theorem Position.NotAfter.before_of_ne {left right : Position} (hle : left.NotAfter right)
    (hne : left ≠ right) : left.Before right := by
  rcases hle with hline | ⟨hline, hcolumn⟩
  · exact .inl hline
  · refine .inr ⟨hline, Nat.lt_of_le_of_ne hcolumn fun hsame => hne ?_⟩
    cases left
    cases right
    exact Position.mk.injEq .. ▸ ⟨hline, hsame⟩

theorem position_strictMono (hstart : IsBoundary source.toList start)
    (hstop : IsBoundary source.toList stop) (hlt : start < stop) :
    (Text.position source start).Before (Text.position source stop) := by
  refine Position.NotAfter.before_of_ne (position_mono source (Nat.le_of_lt hlt)) fun hsame => ?_
  exact Nat.ne_of_lt hlt ((bijOn_position source).injOn hstart hstop hsame)

/-! ## The numbering -/

/-- Lines and columns number the places between the characters of a text, the two ends
included. -/
structure IsNumbered (source : String) : Prop where
  bijOn : Set.BijOn (Text.position source) {offset | IsBoundary source.toList offset}
    {position | (offset? source position).isSome}
  offset?_position : ∀ offset, IsBoundary source.toList offset →
    offset? source (Text.position source offset) = some offset
  position_offset? : ∀ position offset, offset? source position = some offset →
    Text.position source offset = position
  /-- A line is one more than the line feeds before a place, and a column one more than the
  characters since the last of them. -/
  counts : ∀ before after, source.toList = before ++ after →
    Text.position source (byteLength before) =
      ⟨1 + before.count '\n', 1 + (before.rtakeWhile fun c => decide (c ≠ '\n')).length⟩
  strictMono : ∀ start stop, IsBoundary source.toList start → IsBoundary source.toList stop →
    start < stop → (Text.position source start).Before (Text.position source stop)
  clamps : ∀ offset, byteLength source.toList ≤ offset →
    Text.position source offset = Text.position source (byteLength source.toList)

theorem isNumbered (source : String) : IsNumbered source where
  bijOn := bijOn_position source
  offset?_position _ := offset?_position
  position_offset? _ _ hoffset := (position_of_offset? hoffset).2
  counts before after hparts := by rw [position_byteLength hparts, Position.first_past]
  strictMono _ _ := position_strictMono
  clamps offset hle := by rw [position_of_le hle, position_of_le (Nat.le_refl _)]

example : Text.position "λ;\r\nx" 6 = ⟨2, 2⟩ ∧ offset? "λ;\r\nx" ⟨1, 4⟩ = some 4 := by
  decide

end ReactiveLint.Text
