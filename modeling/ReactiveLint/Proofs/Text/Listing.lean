import Mathlib.Data.List.Basic
import ReactiveLint.Text.Lines

/-!
# Texts of whole lines

A text in which every line is followed by a line feed has these lines, and the lines of
any text have no line feed in them.
-/

namespace ReactiveLint.Text

/-- Lines with a line feed after each of them. -/
def unlines (texts : List (List Char)) : List Char := texts.flatMap (· ++ ['\n'])

theorem lines_append_feed {line : List Char} (hline : '\n' ∉ line) (cs : List Char) :
    lines (line ++ '\n' :: cs) = line :: lines cs := by
  induction line with
  | nil => simp [lines]
  | cons c line ih =>
      rw [List.mem_cons, not_or] at hline
      rw [List.cons_append, lines, if_neg (Ne.symm hline.1), ih hline.2]

theorem lines_unlines {texts : List (List Char)} (htexts : ∀ line ∈ texts, '\n' ∉ line) :
    lines (unlines texts) = texts ++ [[]] := by
  induction texts with
  | nil => rfl
  | cons line texts ih =>
      obtain ⟨hline, htexts⟩ := List.forall_mem_cons.mp htexts
      rw [unlines, List.flatMap_cons, List.append_assoc, List.singleton_append,
        lines_append_feed hline, ← unlines, ih htexts, List.cons_append]

theorem feed_not_mem_lines (cs : List Char) : ∀ line ∈ lines cs, '\n' ∉ line := by
  induction cs with
  | nil => simp [lines]
  | cons c cs ih =>
      rw [lines]
      split
      next => exact List.forall_mem_cons.mpr ⟨by simp, ih⟩
      next hne =>
        split
        next line rest hlines =>
          rw [hlines, List.forall_mem_cons] at ih
          rw [List.forall_mem_cons]
          exact ⟨by simp [Ne.symm hne, ih.1], ih.2⟩
        next => simp [Ne.symm hne]

theorem dropCarriageReturn_sublist (line : List Char) :
    (dropCarriageReturn line).Sublist line := by
  rw [dropCarriageReturn]
  split
  next => exact List.dropLast_sublist line
  next => exact List.Sublist.refl line

theorem exists_sublist_of_mem_listed {texts : List (List Char)} {line : List Char}
    (hline : line ∈ listed texts) : ∃ text ∈ texts, line.Sublist text := by
  induction texts using listed.induct with
  | case1 => simp [listed] at hline
  | case2 => simp [listed] at hline
  | case3 last hlast =>
      rw [listed, List.mem_singleton] at hline
      · exact ⟨last, by simp, by rw [hline]⟩
      · exact hlast
  | case4 first rest hempty hlast ih =>
      rw [listed, List.mem_cons] at hline
      · rcases hline with rfl | hline
        · exact ⟨first, by simp, dropCarriageReturn_sublist first⟩
        · obtain ⟨text, htext, hsub⟩ := ih hline
          exact ⟨text, List.mem_cons_of_mem first htext, hsub⟩
      · exact hempty
      · exact hlast

theorem feed_not_mem_listing (source : String) :
    ∀ line ∈ listing source, '\n' ∉ line.toList := by
  intro line hline
  obtain ⟨cs, hcs, rfl⟩ := List.mem_map.mp hline
  obtain ⟨text, htext, hsub⟩ := exists_sublist_of_mem_listed hcs
  rw [String.toList_ofList]
  exact fun hfeed => feed_not_mem_lines source.toList text htext (hsub.subset hfeed)

end ReactiveLint.Text
