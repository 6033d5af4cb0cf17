import ReactiveLint.Proofs.Fix.DiffText

/-!
# Applying diffs

A hunk says which lines it takes away from the old text and which it leaves in the new
one.  The hunk between two lists of lines is always right about both, but its head names
the first line that differs although the line above it stands in the hunk as context, and
counts the lines of the whole texts.  So the diff of two texts applies at its start line
just when they differ from their first line on.
-/

namespace ReactiveLint

open Text

namespace DiffLine

/-- What a line stands for in the old text. -/
def old? : DiffLine → Option String
  | context text => some text
  | removed text => some text
  | added _ => none

/-- What a line stands for in the new text. -/
def new? : DiffLine → Option String
  | context text => some text
  | removed _ => none
  | added text => some text

theorem filterMap_old? (olds news : List String) : (diffLines olds news).filterMap old? = olds := by
  induction olds, news using diffLines.induct with
  | case1 => simp [diffLines]
  | case2 old olds ih => rw [diffLines, List.filterMap_cons_some (f := old?) rfl, ih]
  | case3 new news ih => rw [diffLines, List.filterMap_cons_none rfl, ih]
  | case4 old olds news ih =>
      rw [diffLines, if_pos rfl, List.filterMap_cons_some (f := old?) rfl, ih]
  | case5 old olds new news hne ih =>
      rw [diffLines, if_neg hne, List.filterMap_cons_some (f := old?) rfl,
        List.filterMap_cons_none rfl, ih]

theorem filterMap_new? (olds news : List String) : (diffLines olds news).filterMap new? = news := by
  induction olds, news using diffLines.induct with
  | case1 => simp [diffLines]
  | case2 old olds ih => rw [diffLines, List.filterMap_cons_none rfl, ih]
  | case3 new news ih => rw [diffLines, List.filterMap_cons_some (f := new?) rfl, ih]
  | case4 old olds news ih =>
      rw [diffLines, if_pos rfl, List.filterMap_cons_some (f := new?) rfl, ih]
  | case5 old olds new news hne ih =>
      rw [diffLines, if_neg hne, List.filterMap_cons_none rfl,
        List.filterMap_cons_some (f := new?) rfl, ih]

/-- Context stands for itself on a side that shows it. -/
theorem filterMap_map_context {side? : DiffLine → Option String}
    (hside : ∀ text, side? (.context text) = some text) (texts : List String) :
    (texts.map .context).filterMap side? = texts := by
  have hsome : side? ∘ .context = some := funext hside
  rw [List.filterMap_map, hsome, List.filterMap_some]

end DiffLine

namespace Hunk

def olds (hunk : Hunk) : List String := hunk.lines.filterMap DiffLine.old?

def news (hunk : Hunk) : List String := hunk.lines.filterMap DiffLine.new?

theorem text_mem (hunk : Hunk) {line : DiffLine} (hline : line ∈ hunk.lines) :
    line.text ∈ hunk.olds ∨ line.text ∈ hunk.news := by
  cases line with
  | context text => exact .inl (List.mem_filterMap.mpr ⟨_, hline, rfl⟩)
  | removed text => exact .inl (List.mem_filterMap.mpr ⟨_, hline, rfl⟩)
  | added text => exact .inr (List.mem_filterMap.mpr ⟨_, hline, rfl⟩)

/-- The lines with the hunk applied below the first of them, which needs its old lines to
stand there. -/
def patchBelow? (hunk : Hunk) (above : Nat) (lines : List String) : Option (List String) :=
  ((lines.drop above).dropPrefix? hunk.olds).map fun rest => lines.take above ++ hunk.news ++ rest

/-- The lines with the hunk applied where its head says. -/
def patch? (hunk : Hunk) (lines : List String) : Option (List String) :=
  hunk.patchBelow? (hunk.start - 1) lines

/-- The head counts the old and the new lines of the hunk. -/
def CountsLines (hunk : Hunk) : Prop :=
  hunk.oldCount = hunk.olds.length ∧ hunk.newCount = hunk.news.length

/-- The hunk of two lists that part below a common front, whose last line is its context. -/
def parted (front oldTail newTail : List String) : Hunk :=
  ⟨front.length + 1, (front ++ oldTail).length, (front ++ newTail).length,
    front.getLast?.toList.map .context ++ diffLines oldTail newTail⟩

end Hunk

/-- A text is a unified diff of two lists of lines of a file: there is a hunk just when
they differ, its head counts its lines, and it makes the new lines of the old ones. -/
def IsUnifiedDiff (file diff : String) (olds news : List String) : Prop :=
  ∃ hunk?, readDiff? file diff = some hunk? ∧ (hunk?.isSome ↔ olds ≠ news) ∧
    ∀ hunk ∈ hunk?, hunk.CountsLines ∧ hunk.patch? olds = some news

/-! ## Where two lists part -/

theorem exists_front {olds news : List String} (hne : olds ≠ news) :
    ∃ front oldTail newTail, olds = front ++ oldTail ∧ news = front ++ newTail ∧
      oldTail.head? ≠ newTail.head? := by
  induction olds generalizing news with
  | nil =>
      obtain ⟨new, news, rfl⟩ := List.exists_cons_of_ne_nil hne.symm
      exact ⟨[], [], new :: news, rfl, rfl, by simp⟩
  | cons old olds ih =>
      cases news with
      | nil => exact ⟨[], old :: olds, [], rfl, rfl, by simp⟩
      | cons new news =>
          by_cases hline : old = new
          · subst hline
            obtain ⟨front, oldTail, newTail, rfl, rfl, hpart⟩ := ih fun heq => hne (by rw [heq])
            exact ⟨old :: front, oldTail, newTail, rfl, rfl, hpart⟩
          · exact ⟨[], old :: olds, new :: news, rfl, rfl, by simpa using hline⟩

section Parted

variable {front oldTail newTail : List String} (hpart : oldTail.head? ≠ newTail.head?)
include hpart

/-- The lists agree in their first lines up to where they part. -/
theorem take_ne_take_iff {count : Nat} :
    (front ++ oldTail).take count ≠ (front ++ newTail).take count ↔ front.length < count := by
  constructor
  · intro hne
    by_contra! hle
    rw [List.take_append_of_le_length hle, List.take_append_of_le_length hle] at hne
    exact hne rfl
  · intro hlt heq
    have hget := congrArg (·[front.length]?) heq
    simp only [List.getElem?_take_of_lt hlt, List.getElem?_append_right (le_refl _),
      Nat.sub_self, ← List.head?_eq_getElem?] at hget
    exact hpart hget

theorem differenceFrom?_append (index : Nat) (context : Option String) :
    differenceFrom? index context (front ++ oldTail) (front ++ newTail) =
      some (index + front.length + 1,
        (front.getLast?.or context).toList.map .context ++ diffLines oldTail newTail) := by
  induction front generalizing index context with
  | nil =>
      cases oldTail with
      | nil =>
          cases newTail with
          | nil => exact absurd rfl hpart
          | cons new news => rfl
      | cons old olds =>
          cases newTail with
          | nil => rfl
          | cons new news =>
              have hline : old ≠ new := by simpa using hpart
              simp [differenceFrom?, hline]
  | cons line front ih =>
      have hlast : front.getLast?.or (some line) = (line :: front).getLast?.or context := by
        rw [List.getLast?_cons]
        cases front.getLast? <;> rfl
      rw [List.cons_append, List.cons_append, differenceFrom?, if_pos rfl, ih, hlast,
        List.length_cons, Nat.add_right_comm index 1, Nat.add_assoc index]

theorem hunk?_append :
    hunk? (front ++ oldTail) (front ++ newTail) = some (.parted front oldTail newTail) := by
  rw [hunk?, differenceFrom?_append hpart, Nat.zero_add, Option.or_none, Option.map_some]
  rfl

end Parted

theorem differenceFrom?_self (index : Nat) (context : Option String) (texts : List String) :
    differenceFrom? index context texts texts = none := by
  induction texts generalizing index context with
  | nil => rfl
  | cons text texts ih => rw [differenceFrom?, if_pos rfl, ih]

theorem hunk?_self (texts : List String) : hunk? texts texts = none := by
  rw [hunk?, differenceFrom?_self, Option.map_none]

/-! ## The hunk at the place -/

namespace Hunk

variable (front oldTail newTail : List String)

@[simp]
theorem olds_parted : (parted front oldTail newTail).olds = front.getLast?.toList ++ oldTail := by
  rw [olds, parted, List.filterMap_append, DiffLine.filterMap_map_context fun _ => rfl,
    DiffLine.filterMap_old?]

@[simp]
theorem news_parted : (parted front oldTail newTail).news = front.getLast?.toList ++ newTail := by
  rw [news, parted, List.filterMap_append, DiffLine.filterMap_map_context fun _ => rfl,
    DiffLine.filterMap_new?]

theorem length_context : front.getLast?.toList.length = min front.length 1 := by
  cases front <;> simp [List.getLast?_cons]

/-- The head counts the lines of the hunk unless lines stand above the context. -/
theorem countsLines_parted_iff : (parted front oldTail newTail).CountsLines ↔ front.length < 2 := by
  have hold : (parted front oldTail newTail).oldCount = front.length + oldTail.length :=
    List.length_append
  have hnew : (parted front oldTail newTail).newCount = front.length + newTail.length :=
    List.length_append
  rw [CountsLines, olds_parted, news_parted, List.length_append, List.length_append,
    length_context, hold, hnew]
  omega

/-- The hunk fits below the lines that stand above its context. -/
theorem patchBelow?_parted :
    (parted front oldTail newTail).patchBelow? (front.length - 1) (front ++ oldTail) =
      some (front ++ newTail) := by
  have hfront : front.dropLast ++ front.getLast?.toList = front := by
    cases hlast : front.getLast? with
    | none => simp [List.getLast?_eq_none_iff.mp hlast]
    | some line => exact List.dropLast_append_getLast? line hlast
  have hlength : front.dropLast.length = front.length - 1 := List.length_dropLast
  have holds : front ++ oldTail = front.dropLast ++ (front.getLast?.toList ++ oldTail) := by
    rw [← List.append_assoc, hfront]
  have hdrop := dropPrefix?_append (front.getLast?.toList ++ oldTail) []
  rw [List.append_nil] at hdrop
  rw [patchBelow?, olds_parted, news_parted, holds, List.drop_left' hlength,
    List.take_left' hlength, hdrop, Option.map_some, List.append_nil, ← List.append_assoc, hfront]

/-- Where its head says, below the context, the hunk fits when there is no context. -/
theorem patch?_parted_iff :
    (parted front oldTail newTail).patch? (front ++ oldTail) = some (front ++ newTail) ↔
      front.length < 1 := by
  have hstart : (parted front oldTail newTail).start - 1 = front.length := rfl
  rw [patch?, hstart]
  constructor
  · intro hpatch
    rw [patchBelow?, olds_parted, List.drop_left, Option.map_eq_some_iff] at hpatch
    obtain ⟨rest, hrest, -⟩ := hpatch
    -- All of `oldTail` comes after the context, and there is no line left for the context.
    obtain ⟨stood, htail, hstood⟩ := List.dropPrefix?_eq_some_iff.mp hrest
    have hlength := congrArg List.length htail
    rw [eq_of_beq hstood, List.length_append, List.length_append, length_context] at hlength
    omega
  · intro hlt
    obtain rfl := List.length_eq_zero_iff.mp (Nat.lt_one_iff.mp hlt)
    exact patchBelow?_parted [] oldTail newTail

end Hunk

theorem isSome_hunk?_iff {olds news : List String} : (hunk? olds news).isSome ↔ olds ≠ news := by
  constructor
  · rintro hsome rfl
    rw [hunk?_self] at hsome
    exact Bool.false_ne_true hsome
  · intro hne
    obtain ⟨front, oldTail, newTail, rfl, rfl, hpart⟩ := exists_front hne
    rw [hunk?_append hpart]
    rfl

theorem exists_parted {olds news : List String} {hunk : Hunk} (hhunk : hunk? olds news = some hunk) :
    ∃ front oldTail newTail, olds = front ++ oldTail ∧ news = front ++ newTail ∧
      oldTail.head? ≠ newTail.head? ∧ hunk = .parted front oldTail newTail := by
  have hne : olds ≠ news := isSome_hunk?_iff.mp (by rw [hhunk]; rfl)
  obtain ⟨front, oldTail, newTail, rfl, rfl, hpart⟩ := exists_front hne
  rw [hunk?_append hpart] at hhunk
  exact ⟨front, oldTail, newTail, rfl, rfl, hpart, (Option.some.inj hhunk).symm⟩

/-- A hunk shows nothing but lines of the two lists. -/
theorem text_mem_of_hunk? {olds news : List String} {hunk : Hunk}
    (hhunk : hunk? olds news = some hunk) {line : DiffLine} (hline : line ∈ hunk.lines) :
    line.text ∈ olds ∨ line.text ∈ news := by
  obtain ⟨front, oldTail, newTail, rfl, rfl, -, rfl⟩ := exists_parted hhunk
  have hcontext (tail : List String) : front.getLast?.toList ++ tail ⊆ front ++ tail := by
    have hfront : front.getLast?.toList ⊆ front :=
      fun text htext => List.mem_of_getLast? (Option.mem_toList.mp htext)
    exact List.append_subset.mpr ⟨List.Subset.trans hfront (List.subset_append_left front tail),
      List.subset_append_right front tail⟩
  rcases Hunk.text_mem _ hline with hold | hnew
  · rw [Hunk.olds_parted] at hold
    exact .inl (hcontext oldTail hold)
  · rw [Hunk.news_parted] at hnew
    exact .inr (hcontext newTail hnew)

theorem readDiff?_listing (file before after : String) :
    readDiff? file (unifiedDiff file before after) =
      some (hunk? (listing before) (listing after)) := by
  refine readDiff?_unifiedDiff file before after fun hunk hhunk line hline => ?_
  rcases text_mem_of_hunk? hhunk hline with hold | hnew
  · exact feed_not_mem_listing before line.text hold
  · exact feed_not_mem_listing after line.text hnew

/-- A text of which the hunk is read is a unified diff when there is no hunk or none of its
lines is context from above the difference. -/
theorem isUnifiedDiff_iff {file diff : String} {olds news : List String}
    (hread : readDiff? file diff = some (hunk? olds news)) :
    IsUnifiedDiff file diff olds news ↔ olds = news ∨ olds.take 1 ≠ news.take 1 := by
  have hhunks : IsUnifiedDiff file diff olds news ↔
      ∀ hunk ∈ hunk? olds news, hunk.CountsLines ∧ hunk.patch? olds = some news := by
    simp only [IsUnifiedDiff, hread, Option.some.injEq, exists_eq_left', isSome_hunk?_iff,
      true_and]
  rw [hhunks]
  by_cases heq : olds = news
  · subst heq
    simp [hunk?_self]
  · obtain ⟨front, oldTail, newTail, rfl, rfl, hpart⟩ := exists_front heq
    rw [hunk?_append hpart, take_ne_take_iff hpart]
    simp only [Option.mem_some_iff, forall_eq', Hunk.countsLines_parted_iff,
      Hunk.patch?_parted_iff, heq, false_or]
    omega

/-- The diff of two texts has a hunk just when their lines differ.  The hunk always makes
the lines of the second text of those of the first from the line above its start on, or
from the first line on; where its head says it does so just when the first lines differ,
and the head counts its lines just when one of the first two lines does. -/
theorem unifiedDiff_patches (file before after : String) :
    (∃ hunk?, readDiff? file (unifiedDiff file before after) = some hunk? ∧
      (hunk?.isSome ↔ listing before ≠ listing after) ∧
      ∀ hunk ∈ hunk?,
        hunk.patchBelow? (hunk.start - 2) (listing before) = some (listing after) ∧
        (hunk.patch? (listing before) = some (listing after) ↔
          (listing before).take 1 ≠ (listing after).take 1) ∧
        (hunk.CountsLines ↔ (listing before).take 2 ≠ (listing after).take 2)) ∧
    (IsUnifiedDiff file (unifiedDiff file before after) (listing before) (listing after) ↔
      listing before = listing after ∨ (listing before).take 1 ≠ (listing after).take 1) := by
  have hread := readDiff?_listing file before after
  generalize listing before = olds, listing after = news at hread ⊢
  refine ⟨⟨hunk? olds news, hread, isSome_hunk?_iff, fun hunk hhunk => ?_⟩,
    isUnifiedDiff_iff hread⟩
  obtain ⟨front, oldTail, newTail, rfl, rfl, hpart, rfl⟩ := exists_parted hhunk
  rw [take_ne_take_iff hpart, take_ne_take_iff hpart]
  exact ⟨Hunk.patchBelow?_parted front oldTail newTail,
    Hunk.patch?_parted_iff front oldTail newTail,
    Hunk.countsLines_parted_iff front oldTail newTail⟩

/-- Where the third line differs, the head counts three lines for the two below it and
names the third line for the context as well. -/
theorem not_forall_isUnifiedDiff :
    ¬ ∀ file before after : String,
      IsUnifiedDiff file (unifiedDiff file before after) (listing before) (listing after) := by
  intro hdiff
  have hthird := (isUnifiedDiff_iff (readDiff?_listing "a.ts" "a\nb\nc\n" "a\nb\nd\n")).mp
    (hdiff "a.ts" "a\nb\nc\n" "a\nb\nd\n")
  revert hthird
  decide

example : unifiedDiff "a.ts" "a\nb\nc\n" "a\nb\nd\n" =
    "--- a/a.ts\n+++ b/a.ts\n@@ -3,3 +3,3 @@\n b\n-c\n+d\n" := by
  cbv

end ReactiveLint
