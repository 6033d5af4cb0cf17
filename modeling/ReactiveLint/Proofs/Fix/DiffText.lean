import ReactiveLint.Fix.Diff
import ReactiveLint.Proofs.Data.Result
import ReactiveLint.Proofs.Number.Text
import ReactiveLint.Proofs.Text.Listing

/-!
# Reading diffs

The text of a diff determines its hunk: the numbers stand between fixed marks in the head,
and every line says by its first character what it is.  `readDiff?` goes back from the
text.
-/

namespace ReactiveLint

open Text

theorem dropPrefix?_append {A : Type} [BEq A] [LawfulBEq A] (first rest : List A) :
    (first ++ rest).dropPrefix? first = some rest :=
  List.dropPrefix?_eq_some_iff.mpr ⟨first, rfl, by simp⟩

namespace DiffLine

def text : DiffLine → String
  | context text => text
  | removed text => text
  | added text => text

/-- Reads a line by its mark. -/
def read? : List Char → Option DiffLine
  | ' ' :: cs => some (.context (String.ofList cs))
  | '-' :: cs => some (.removed (String.ofList cs))
  | '+' :: cs => some (.added (String.ofList cs))
  | _ => none

theorem read?_display (line : DiffLine) : read? line.display.toList = some line := by
  cases line <;> simp [display, read?]

theorem feed_not_mem_display {line : DiffLine} (htext : '\n' ∉ line.text.toList) :
    '\n' ∉ line.display.toList := by
  cases line <;> simpa [display, text] using htext

end DiffLine

/-! ## Heads -/

/-- The number behind a mark, and the rest. -/
def readCount? (mark cs : List Char) : Option (Nat × List Char) := do
  match Number.spanDigits (← cs.dropPrefix? mark) with
  | ([], _) => none
  | (digits, rest) => some (Number.digitsValue digits, rest)

theorem readCount?_append (mark : List Char) (count : Nat) {rest : List Char}
    (hrest : ∀ c ∈ rest.head?, c.isDigit = false) :
    readCount? mark (mark ++ (Nat.toDigits 10 count ++ rest)) = some (count, rest) := by
  have hspan : Number.spanDigits (Nat.toDigits 10 count ++ rest) = (Nat.toDigits 10 count, rest) :=
    Number.spanDigits_append (fun _ => Number.isDigit_of_mem_toDigits) hrest
  obtain ⟨first, digits, hdigits⟩ :=
    List.exists_cons_of_ne_nil (Nat.toDigits_ne_nil : Nat.toDigits 10 count ≠ [])
  have hvalue := Number.digitsValue_toDigits count
  rw [hdigits] at hspan hvalue
  rw [readCount?, dropPrefix?_append, Option.bind_eq_bind, Option.bind_some, hdigits, hspan]
  simp only [hvalue]

namespace Hunk

/-- The start and the two counts of a head, which names one start for both sides. -/
def readHead? (cs : List Char) : Option (Nat × Nat × Nat) := do
  let (start, cs) ← readCount? "@@ -".toList cs
  let (oldCount, cs) ← readCount? ",".toList cs
  let (newStart, cs) ← readCount? " +".toList cs
  let (newCount, cs) ← readCount? ",".toList cs
  if newStart = start ∧ cs = " @@".toList then some (start, oldCount, newCount) else none

theorem toList_head (hunk : Hunk) :
    hunk.head.toList = "@@ -".toList ++ (Nat.toDigits 10 hunk.start ++ (",".toList ++
      (Nat.toDigits 10 hunk.oldCount ++ (" +".toList ++ (Nat.toDigits 10 hunk.start ++
        (",".toList ++ (Nat.toDigits 10 hunk.newCount ++ " @@".toList))))))) := by
  simp [head, toString]

theorem readHead?_head (hunk : Hunk) :
    readHead? hunk.head.toList = some (hunk.start, hunk.oldCount, hunk.newCount) := by
  rw [toList_head, readHead?, readCount?_append _ _ (by simp)]
  simp only [Option.bind_eq_bind, Option.bind_some]
  rw [readCount?_append _ _ (by simp), Option.bind_some, readCount?_append _ _ (by simp),
    Option.bind_some, readCount?_append _ _ (by simp), Option.bind_some]
  simp only [and_self, if_true]

/-! ## Whole texts -/

/-- Reads a head and, up to the end of the text, the lines below it. -/
def read? (cs : List Char) : Option Hunk :=
  match Text.lines cs with
  | head :: rest => do
      let (start, oldCount, newCount) ← readHead? head
      if rest.getLast? = some [] then
        return ⟨start, oldCount, newCount, ← rest.dropLast.mapM DiffLine.read?⟩
      else none
  | [] => none

theorem toList_display (hunk : Hunk) :
    hunk.display.toList =
      unlines (hunk.head.toList :: hunk.lines.map fun line => line.display.toList) := by
  rw [display, String.toList_join, unlines]
  simp [List.flatMap_def, Function.comp_def]

theorem feed_not_mem_head (hunk : Hunk) : '\n' ∉ hunk.head.toList := by
  have hdigits (n : Nat) : '\n' ∉ Nat.toDigits 10 n :=
    fun hfeed => absurd (Number.isDigit_of_mem_toDigits hfeed) (by decide)
  rw [toList_head]
  simp [hdigits]

/-- A hunk whose lines are lines is read back from its text. -/
theorem read?_display {hunk : Hunk} (hlines : ∀ line ∈ hunk.lines, '\n' ∉ line.text.toList) :
    read? hunk.display.toList = some hunk := by
  have hfeed : ∀ line ∈ hunk.head.toList :: hunk.lines.map (fun line => line.display.toList),
      '\n' ∉ line := by
    simp only [List.forall_mem_cons, List.forall_mem_map]
    exact ⟨feed_not_mem_head hunk, fun line hline => DiffLine.feed_not_mem_display (hlines line hline)⟩
  have hread : (hunk.lines.map fun line => line.display.toList).mapM DiffLine.read? =
      some hunk.lines :=
    mapM_map_some fun line _ => DiffLine.read?_display line
  rw [read?, toList_display, lines_unlines hfeed]
  simp only [List.cons_append, readHead?_head, List.getLast?_concat, List.dropLast_concat, hread,
    Option.bind_eq_bind, Option.bind_some, if_true]
  rfl

end Hunk

/-- What stands above the hunk in the diff of a file. -/
def diffHeader (file : String) : String := s!"--- a/{file}\n+++ b/{file}\n"

/-- Reads the diff of a file: its header, and either nothing or one hunk. -/
def readDiff? (file diff : String) : Option (Option Hunk) := do
  let cs ← diff.toList.dropPrefix? (diffHeader file).toList
  if cs = [] then some none else (Hunk.read? cs).map some

theorem unifiedDiff_eq (file before after : String) :
    unifiedDiff file before after =
      diffHeader file ++ ((hunk? (listing before) (listing after)).map Hunk.display).getD "" := by
  rw [unifiedDiff, diffHeader]
  cases hunk? (listing before) (listing after) with
  | none => exact String.append_empty.symm
  | some hunk => rfl

theorem readDiff?_unifiedDiff (file before after : String)
    (hlines : ∀ hunk ∈ hunk? (listing before) (listing after), ∀ line ∈ hunk.lines,
      '\n' ∉ line.text.toList) :
    readDiff? file (unifiedDiff file before after) =
      some (hunk? (listing before) (listing after)) := by
  rw [readDiff?, unifiedDiff_eq, String.toList_append, dropPrefix?_append, Option.bind_eq_bind,
    Option.bind_some]
  cases hhunk : hunk? (listing before) (listing after) with
  | none => rfl
  | some hunk =>
      have hread := Hunk.read?_display (hlines hunk hhunk)
      have hne : hunk.display.toList ≠ [] := by simp [Hunk.toList_display, unlines]
      rw [Option.map_some, Option.getD_some, if_neg hne, hread, Option.map_some]

end ReactiveLint
