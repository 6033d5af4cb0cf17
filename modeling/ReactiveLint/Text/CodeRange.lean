/-!
# Ranges of code points

The tables of character properties are written as lines of hexadecimal words:
`41-5A` is a range and `AA` a range of one.  This module reads such words and
answers membership.
-/

namespace ReactiveLint.Text

/-- An inclusive range of code points. -/
structure CodeRange where
  first : Nat
  last : Nat
deriving DecidableEq, Repr

namespace CodeRange

def hexDigitValue (c : Char) : Nat :=
  if c.isDigit then c.toNat - 48
  else if 'a' ≤ c ∧ c ≤ 'f' then c.toNat - 87
  else if 'A' ≤ c ∧ c ≤ 'F' then c.toNat - 55
  else 0

def hexValue (cs : List Char) : Nat :=
  cs.foldl (fun value c => 16 * value + hexDigitValue c) 0

/-- The words of a line, which single spaces separate. -/
def words : List Char → List (List Char)
  | [] => [[]]
  | c :: cs =>
      if c = ' ' then [] :: words cs
      else
        match words cs with
        | word :: rest => (c :: word) :: rest
        | [] => [[c]]

def ofWord (word : List Char) : CodeRange :=
  let first := hexValue (word.takeWhile (· != '-'))
  match word.dropWhile (· != '-') with
  | [] => ⟨first, first⟩
  | _ :: last => ⟨first, hexValue last⟩

def table (lines : List String) : List CodeRange :=
  lines.flatMap fun line => (words line.toList).map ofWord

def holds (range : CodeRange) (code : Nat) : Bool :=
  decide (range.first ≤ code) && decide (code ≤ range.last)

/-- Membership in a table in ascending order: the search stops at the first
range that does not lie wholly before the code point. -/
def member : List CodeRange → Nat → Bool
  | [], _ => false
  | range :: rest, code =>
      if range.last < code then member rest code else decide (range.first ≤ code)

theorem exists_of_member {ranges : List CodeRange} {code : Nat}
    (hmember : member ranges code = true) :
    ∃ range ∈ ranges, range.holds code = true := by
  induction ranges with
  | nil => simp [member] at hmember
  | cons range rest ih =>
      rw [member] at hmember
      split at hmember
      next =>
        obtain ⟨found, hfound, hholds⟩ := ih hmember
        exact ⟨found, List.mem_cons_of_mem _ hfound, hholds⟩
      next hlast =>
        refine ⟨range, List.mem_cons_self, ?_⟩
        simp_all [holds]

end CodeRange

end ReactiveLint.Text
