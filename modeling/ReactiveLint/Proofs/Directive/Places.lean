import ReactiveLint.Proofs.Directive.Lookup
import ReactiveLint.Proofs.Directive.Reading
import ReactiveLint.Proofs.Text.Numbering

/-!
# Where directives stand

The scan reads a directive from the first comment of a source that holds one, and goes on
behind it.  The line that it gives a directive is that of the place where the comment
starts, though it counts line feeds and knows of no offsets.
-/

namespace ReactiveLint

open Text (byteLength)

namespace Directive

variable {source : String} {seen passed cs here : List Char} {place : Span}
  {scope : DirectiveScope} {body rest : List Char} {fuel line : Nat}
  {directive : Directive} {list : List Directive} {places : List Span}

/-- A comment with a directive takes up a span of a text. -/
def StandsAt (text : List Char) (place : Span) (scope : DirectiveScope) (body : List Char) : Prop :=
  ∃ before here rest, text = before ++ here ∧ readHere? here = some (scope, body, rest) ∧
    byteLength before = place.start ∧ place.stop + byteLength rest = byteLength text

/-- A directive is what a comment says, on the line where the comment starts. -/
def IsReadAt (source : String) (directive : Directive) (place : Span) : Prop :=
  ∃ scope body, StandsAt source.toList place scope body ∧
    directive = ⟨scope, (Text.position source place.start).line, (splitReason body).1,
      (splitReason body).2⟩

/-- Directives are read from comments one behind the other, and from an offset on no comment
starts outside of these. -/
structure AreReadFrom (source : String) (offset : Nat) (list : List Directive)
    (places : List Span) : Prop where
  read : List.Forall₂ (IsReadAt source) list places
  inOrder : places.Pairwise fun first second => first.stop ≤ second.start
  onward : ∀ place ∈ places, offset ≤ place.start
  complete : ∀ place scope body, StandsAt source.toList place scope body →
    offset ≤ place.start → ∃ found ∈ places, found.start ≤ place.start ∧ place.start < found.stop

/-- A comment that starts behind a part of a text is in the other part. -/
theorem StandsAt.exists_append (hstands : StandsAt (seen ++ cs) place scope body)
    (hle : byteLength seen ≤ place.start) :
    ∃ middle here rest, cs = middle ++ here ∧ readHere? here = some (scope, body, rest) ∧
      byteLength seen + byteLength middle = place.start := by
  obtain ⟨before, here, rest, hparts, hhere, hstart, -⟩ := hstands
  rw [← hstart] at hle ⊢
  rcases List.append_eq_append_iff.mp hparts with ⟨middle, rfl, rfl⟩ | ⟨middle, rfl, rfl⟩
  · exact ⟨middle, here, rest, rfl, hhere, (Text.byteLength_append ..).symm⟩
  · rw [Text.byteLength_append] at hle
    obtain rfl : middle = [] := Text.eq_nil_of_byteLength_eq_zero (by omega)
    exact ⟨[], cs, rest, rfl, hhere, by rw [List.append_nil]; rfl⟩

namespace AreReadFrom

theorem nil (hsource : source.toList = seen) : AreReadFrom source (byteLength seen) [] [] where
  read := .nil
  inOrder := .nil
  onward := by simp
  complete place scope body hstands hle := by
    rw [hsource, ← List.append_nil seen] at hstands
    obtain ⟨middle, here, rest, hparts, hhere, -⟩ := hstands.exists_append hle
    obtain ⟨-, rfl⟩ := List.append_eq_nil_iff.mp hparts.symm
    cases hhere

/-- A character at which no comment starts is passed. -/
theorem cons_of_none {c : Char} (hsource : source.toList = seen ++ c :: cs)
    (hnone : readHere? (c :: cs) = none)
    (hread : AreReadFrom source (byteLength (seen ++ [c])) list places) :
    AreReadFrom source (byteLength seen) list places where
  read := hread.read
  inOrder := hread.inOrder
  onward place hplace := by
    have honward := hread.onward place hplace
    rw [Text.byteLength_append] at honward
    exact Nat.le_of_add_right_le honward
  complete place scope body hstands hle := by
    refine hread.complete place scope body hstands ?_
    rw [hsource] at hstands
    obtain ⟨middle, here, rest, hparts, hhere, hstart⟩ := hstands.exists_append hle
    cases middle with
    | nil =>
        obtain rfl : c :: cs = here := hparts
        rw [hnone] at hhere
        cases hhere
    | cons d middle =>
        obtain rfl := (List.cons.inj hparts).1
        rw [← hstart, Text.byteLength_append]
        exact Nat.add_le_add_left (Nat.le_add_right _ _) _

/-- A comment is read where it starts. -/
theorem cons (hsource : source.toList = seen ++ (passed ++ rest))
    (hhere : readHere? (passed ++ rest) = some (scope, body, rest))
    (hread : AreReadFrom source (byteLength (seen ++ passed)) list places) :
    AreReadFrom source (byteLength seen)
      (⟨scope, 1 + newlines seen, (splitReason body).1, (splitReason body).2⟩ :: list)
      (⟨byteLength seen, byteLength (seen ++ passed)⟩ :: places) where
  read := by
    refine .cons ⟨scope, body, ⟨seen, passed ++ rest, rest, hsource, hhere, rfl, ?_⟩, ?_⟩ hread.read
    · rw [hsource, ← List.append_assoc, Text.byteLength_append (seen ++ passed)]
    · rw [Text.position_byteLength hsource, Text.Position.first_past]
      rfl
  inOrder := List.pairwise_cons.mpr ⟨hread.onward, hread.inOrder⟩
  onward := by
    refine List.forall_mem_cons.mpr ⟨Nat.le_refl _, fun place hplace => ?_⟩
    have honward := hread.onward place hplace
    rw [Text.byteLength_append] at honward
    exact Nat.le_of_add_right_le honward
  complete place scope body hstands hle := by
    by_cases hinside : place.start < byteLength (seen ++ passed)
    · exact ⟨_, List.mem_cons_self, hle, hinside⟩
    · obtain ⟨found, hfound, hcovers⟩ :=
        hread.complete place scope body hstands (Nat.le_of_not_lt hinside)
      exact ⟨found, List.mem_cons_of_mem _ hfound, hcovers⟩

end AreReadFrom

theorem exists_areReadFrom (hsource : source.toList = seen ++ cs) (hfuel : cs.length ≤ fuel) :
    ∃ places, AreReadFrom source (byteLength seen) (readFrom fuel (1 + newlines seen) cs)
      places := by
  have hnewlines : ∀ seen passed : List Char,
      1 + newlines seen + newlines passed = 1 + newlines (seen ++ passed) := by
    intro seen passed
    rw [Nat.add_assoc, newlines, newlines, ← List.count_append]
    rfl
  induction fuel generalizing seen cs with
  | zero =>
      obtain rfl := List.eq_nil_of_length_eq_zero (Nat.le_zero.mp hfuel)
      exact ⟨[], .nil (hsource.trans (List.append_nil _))⟩
  | succ fuel ih =>
      cases cs with
      | nil => exact ⟨[], .nil (hsource.trans (List.append_nil _))⟩
      | cons c cs =>
          cases hhere : readHere? (c :: cs) with
          | none =>
              have hnext : source.toList = (seen ++ [c]) ++ cs := by simp [hsource]
              obtain ⟨places, hread⟩ := ih hnext (Nat.le_of_succ_le_succ hfuel)
              refine ⟨places, .cons_of_none hsource hhere ?_⟩
              rwa [readFrom_cons_of_none hhere, hnewlines]
          | some found =>
              obtain ⟨scope, body, rest⟩ := found
              obtain ⟨passed, hne, hparts⟩ := readHere?_passes hhere
              rw [hparts] at hsource hhere hfuel ⊢
              have hpos := List.length_pos_iff.mpr hne
              rw [List.length_append] at hfuel
              have hnext : source.toList = (seen ++ passed) ++ rest := by simp [hsource]
              obtain ⟨places, hread⟩ := ih hnext (by omega)
              rw [readFrom_of_passes hhere hne, hnewlines]
              exact ⟨_, .cons hsource hhere hread⟩

end Directive

namespace Directives

/-- The directives of a source are those of its comments, in order. -/
theorem exists_areReadFrom (source : String) :
    ∃ places, Directive.AreReadFrom source 0 (parse source).list places := by
  rw [list_parse]
  exact Directive.exists_areReadFrom (List.nil_append _).symm (Nat.le_refl _)

/-- Lines and columns number the places of a source one by one, and a directive is on the
line that the numbering gives to the place where its comment starts. -/
theorem isNumbered_and_areReadFrom (source : String) :
    Text.IsNumbered source ∧
      ∃ places, Directive.AreReadFrom source 0 (parse source).list places :=
  ⟨Text.isNumbered source, exists_areReadFrom source⟩

end Directives

end ReactiveLint
