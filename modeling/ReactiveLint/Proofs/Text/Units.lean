import ReactiveLint.Proofs.Fix.Splice
import ReactiveLint.Proofs.Text.Utf16

/-!
# Units and bytes

A unit of the UTF-16 form of a text belongs to one character, and its byte offset is where
that character starts.  Between characters this counts units in the other direction, and a
table with one entry for every unit gives the same answers.
-/

namespace ReactiveLint.Text.Utf16

variable {source : String} {cs before after middle : List Char} {c : Char}
  {index unit first last offset start stop : Nat}

/-! ## The UTF-16 form -/

/-- The units of a character: its code, or a surrogate pair. -/
def units (c : Char) : List UInt16 :=
  if c.val ≤ 0xFFFF then [.ofNat c.toNat]
  else [.ofNat (0xD800 + (c.toNat - 0x10000) / 0x400), .ofNat (0xDC00 + (c.toNat - 0x10000) % 0x400)]

/-- The UTF-16 form of a text. -/
def encode (cs : List Char) : List UInt16 := cs.flatMap units

/-- An index between the units of two characters, or at an end of the text. -/
def IsUnitBoundary (cs : List Char) (index : Nat) : Prop :=
  ∃ before after, cs = before ++ after ∧ length before = index

theorem length_units (c : Char) : (units c).length = width c := by
  rw [units, width]
  split <;> rfl

theorem width_pos (c : Char) : 0 < width c := by
  rw [width]
  split <;> decide

theorem encode_append (left right : List Char) : encode (left ++ right) = encode left ++ encode right :=
  List.flatMap_append

theorem length_encode (cs : List Char) : (encode cs).length = length cs := by
  induction cs with
  | nil => rfl
  | cons c cs ih =>
      rw [encode, List.flatMap_cons, List.length_append, length_units, ← encode, ih, length]

theorem length_append (left right : List Char) :
    length (left ++ right) = length left + length right := by
  rw [← length_encode, encode_append, List.length_append, length_encode, length_encode]

/-- The units of a part of a text stand between the units of the other parts. -/
theorem encode_middle (before middle after : List Char) :
    ((encode (before ++ (middle ++ after))).drop (length before)).take (length middle) =
      encode middle := by
  rw [encode_append, ← length_encode before, List.drop_left, encode_append, ← length_encode middle,
    List.take_left]

/-! ## The character that holds a unit -/

theorem locate?_append_cons (hunit : unit < width c) (before after : List Char) :
    locate? (before ++ c :: after) (length before + unit) = some (byteLength before) := by
  induction before with
  | nil => rw [List.nil_append, locate?, length, Nat.zero_add, if_pos hunit, byteLength]
  | cons d before ih =>
      have hrest : width d + length before + unit - width d = length before + unit := by omega
      rw [List.cons_append, locate?, length, if_neg (by omega), hrest, ih, Option.map_some,
        byteLength]

theorem locate?_length (cs : List Char) : locate? cs (length cs) = some (byteLength cs) := by
  induction cs with
  | nil => rfl
  | cons c cs ih =>
      rw [locate?, length, if_neg (by omega), Nat.add_sub_cancel_left, ih, Option.map_some,
        byteLength]

/-- Between two characters the units before a place are turned into the bytes before it. -/
theorem locate?_append (before after : List Char) :
    locate? (before ++ after) (length before) = some (byteLength before) := by
  cases after with
  | nil => rw [List.append_nil, locate?_length]
  | cons c after => exact locate?_append_cons (width_pos c) before after

theorem exists_holder (hlt : index < length cs) :
    ∃ before c after unit, cs = before ++ c :: after ∧ unit < width c ∧
      index = length before + unit := by
  induction cs generalizing index with
  | nil => cases hlt
  | cons c cs ih =>
      by_cases hfirst : index < width c
      · exact ⟨[], c, cs, index, rfl, hfirst, (Nat.zero_add index).symm⟩
      · rw [length] at hlt
        obtain ⟨before, d, after, unit, rfl, hunit, hindex⟩ := @ih (index - width c) (by omega)
        refine ⟨c :: before, d, after, unit, rfl, hunit, ?_⟩
        rw [length]
        omega

theorem exists_locate? (hle : index ≤ length cs) :
    ∃ before after, cs = before ++ after ∧ locate? cs index = some (byteLength before) := by
  rcases Nat.lt_or_eq_of_le hle with hlt | rfl
  · obtain ⟨before, c, after, unit, rfl, hunit, rfl⟩ := exists_holder hlt
    exact ⟨before, c :: after, rfl, locate?_append_cons hunit before after⟩
  · exact ⟨cs, [], (List.append_nil cs).symm, locate?_length cs⟩

theorem locate?_mono (hle : first ≤ last) (hfirst : locate? cs first = some start)
    (hlast : locate? cs last = some stop) : start ≤ stop := by
  induction cs generalizing first last start stop with
  | nil =>
      rw [locate?, Option.ite_none_right_eq_some] at hfirst
      exact Option.some.inj hfirst.2 ▸ Nat.zero_le _
  | cons c cs ih =>
      rw [locate?] at hfirst hlast
      by_cases hwithin : first < width c
      · rw [if_pos hwithin] at hfirst
        exact Option.some.inj hfirst ▸ Nat.zero_le _
      · rw [if_neg hwithin, Option.map_eq_some_iff] at hfirst
        rw [if_neg (by omega), Option.map_eq_some_iff] at hlast
        obtain ⟨start, hstart, rfl⟩ := hfirst
        obtain ⟨stop, hstop, rfl⟩ := hlast
        exact Nat.add_le_add_left (ih (Nat.sub_le_sub_right hle _) hstart hstop) _

/-- Two parts of one length at the start of a text are the same. -/
theorem eq_of_byteLength_eq {other rest : List Char} (hparts : before ++ after = other ++ rest)
    (hlength : byteLength before = byteLength other) : before = other := by
  have hcut := cut?_byteLength_append before after
  rw [hparts, hlength, cut?_byteLength_append] at hcut
  exact (congrArg Prod.fst (Option.some.inj hcut)).symm

/-! ## The table -/

/-- The byte offsets of the units of a text that starts at an offset, and that of its end. -/
def tableFrom (offset : Nat) : List Char → List Nat
  | [] => [offset]
  | c :: cs => List.replicate (width c) offset ++ tableFrom (offset + c.utf8Size) cs

def table (cs : List Char) : List Nat := tableFrom 0 cs

theorem getElem?_tableFrom (cs : List Char) (offset index : Nat) :
    (tableFrom offset cs)[index]? = (locate? cs index).map (offset + ·) := by
  induction cs generalizing offset index with
  | nil => cases index <;> rfl
  | cons c cs ih =>
      rw [tableFrom, locate?]
      by_cases hfirst : index < width c
      · rw [if_pos hfirst, List.getElem?_append_left (by rwa [List.length_replicate]),
          List.getElem?_replicate_of_lt hfirst]
        rfl
      · rw [if_neg hfirst, List.getElem?_append_right (by rw [List.length_replicate]; omega),
          List.length_replicate, ih, Option.map_map]
        exact congrArg (Option.map · _) (funext fun bytes => Nat.add_assoc _ _ _)

theorem getElem?_table (cs : List Char) (index : Nat) : (table cs)[index]? = locate? cs index := by
  rw [table, getElem?_tableFrom]
  simp

theorem locate?_of_ascii (hascii : cs.all (·.val < 128) = true) (hle : index ≤ length cs) :
    locate? cs index = some index := by
  induction cs generalizing index with
  | nil =>
      obtain rfl := Nat.le_zero.mp hle
      rfl
  | cons c cs ih =>
      rw [List.all_cons, Bool.and_eq_true, decide_eq_true_eq] at hascii
      have hwidth := width_of_ascii hascii.1
      rw [length, hwidth] at hle
      rw [locate?, hwidth, utf8Size_of_ascii hascii.1]
      by_cases hzero : index < 1
      · rw [if_pos hzero, Nat.lt_one_iff.mp hzero]
      · rw [if_neg hzero, ih hascii.2 (by omega), Option.map_some, Nat.add_sub_cancel' (by omega)]

theorem locate?_eq_none_iff : locate? cs index = none ↔ length cs < index := by
  constructor
  · intro hnone
    by_contra hle
    obtain ⟨before, after, -, hsome⟩ := exists_locate? (Nat.le_of_not_lt hle)
    rw [hnone] at hsome
    cases hsome
  · intro hlt
    induction cs generalizing index with
    | nil => exact if_neg (Nat.ne_of_gt hlt)
    | cons c cs ih =>
        rw [length] at hlt
        rw [locate?, if_neg (by omega), ih (by omega), Option.map_none]

/-- An index with its byte index in a text lies in the text itself. -/
theorem le_length_of_byteIndex_le (hle : byteIndex source index ≤ byteLength source.toList) :
    index ≤ length source.toList := by
  by_contra hlt
  have hnone := locate?_eq_none_iff.mpr (Nat.lt_of_not_le hlt)
  exact Nat.not_lt_of_le hle (byteLength_lt_byteIndex hnone)

/-- The index of a unit is its byte index in an ASCII text, and stands in the table of any
other one. -/
theorem byteIndex_eq (source : String) (index : Nat) :
    byteIndex source index =
      if source.toList.all (·.val < 128) then index
      else ((table source.toList)[index]?).getD (byteLength source.toList + index) := by
  rw [byteIndex, getElem?_table]
  cases hlocate : locate? source.toList index with
  | none => rw [Option.getD_none, Option.getD_none]
  | some found =>
      rw [Option.getD_some, Option.getD_some]
      split
      next hascii =>
        have hle : index ≤ length source.toList := by
          by_contra hlt
          rw [locate?_eq_none_iff.mpr (Nat.lt_of_not_le hlt)] at hlocate
          cases hlocate
        rw [locate?_of_ascii hascii hle] at hlocate
        exact (Option.some.inj hlocate).symm
      next => rfl

/-! ## Parts of a text -/

theorem byteIndex_of_locate? (hlocate : locate? source.toList index = some offset) :
    byteIndex source index = offset := by
  rw [byteIndex, hlocate, Option.getD_some]

/-- A part of a text between two characters is the part of its UTF-16 form between the same
units. -/
theorem encode_slice (hstart : IsUnitBoundary source.toList start)
    (hstop : IsUnitBoundary source.toList stop)
    (hle : byteIndex source start ≤ byteIndex source stop) :
    encode (slice source ⟨byteIndex source start, byteIndex source stop⟩).toList =
      ((encode source.toList).drop start).take (stop - start) := by
  obtain ⟨first, rest, hfirst, rfl⟩ := hstart
  obtain ⟨last, tail, hlast, rfl⟩ := hstop
  rw [byteIndex_of_locate? (hfirst ▸ locate?_append first rest),
    byteIndex_of_locate? (hlast ▸ locate?_append last tail)] at hle ⊢
  obtain ⟨before, middle, after, hparts, hbefore, hmiddle⟩ := exists_parts
    (isBoundary_iff.mpr ⟨first, rest, hfirst, rfl⟩) (isBoundary_iff.mpr ⟨last, tail, hlast, rfl⟩) hle
  obtain rfl : before = first := eq_of_byteLength_eq (hparts.symm.trans hfirst) hbefore
  have htail : before ++ middle ++ after = last ++ tail := by
    rw [List.append_assoc, ← hparts, hlast]
  have hjoined : before ++ middle = last :=
    eq_of_byteLength_eq htail ((byteLength_append before middle).trans hmiddle)
  have hslice : slice source ⟨byteLength before, byteLength last⟩ = String.ofList middle := by
    rw [← hmiddle, slice, hparts]
    exact congrArg String.ofList (Fix.between_byteLength before middle after)
  rw [hslice, String.toList_ofList, ← hjoined, length_append, Nat.add_sub_cancel_left, hparts,
    encode_middle]

/-! ## Sums that are too large -/

/-- An index behind a text that is not ASCII whose sum with the length of the text in bytes is
no 64-bit word. -/
def Overflows (source : String) (index : Nat) : Prop :=
  source.toList.all (·.val < 128) = false ∧ length source.toList < index ∧
    offsetLimit ≤ byteLength source.toList + index

theorem byteOffset?_eq_none_iff (hword : index < offsetLimit) :
    byteOffset? source index = none ↔ Overflows source index := by
  rw [Overflows, ← locate?_eq_none_iff, byteOffset?]
  cases hlocate : locate? source.toList index with
  | some found => simp
  | none =>
      cases hascii : source.toList.all (·.val < 128) with
      | true => simp [hword]
      | false => simp

/-! ## The conversion -/

theorem byteOffset?_of_locate? (hlocate : locate? source.toList index = some offset) :
    byteOffset? source index = some offset := by
  simp only [byteOffset?, hlocate]

/-- Units are turned into bytes: each unit into the start of the character that holds it, and
the end into the end. -/
structure IsConverted (source : String) : Prop where
  isHeld : ∀ index < length source.toList, ∃ before c after unit,
    source.toList = before ++ c :: after ∧ unit < width c ∧ index = length before + unit ∧
      byteOffset? source index = some (byteLength before)
  ends : byteOffset? source (length source.toList) = some (byteLength source.toList)
  onBoundary : ∀ index ≤ length source.toList, ∃ offset,
    byteOffset? source index = some offset ∧ IsBoundary source.toList offset
  mono : ∀ first last start stop, first ≤ last → last ≤ length source.toList →
    byteOffset? source first = some start → byteOffset? source last = some stop → start ≤ stop
  /-- Counting the units before a place undoes the conversion, and the conversion undoes it. -/
  counts : ∀ before after index, source.toList = before ++ after →
    IsUnitBoundary source.toList index →
      (byteOffset? source index = some (byteLength before) ↔ index = length before)
  /-- An ASCII text needs no table, and its table has the same entries. -/
  tabled : ∀ index, byteIndex source index =
    if source.toList.all (·.val < 128) then index
    else ((table source.toList)[index]?).getD (byteLength source.toList + index)
  ascii : source.toList.all (·.val < 128) = true → ∀ index ≤ length source.toList,
    (table source.toList)[index]? = some index

theorem isConverted (source : String) : IsConverted source where
  isHeld index hlt := by
    obtain ⟨before, c, after, unit, hparts, hunit, rfl⟩ := exists_holder hlt
    refine ⟨before, c, after, unit, hparts, hunit, rfl, byteOffset?_of_locate? ?_⟩
    rw [hparts, locate?_append_cons hunit]
  ends := byteOffset?_of_locate? (locate?_length _)
  onBoundary index hle := by
    obtain ⟨before, after, hparts, hlocate⟩ := exists_locate? hle
    exact ⟨_, byteOffset?_of_locate? hlocate, isBoundary_iff.mpr ⟨before, after, hparts, rfl⟩⟩
  mono first last start stop hle hinside hfirst hlast := by
    obtain ⟨_, _, -, hstart⟩ := exists_locate? (Nat.le_trans hle hinside)
    obtain ⟨_, _, -, hstop⟩ := exists_locate? hinside
    rw [byteOffset?_of_locate? hstart] at hfirst
    rw [byteOffset?_of_locate? hstop] at hlast
    rw [hfirst] at hstart
    rw [hlast] at hstop
    exact locate?_mono hle hstart hstop
  counts before after index hparts hboundary := by
    obtain ⟨other, rest, hother, rfl⟩ := hboundary
    have hlocate : byteOffset? source (length other) = some (byteLength other) :=
      byteOffset?_of_locate? (hother ▸ locate?_append other rest)
    rw [hlocate, Option.some_inj]
    constructor
    · intro hlength
      rw [eq_of_byteLength_eq (hother.symm.trans hparts) hlength]
    · intro hlength
      have hbefore := byteOffset?_of_locate? (hparts ▸ locate?_append before after)
      rw [← hlength, hlocate] at hbefore
      exact Option.some.inj hbefore
  tabled := byteIndex_eq source
  ascii hascii index hle := by rw [getElem?_table, locate?_of_ascii hascii hle]

example : byteOffset? "λ😀;x" 2 = some 2 ∧ byteOffset? "λ😀;x" 3 = some 6 ∧
    encode "λ😀".toList = [0x3BB, 0xD83D, 0xDE00] := by
  decide

end ReactiveLint.Text.Utf16
